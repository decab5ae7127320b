import ChainQuantStudio.Backtesting.Holdout
import ChainQuantStudio.Library.RealArith
import ChainQuantStudio.Library.WilsonScore

/-!
# Consistent signal metrics

Hits are signals and positives, signals and positives are observations, however the rows are spread
over parts. In exact arithmetic the Wilson bound lies between zero and the precision and grows with
the hits, so a ranking by it never puts fewer hits first.
-/

namespace ChainQuantStudio.Backtesting

open Columns FloatArith WilsonScore

structure Tally.Bounded (tally : Tally) : Prop where
  hits_le_signals : tally.hits ≤ tally.signals
  signals_le : tally.signals ≤ tally.observations
  hits_le_positives : tally.hits ≤ tally.positives
  positives_le : tally.positives ≤ tally.observations

theorem Tally.Bounded.row {tally : Tally} (h : tally.Bounded) (row : Bool × Option Bool) :
    (tally.row row).Bounded := by
  obtain ⟨hhits, hsignals, hpositive, hpositives⟩ := h
  obtain ⟨triggered, label⟩ := row
  cases label with
  | none => exact ⟨hhits, hsignals, hpositive, hpositives⟩
  | some label =>
    cases triggered <;> cases label <;>
      constructor <;> simp only [Tally.row, Bool.toNat_true, Bool.toNat_false, Bool.and_true,
        Bool.and_false] <;> omega

theorem Tally.Bounded.foldl {tally : Tally} (h : tally.Bounded) (rows : List (Bool × Option Bool)) :
    (rows.foldl Tally.row tally).Bounded := by
  induction rows generalizing tally with
  | nil => exact h
  | cons row rows ih => exact ih (h.row row)

theorem Tally.Bounded.part {tally after : Tally} {part : Part} (h : tally.Bounded)
    (hpart : tally.part part = .ok after) : after.Bounded := by
  unfold Tally.part at hpart
  split_ifs at hpart
  cases hpart
  have hbars : ({ tally with bars := tally.bars + part.1.length } : Tally).Bounded :=
    ⟨h.hits_le_signals, h.signals_le, h.hits_le_positives, h.positives_le⟩
  exact hbars.foldl _

theorem metrics_eq_ok {F : Type} [FloatArith F] {parts : List Part} {candleSeconds : ℤ}
    {m : MetricSet F} (h : metrics parts candleSeconds = .ok m) :
    ∃ tally : Tally, tally.Bounded ∧ m = tally.metrics candleSeconds := by
  obtain ⟨tally, hfold, hm⟩ := bind_eq_ok.mp h
  refine ⟨tally, invariant_foldlM (fun part _ a b ha hb => ha.part hb) hfold ?_, ?_⟩
  · exact ⟨le_rfl, le_rfl, le_rfl, le_rfl⟩
  · exact (Except.ok.inj hm).symm

noncomputable def spread (total : ℕ) : ℝ := (196 / 100) ^ 2 / total

theorem spread_pos {total : ℕ} (h : 0 < total) : 0 < spread total := by
  have htotal : (0 : ℝ) < total := Nat.cast_pos.mpr h
  unfold spread
  positivity

theorem wilsonLower_eq {hits total : ℕ} (h : 0 < total) :
    (wilsonLower hits total : ℝ) = lowerBound (hits / total) (spread total) := by
  have htotal : (0 : ℝ) < total := Nat.cast_pos.mpr h
  have hne : (total : ℝ) ≠ 0 := htotal.ne'
  have hmargin : (196 / 100 : ℝ) * √((hits / total * (1 - hits / total)) / total +
      (196 / 100) * (196 / 100) / (4 * total * total)) =
      √(spread total * (hits / total * (1 - hits / total)) + spread total ^ 2 / 4) := by
    have hquantile : (0 : ℝ) ≤ 196 / 100 := by norm_num
    rw [← Real.sqrt_sq hquantile, ← Real.sqrt_mul (sq_nonneg _), Real.sqrt_sq hquantile]
    congr 1
    unfold spread
    field_simp
  simp only [wilsonLower, if_neg h.ne', add, sub, mul, div, FloatArith.sqrt, ofRat]
  push_cast
  rw [hmargin, lowerBound]
  congr 1
  · unfold spread
    field_simp
  · unfold spread
    ring

theorem proportion_mem {hits total : ℕ} (h : hits ≤ total) :
    0 ≤ (hits / total : ℝ) ∧ (hits / total : ℝ) ≤ 1 :=
  ⟨by positivity, div_le_one_of_le₀ (Nat.cast_le.mpr h) (Nat.cast_nonneg _)⟩

theorem wilsonLower_nonneg {hits total : ℕ} (h : hits ≤ total) :
    (0 : ℝ) ≤ wilsonLower hits total := by
  rcases Nat.eq_zero_or_pos total with rfl | htotal
  · simp [wilsonLower, ofRat]
  · rw [wilsonLower_eq htotal]
    exact lowerBound_nonneg (proportion_mem h) (spread_pos htotal)

theorem wilsonLower_le {hits total : ℕ} (h : hits ≤ total) :
    (wilsonLower hits total : ℝ) ≤ hits / total := by
  rcases Nat.eq_zero_or_pos total with rfl | htotal
  · simp [wilsonLower, ofRat]
  · rw [wilsonLower_eq htotal]
    exact lowerBound_le (proportion_mem h) (spread_pos htotal)

theorem strictMonoOn_wilsonLower {total : ℕ} (h : 0 < total) :
    StrictMonoOn (fun hits => (wilsonLower hits total : ℝ)) (Set.Iic total) := by
  intro hits hhits hits' hhits' hlt
  simp only [wilsonLower_eq h]
  have htotal : (0 : ℝ) < total := Nat.cast_pos.mpr h
  have hproportion : (hits / total : ℝ) < hits' / total :=
    div_lt_div_of_pos_right (Nat.cast_lt.mpr hlt) htotal
  exact lowerBound_lt (proportion_mem hhits) (proportion_mem hhits') (spread_pos h) hproportion

structure MetricSet.Consistent (m : MetricSet ℝ) : Prop where
  hits_le_signals : m.hits ≤ m.signals
  signals_le : m.signals ≤ m.observations
  hits_le_positives : m.hits ≤ m.positives
  positives_le : m.positives ≤ m.observations
  wilson_nonneg : 0 ≤ m.wilsonLower
  wilson_le : m.wilsonLower ≤ m.precision
  precision_le : m.precision ≤ 1

theorem precision_eq (tally : Tally) (candleSeconds : ℤ) :
    (tally.metrics candleSeconds : MetricSet ℝ).precision = tally.hits / tally.signals := by
  simp only [Tally.metrics, ofRat]
  split_ifs with hsignals
  · rw [hsignals, Nat.cast_zero, div_zero, Rat.cast_zero]
  · push_cast
    rfl

theorem Tally.Bounded.consistent {tally : Tally} (h : tally.Bounded) (candleSeconds : ℤ) :
    (tally.metrics candleSeconds : MetricSet ℝ).Consistent where
  hits_le_signals := h.hits_le_signals
  signals_le := h.signals_le
  hits_le_positives := h.hits_le_positives
  positives_le := h.positives_le
  wilson_nonneg := wilsonLower_nonneg h.hits_le_signals
  wilson_le := by
    rw [precision_eq]
    exact wilsonLower_le h.hits_le_signals
  precision_le := by
    rw [precision_eq]
    exact (proportion_mem h.hits_le_signals).2

theorem wilsonLower_lt_of_hits_lt {a b : Tally} (hb : b.Bounded) (hsignals : a.signals = b.signals)
    (hhits : a.hits < b.hits) (seconds seconds' : ℤ) :
    (a.metrics seconds : MetricSet ℝ).wilsonLower <
      (b.metrics seconds' : MetricSet ℝ).wilsonLower := by
  have hle := hb.hits_le_signals
  simp only [Tally.metrics, hsignals]
  exact strictMonoOn_wilsonLower (by omega) (Set.mem_Iic.mpr (by omega)) (Set.mem_Iic.mpr hle) hhits

theorem not_outranks_of_lt {score best : ℝ} (a b : MetricSet ℝ) (h : score < best) :
    outranks score a best b = false := by
  simp only [outranks, lt, le]
  simp [h.le, not_le.mpr h]

/-- Ranked by the Wilson bound, no metric set with as many signals and more hits comes behind. -/
def MetricSet.RankedByHits (m : MetricSet ℝ) : Prop :=
  ∀ parts candleSeconds (other : MetricSet ℝ), metrics parts candleSeconds = .ok other →
    m.signals = other.signals →
    outranks (primaryMetric "wilson_lower" m) m (primaryMetric "wilson_lower" other) other = true →
    other.hits ≤ m.hits

theorem Tally.rankedByHits (tally : Tally) (candleSeconds : ℤ) :
    (tally.metrics candleSeconds : MetricSet ℝ).RankedByHits := by
  intro parts otherSeconds other hother hsignals houtranks
  obtain ⟨otherTally, hbounded, rfl⟩ := metrics_eq_ok hother
  by_contra hfewer
  have hlower := wilsonLower_lt_of_hits_lt hbounded hsignals (not_le.mp hfewer) candleSeconds
    otherSeconds
  have hranked := not_outranks_of_lt (tally.metrics candleSeconds) (otherTally.metrics otherSeconds)
    hlower
  simp only [primaryMetric, if_true] at houtranks
  rw [hranked] at houtranks
  cases houtranks

theorem metrics_consistent (parts : List Part) (candleSeconds : ℤ)
    (hlength : ∀ part ∈ parts, part.1.length = part.2.length) :
    ∃ m : MetricSet ℝ, metrics parts candleSeconds = .ok m ∧ m.Consistent ∧ m.RankedByHits ∧
      ∀ total, 0 < total →
        StrictMonoOn (fun hits => (wilsonLower hits total : ℝ)) (Set.Iic total) := by
  obtain ⟨m, hm⟩ := exists_metrics (F := ℝ) candleSeconds hlength
  obtain ⟨tally, hbounded, rfl⟩ := metrics_eq_ok hm
  exact ⟨_, hm, hbounded.consistent candleSeconds, tally.rankedByHits candleSeconds,
    fun total => strictMonoOn_wilsonLower⟩

def labeledParts : List Part :=
  [([true, false], [some true, some false]), ([true, true], [none, some false])]

theorem metrics_consistent_labeledParts :
    (∀ part ∈ labeledParts, part.1.length = part.2.length) ∧
      ∃ m : MetricSet ℝ, metrics labeledParts 300 = .ok m ∧ m.Consistent ∧ m.RankedByHits ∧
        ∀ total, 0 < total →
          StrictMonoOn (fun hits => (wilsonLower hits total : ℝ)) (Set.Iic total) :=
  ⟨by decide, metrics_consistent labeledParts 300 (by decide)⟩

end ChainQuantStudio.Backtesting
