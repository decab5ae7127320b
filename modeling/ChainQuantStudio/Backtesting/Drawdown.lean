import ChainQuantStudio.Library.RunningMax
import Mathlib.Algebra.Order.Field.Rat
import Mathlib.Data.List.GetD
import Mathlib.Data.List.Range
import Mathlib.Data.Nat.Find

/-!
# Drawdown and recovery

The running peak of an equity curve starts at the initial equity, which is in no place of the curve.
The recovery is searched from the trough on, at the equity of the peak's index; a trough below the
initial equity alone has no such index.
-/

namespace ChainQuantStudio.Backtesting

open RunningMax

structure DrawdownState where
  peak : ℚ
  peakIndex : Option ℕ
  currentPeakIndex : Option ℕ
  troughIndex : Option ℕ
  drawdowns : List ℚ

structure DrawdownDetails where
  drawdowns : List ℚ
  peakIndex : Option ℕ
  troughIndex : Option ℕ
  recoveryIndex : Option ℕ

def DrawdownState.raisePeak (s : DrawdownState) (value : ℚ) (index : ℕ) : DrawdownState :=
  if s.peak ≤ value then { s with peak := value, currentPeakIndex := some index } else s

def DrawdownState.record (s : DrawdownState) (drawdown : ℚ) (index : ℕ) : DrawdownState :=
  let drawdowns := s.drawdowns ++ [drawdown]
  if s.troughIndex.all fun trough => drawdown < drawdowns.getD trough 0 then
    { s with drawdowns, troughIndex := some index, peakIndex := s.currentPeakIndex }
  else { s with drawdowns }

def drawdownStep (s : DrawdownState) (entry : ℚ × ℕ) : DrawdownState :=
  let (value, index) := entry
  let s := s.raisePeak value index
  s.record (if 0 < s.peak then value / s.peak - 1 else 0) index

def drawdownStart (initial : ℚ) : DrawdownState :=
  { peak := initial, peakIndex := none, currentPeakIndex := none, troughIndex := none,
    drawdowns := [] }

/-- The first index of `range(start, len(values))` at which the equity is at least `level`. -/
def firstReaching (values : List ℚ) (level : ℚ) (start : ℕ) : Option ℕ :=
  (List.range' start (values.length - start)).find? fun index => level ≤ values.getD index 0

def recoveryIndex (values : List ℚ) : Option ℕ → Option ℕ → Option ℕ
  | some peak, some trough => firstReaching values (values.getD peak 0) (trough + 1)
  | _, _ => none

def drawdownLoop (values : List ℚ) (initial : ℚ) : DrawdownState :=
  values.zipIdx.foldl drawdownStep (drawdownStart initial)

def drawdownDetails (values : List ℚ) (initial : ℚ) : DrawdownDetails :=
  let s := drawdownLoop values initial
  { drawdowns := s.drawdowns
    peakIndex := s.peakIndex
    troughIndex := s.troughIndex
    recoveryIndex := recoveryIndex values s.peakIndex s.troughIndex }

def dateAt (dates : List String) : Option ℕ → String
  | some index => dates.getD index "N/A"
  | none => "N/A"

/-- What `_max_drawdown_svg` writes behind RECOVERY. -/
def recoveryLabel (dates : List String) (d : DrawdownDetails) : String :=
  match d.recoveryIndex with
  | some index => dateAt dates (some index)
  | none => "NOT RECOVERED"

def drawdownAt (initial : ℚ) (values : List ℚ) (i : ℕ) : ℚ :=
  values.getD i 0 / topAt initial values i - 1

def Recovers (initial : ℚ) (values : List ℚ) (trough r : ℕ) : Prop :=
  trough < r ∧ r < values.length ∧ topAt initial values trough ≤ values.getD r 0

/-- Drawdowns, trough and recovery, all from one running peak. -/
structure MeasuredFromPeak (initial : ℚ) (values : List ℚ) (d : DrawdownDetails) : Prop where
  drawdowns : d.drawdowns = (List.range values.length).map (drawdownAt initial values)
  empty : d.troughIndex = none → values = []
  trough : ∀ t, d.troughIndex = some t → FirstMin (drawdownAt initial values) values.length t
  recovered : ∀ t r, d.troughIndex = some t → d.recoveryIndex = some r →
    Recovers initial values t r ∧ ∀ i < r, ¬ Recovers initial values t i
  unrecovered : ∀ t, d.troughIndex = some t → d.recoveryIndex = none →
    ∀ r, ¬ Recovers initial values t r

/-- The curve reaches the initial equity for the first time after the largest of its losses. -/
def RegainsInitial (initial : ℚ) (values : List ℚ) : Prop :=
  ∃ k < values.length, initial ≤ values.getD k 0 ∧ (∀ i < k, values.getD i 0 < initial) ∧
    ∃ j < k, ∀ i < values.length, drawdownAt initial values j ≤ drawdownAt initial values i

theorem drawdownAt_concat {initial v : ℚ} {values : List ℚ} {i : ℕ} (h : i < values.length) :
    drawdownAt initial (values ++ [v]) i = drawdownAt initial values i := by
  rw [drawdownAt, List.getD_append _ _ _ _ h, topAt_concat h, drawdownAt]

theorem drawdownAt_concat_length (initial v : ℚ) (values : List ℚ) :
    drawdownAt initial (values ++ [v]) values.length = v / top initial (values ++ [v]) - 1 := by
  rw [drawdownAt, topAt_concat_length, top_concat, List.getD_append_right _ _ _ _ le_rfl]
  simp

theorem map_drawdownAt_concat (initial v : ℚ) (values : List ℚ) :
    (List.range (values ++ [v]).length).map (drawdownAt initial (values ++ [v])) =
      (List.range values.length).map (drawdownAt initial values) ++
        [v / top initial (values ++ [v]) - 1] := by
  rw [List.length_append, List.length_singleton, List.range_succ, List.map_append,
    List.map_singleton, drawdownAt_concat_length]
  congr 1
  exact List.map_congr_left fun i hi => drawdownAt_concat (List.mem_range.mp hi)

structure DrawdownState.Follows (initial : ℚ) (values : List ℚ) (s : DrawdownState) : Prop where
  peak : s.peak = top initial values
  current : AttainsTop initial values s.currentPeakIndex
  drawdowns : s.drawdowns = (List.range values.length).map (drawdownAt initial values)
  empty : s.troughIndex = none → values = []
  trough : ∀ t, s.troughIndex = some t → FirstMin (drawdownAt initial values) values.length t
  atTrough : ∀ t, s.troughIndex = some t → AttainsTop initial (values.take (t + 1)) s.peakIndex

namespace DrawdownState

variable {initial v : ℚ} {values : List ℚ} {s : DrawdownState} {t : ℕ}

theorem raisePeak_peak (h : s.Follows initial values) :
    (s.raisePeak v values.length).peak = top initial (values ++ [v]) := by
  rw [top_concat, ← h.peak]
  unfold raisePeak
  split_ifs with hle
  · rw [max_eq_right hle]
  · rw [max_eq_left (not_le.mp hle).le]

theorem raisePeak_current (h : s.Follows initial values) :
    AttainsTop initial (values ++ [v]) (s.raisePeak v values.length).currentPeakIndex := by
  unfold raisePeak
  split_ifs with hle <;> rw [h.peak] at hle
  · exact attainsTop_concat_new hle
  · exact h.current.concat (not_le.mp hle)

theorem raisePeak_eq (s : DrawdownState) (v : ℚ) (index : ℕ) :
    (s.raisePeak v index).drawdowns = s.drawdowns ∧
      (s.raisePeak v index).troughIndex = s.troughIndex ∧
      (s.raisePeak v index).peakIndex = s.peakIndex := by
  unfold raisePeak
  split_ifs <;> exact ⟨rfl, rfl, rfl⟩

theorem start_follows (initial : ℚ) : (drawdownStart initial).Follows initial [] where
  peak := rfl
  current v hv := absurd hv List.not_mem_nil
  drawdowns := rfl
  empty _ := rfl
  trough t ht := by cases ht
  atTrough t ht := by cases ht

theorem Follows.getD_drawdowns (h : s.Follows initial values) (ht : s.troughIndex = some t)
    (drawdown : ℚ) : (s.drawdowns ++ [drawdown]).getD t 0 = drawdownAt initial values t := by
  have hlt := (h.trough t ht).lt
  rw [h.drawdowns, List.getD_append _ _ _ _ (by simpa using hlt)]
  simp [List.getD, hlt]

theorem Follows.firstMin_concat (h : s.Follows initial values) (ht : s.troughIndex = some t) :
    FirstMin (drawdownAt initial (values ++ [v])) values.length t :=
  (h.trough t ht).congr fun _ hj => (drawdownAt_concat hj).symm

theorem Follows.drawdowns_concat (h : s.Follows initial values) (v : ℚ) :
    s.drawdowns ++ [drawdownAt initial (values ++ [v]) values.length] =
      (List.range (values ++ [v]).length).map (drawdownAt initial (values ++ [v])) := by
  rw [h.drawdowns, drawdownAt_concat_length, map_drawdownAt_concat]

theorem Follows.isLower_iff (h : s.Follows initial values) (ht : s.troughIndex = some t)
    (drawdown : ℚ) :
    (s.troughIndex.all fun trough => drawdown < (s.drawdowns ++ [drawdown]).getD trough 0) = true ↔
      drawdown < drawdownAt initial (values ++ [v]) t := by
  rw [ht, Option.all_some, h.getD_drawdowns ht, decide_eq_true_eq,
    drawdownAt_concat (h.trough t ht).lt]

theorem Follows.firstMin_new (h : s.Follows initial values)
    (hlower : ∀ t, s.troughIndex = some t →
      drawdownAt initial (values ++ [v]) values.length < drawdownAt initial (values ++ [v]) t) :
    FirstMin (drawdownAt initial (values ++ [v])) (values.length + 1) values.length := by
  cases hs : s.troughIndex with
  | none =>
    rw [h.empty hs]
    exact firstMin_one _
  | some t => exact (h.firstMin_concat hs).replace (hlower t hs)

theorem record_follows {raised : DrawdownState} (h : s.Follows initial values)
    (hpeak : raised.peak = top initial (values ++ [v]))
    (hcurrent : AttainsTop initial (values ++ [v]) raised.currentPeakIndex)
    (hsame : raised.drawdowns = s.drawdowns ∧ raised.troughIndex = s.troughIndex ∧
      raised.peakIndex = s.peakIndex) :
    (raised.record (drawdownAt initial (values ++ [v]) values.length) values.length).Follows
      initial (values ++ [v]) := by
  obtain ⟨hdrawdowns, htrough, hpeakIndex⟩ := hsame
  have hlength : (values ++ [v]).length = values.length + 1 := List.length_append
  simp only [record, hdrawdowns, htrough, hpeakIndex]
  split_ifs with hnew
  · refine ⟨hpeak, hcurrent, h.drawdowns_concat v, fun hnone => ?_, fun t ht => ?_, fun t ht => ?_⟩
    · cases hnone
    · cases ht
      rw [hlength]
      exact h.firstMin_new fun t hs => (h.isLower_iff hs _).mp hnew
    · cases ht
      rw [← hlength, List.take_length]
      exact hcurrent
  · refine ⟨hpeak, hcurrent, h.drawdowns_concat v, fun hnone => ?_, fun t ht => ?_, fun t ht => ?_⟩
    · dsimp only at hnone
      rw [hnone] at hnew
      exact absurd rfl hnew
    · have hkept : drawdownAt initial (values ++ [v]) t ≤
          drawdownAt initial (values ++ [v]) values.length :=
        not_lt.mp fun hlower => hnew ((h.isLower_iff ht _).mpr hlower)
      rw [hlength]
      exact (h.firstMin_concat ht).keep hkept
    · rw [List.take_append_of_le_length (h.trough t ht).lt]
      exact h.atTrough t ht

theorem step_follows (hinitial : 0 < initial) (h : s.Follows initial values) (v : ℚ) :
    (drawdownStep s (v, values.length)).Follows initial (values ++ [v]) := by
  have hpeak := raisePeak_peak (v := v) h
  have hpos : 0 < (s.raisePeak v values.length).peak := by
    rw [hpeak]
    exact hinitial.trans_le (le_top _ _)
  have hdrawdown : v / (s.raisePeak v values.length).peak - 1 =
      drawdownAt initial (values ++ [v]) values.length := by
    rw [hpeak, drawdownAt_concat_length]
  simp only [drawdownStep, if_pos hpos, hdrawdown]
  exact record_follows h hpeak (raisePeak_current h) (raisePeak_eq s v values.length)

theorem loop_follows (hinitial : 0 < initial) (values : List ℚ) :
    (drawdownLoop values initial).Follows initial values := by
  induction values using List.reverseRecOn with
  | nil => exact start_follows initial
  | append_singleton values v ih =>
    rw [drawdownLoop, List.zipIdx_append, List.foldl_append, Nat.zero_add]
    exact step_follows hinitial ih v

end DrawdownState

theorem mem_search {values : List ℚ} {t r : ℕ} :
    r ∈ List.range' (t + 1) (values.length - (t + 1)) ↔ t < r ∧ r < values.length := by
  rw [List.mem_range'_1]
  omega

theorem firstReaching_eq_some {initial : ℚ} {values : List ℚ} {t r : ℕ}
    (h : firstReaching values (topAt initial values t) (t + 1) = some r) :
    Recovers initial values t r ∧ ∀ i < r, ¬ Recovers initial values t i := by
  obtain ⟨hreach, hmem, hbefore⟩ := List.find?_range'_eq_some.mp h
  obtain ⟨hlater, hlt⟩ := mem_search.mp hmem
  refine ⟨⟨hlater, hlt, of_decide_eq_true hreach⟩, ?_⟩
  rintro i hi ⟨hilater, -, hireach⟩
  have hibelow := hbefore i hilater hi
  rw [decide_eq_true hireach] at hibelow
  cases hibelow

theorem firstReaching_eq_none {initial : ℚ} {values : List ℚ} {t r : ℕ}
    (h : firstReaching values (topAt initial values t) (t + 1) = none) :
    ¬ Recovers initial values t r := by
  rintro ⟨hlater, hlt, hreach⟩
  have hbelow := List.find?_eq_none.mp h r (mem_search.mpr ⟨hlater, hlt⟩)
  exact hbelow (decide_eq_true hreach)

theorem getD_of_attainsTop {initial : ℚ} {values : List ℚ} {t p : ℕ}
    (h : AttainsTop initial (values.take (t + 1)) (some p)) :
    p ≤ t ∧ values.getD p 0 = topAt initial values t := by
  have hvalue : (values.take (t + 1))[p]? = some (topAt initial values t) := h
  have hlt : p < t + 1 := by
    have := (List.getElem?_eq_some_iff.mp hvalue).1
    rw [List.length_take] at this
    omega
  rw [List.getElem?_take_of_lt hlt] at hvalue
  exact ⟨Nat.le_of_lt_succ hlt, by rw [List.getD, hvalue, Option.getD_some]⟩

theorem below_iff {initial : ℚ} {values : List ℚ} {n : ℕ} (hn : n ≤ values.length) :
    (∀ v ∈ values.take n, v < initial) ↔ ∀ i < n, values.getD i 0 < initial := by
  rw [List.forall_mem_iff_forall_getElem]
  constructor
  · intro h i hi
    have hlt : i < (values.take n).length := by rw [List.length_take]; omega
    have hbelow := h i hlt
    rw [List.getElem_take] at hbelow
    rw [List.getD_eq_getElem _ _ (hi.trans_le hn)]
    exact hbelow
  · intro h i hi
    rw [List.length_take] at hi
    have hbelow := h i (by omega)
    rw [List.getD_eq_getElem _ _ (by omega)] at hbelow
    rw [List.getElem_take]
    exact hbelow

theorem regainsInitial_of_recovers {initial : ℚ} {values : List ℚ} {t r : ℕ}
    (hfirst : FirstMin (drawdownAt initial values) values.length t)
    (hbelow : ∀ v ∈ values.take (t + 1), v < initial) (h : Recovers initial values t r) :
    RegainsInitial initial values := by
  obtain ⟨-, hr, hreach⟩ := h
  rw [topAt, top_eq_start hbelow] at hreach
  have hexists : ∃ k, k < values.length ∧ initial ≤ values.getD k 0 := ⟨r, hr, hreach⟩
  obtain ⟨hk, hkreach⟩ := Nat.find_spec hexists
  have hbefore : ∀ i < Nat.find hexists, values.getD i 0 < initial := fun i hi =>
    not_le.mp fun hle => Nat.find_min hexists hi ⟨hi.trans hk, hle⟩
  have htk : t < Nat.find hexists := by
    by_contra hle
    have hkbelow := (below_iff hfirst.lt).mp hbelow _ (Nat.lt_succ_of_le (not_lt.mp hle))
    exact absurd hkreach (not_le.mpr hkbelow)
  exact ⟨Nat.find hexists, hk, hkreach, hbefore, t, htk, hfirst.le⟩

theorem DrawdownState.Follows.recoveryIndex_eq {initial : ℚ} {values : List ℚ} {s : DrawdownState}
    {t p : ℕ} (h : s.Follows initial values) (htrough : s.troughIndex = some t)
    (hpeak : s.peakIndex = some p) :
    recoveryIndex values s.peakIndex s.troughIndex =
      firstReaching values (topAt initial values t) (t + 1) := by
  rw [hpeak, htrough, recoveryIndex, (getD_of_attainsTop (hpeak ▸ h.atTrough t htrough)).2]

theorem DrawdownState.Follows.of_regainsInitial {initial : ℚ} {values : List ℚ} {s : DrawdownState}
    (h : s.Follows initial values) (hregains : RegainsInitial initial values) :
    s.peakIndex = none ∧ ∃ t r, s.troughIndex = some t ∧ Recovers initial values t r := by
  obtain ⟨k, hk, hreach, hbefore, j, hj, hmin⟩ := hregains
  cases htrough : s.troughIndex with
  | none =>
    rw [h.empty htrough] at hk
    exact absurd hk (Nat.not_lt_zero k)
  | some t =>
    have hfirst := h.trough t htrough
    have htk : t < k := (hfirst.le_of_le (hmin t hfirst.lt)).trans_lt hj
    have hbelow : ∀ v ∈ values.take (t + 1), v < initial :=
      (below_iff hfirst.lt).mpr fun i hi => hbefore i (by omega)
    refine ⟨?_, t, k, rfl, htk, hk, ?_⟩
    · cases hpeak : s.peakIndex with
      | none => rfl
      | some p =>
        obtain ⟨hpt, hvalue⟩ := getD_of_attainsTop (hpeak ▸ h.atTrough t htrough)
        have hpbelow := hbefore p (by omega)
        rw [hvalue] at hpbelow
        exact absurd (le_top _ _) (not_le.mpr hpbelow)
    · rw [topAt, top_eq_start hbelow]
      exact hreach

theorem recoveryLabel_of_regainsInitial {initial : ℚ} {values : List ℚ} (hinitial : 0 < initial)
    (h : RegainsInitial initial values) (dates : List String) :
    recoveryLabel dates (drawdownDetails values initial) = "NOT RECOVERED" := by
  have hpeak := ((DrawdownState.loop_follows hinitial values).of_regainsInitial h).1
  simp only [recoveryLabel, drawdownDetails, hpeak, recoveryIndex]

/-- The report measures recovery from the peak of the drawdown exactly if the curve does not rise
to the initial equity for the first time after its deepest loss. -/
theorem measuredFromPeak_iff (initial : ℚ) (values : List ℚ) (hinitial : 0 < initial) :
    MeasuredFromPeak initial values (drawdownDetails values initial) ↔
      ¬ RegainsInitial initial values := by
  have hloop := DrawdownState.loop_follows hinitial values
  constructor
  · intro hmeasured hregains
    obtain ⟨hpeak, t, r, htrough, hrecovers⟩ := hloop.of_regainsInitial hregains
    have hnone : (drawdownDetails values initial).recoveryIndex = none := by
      rw [drawdownDetails, hpeak]
      rfl
    exact hmeasured.unrecovered t htrough hnone r hrecovers
  · intro hregains
    refine ⟨hloop.drawdowns, hloop.empty, hloop.trough, ?_, ?_⟩
    · intro t r htrough hrecovery
      cases hpeak : (drawdownLoop values initial).peakIndex with
      | none =>
        rw [drawdownDetails, hpeak] at hrecovery
        cases hrecovery
      | some p =>
        rw [drawdownDetails, hloop.recoveryIndex_eq htrough hpeak] at hrecovery
        exact firstReaching_eq_some hrecovery
    · intro t htrough hrecovery r hrecovers
      cases hpeak : (drawdownLoop values initial).peakIndex with
      | none =>
        have hbelow := hloop.atTrough t htrough
        rw [hpeak] at hbelow
        exact hregains (regainsInitial_of_recovers (hloop.trough t htrough) hbelow hrecovers)
      | some p =>
        rw [drawdownDetails, hloop.recoveryIndex_eq htrough hpeak] at hrecovery
        exact firstReaching_eq_none hrecovery hrecovers

theorem measuredFromPeak_of_dip :
    0 < (100 : ℚ) ∧ (MeasuredFromPeak 100 [120, 60, 130] (drawdownDetails [120, 60, 130] 100) ↔
      ¬ RegainsInitial 100 [120, 60, 130]) :=
  ⟨by decide +kernel, measuredFromPeak_iff 100 [120, 60, 130] (by decide +kernel)⟩

/-- A loss from the initial equity that is made good is reported as not recovered. -/
theorem initial_peak_not_recovered :
    (drawdownDetails [9000, 11000] 10000).troughIndex = some 0 ∧
      (drawdownDetails [9000, 11000] 10000).recoveryIndex = none ∧
      Recovers 10000 [9000, 11000] 0 1 ∧
      ¬ MeasuredFromPeak 10000 [9000, 11000] (drawdownDetails [9000, 11000] 10000) := by
  have htrough : (drawdownDetails [9000, 11000] 10000).troughIndex = some 0 := by decide +kernel
  have hnone : (drawdownDetails [9000, 11000] 10000).recoveryIndex = none := by decide +kernel
  have hrecovers : Recovers 10000 [9000, 11000] 0 1 := by
    refine ⟨by decide, by decide, ?_⟩
    decide +kernel
  exact ⟨htrough, hnone, hrecovers, fun h => h.unrecovered 0 htrough hnone 1 hrecovers⟩

end ChainQuantStudio.Backtesting
