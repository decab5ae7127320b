import ChainQuantStudio.Backtesting.GenericEngine
import ChainQuantStudio.Signals.Policy
import Mathlib.Algebra.Order.Floor.Ring
import Mathlib.Algebra.Order.Ring.Star
import Mathlib.Algebra.Order.Star.Basic
import Mathlib.Data.Rat.Star
import Mathlib.Tactic.FieldSimp

/-!
# The cooldown of a backtest and of live signals

The backtest counts bars and asks for one more than the cooldown; the live deduplicator compares
elapsed seconds and accepts at the end of the cooldown. They part where an onset falls on that end.
-/

namespace ChainQuantStudio.Backtesting

open BoundedDeque Data Dsl FloatArith Signals State.Supervisor

inductive Starts (bars : ℤ) (signal : List Bool) : ℕ → Prop
  | first {i : ℕ} (honset : signal[i]? = some true) (hfirst : ∀ j < i, signal[j]? ≠ some true) :
      Starts bars signal i
  | next {i j : ℕ} (hstarts : Starts bars signal i) (hend : i + bars ≤ j)
      (honset : signal[j]? = some true)
      (hfirst : ∀ m : ℕ, i + bars ≤ m → m < j → signal[m]? ≠ some true) : Starts bars signal j

def lastStart (bars : ℤ) (signal : List Bool) : ℕ → ℤ
  | 0 => -bars - 1
  | n + 1 =>
    if signal[n]? = some true ∧ bars ≤ n - lastStart bars signal n then n
    else lastStart bars signal n

section Starts

variable {bars : ℤ} {signal : List Bool}

theorem lastStart_succ_of_not {n : ℕ}
    (h : ¬ (signal[n]? = some true ∧ bars ≤ n - lastStart bars signal n)) :
    lastStart bars signal (n + 1) = lastStart bars signal n := by
  rw [lastStart, if_neg h]

theorem lastStart_of_no_onset {n : ℕ} (h : ∀ j < n, signal[j]? ≠ some true) :
    lastStart bars signal n = -bars - 1 := by
  induction n with
  | zero => rfl
  | succ n ih =>
    rw [lastStart_succ_of_not fun hn => h n (Nat.lt_succ_self n) hn.1]
    exact ih fun j hj => h j (Nat.lt_succ_of_lt hj)

theorem lastStart_of_between {i n : ℕ} (hstart : lastStart bars signal (i + 1) = i)
    (hn : i + 1 ≤ n) (hnone : ∀ m : ℕ, i + bars ≤ m → m < n → signal[m]? ≠ some true) :
    lastStart bars signal n = i := by
  induction n, hn using Nat.le_induction with
  | base => exact hstart
  | succ n hn ih =>
    have hlast := ih fun m hm hmn => hnone m hm (Nat.lt_succ_of_lt hmn)
    rw [lastStart_succ_of_not, hlast]
    rintro ⟨honset, hend⟩
    rw [hlast] at hend
    exact hnone n (by omega) (Nat.lt_succ_self n) honset

theorem Starts.lastStart (hbars : 0 < bars) {i : ℕ} (h : Starts bars signal i) :
    lastStart bars signal (i + 1) = i := by
  induction h with
  | @first i honset hfirst =>
    have hlast := @lastStart_of_no_onset bars signal i hfirst
    rw [Backtesting.lastStart, if_pos ⟨honset, by omega⟩]
  | @next i j hstarts hend honset hfirst ih =>
    have hlast : Backtesting.lastStart bars signal j = i :=
      lastStart_of_between ih (by omega) hfirst
    rw [Backtesting.lastStart, if_pos ⟨honset, by omega⟩]

theorem lastStart_cases (hbars : 0 < bars) (signal : List Bool) (n : ℕ) :
    (lastStart bars signal n = -bars - 1 ∧ ∀ j < n, signal[j]? ≠ some true) ∨
    ∃ i : ℕ, lastStart bars signal n = i ∧ i < n ∧ Starts bars signal i ∧
      ∀ m : ℕ, i + bars ≤ m → m < n → signal[m]? ≠ some true := by
  induction n with
  | zero => exact .inl ⟨rfl, fun j hj => absurd hj (Nat.not_lt_zero j)⟩
  | succ n ih =>
    by_cases htaken : signal[n]? = some true ∧ bars ≤ n - lastStart bars signal n
    · refine .inr ⟨n, by rw [lastStart, if_pos htaken], Nat.lt_succ_self n, ?_, ?_⟩
      · obtain ⟨-, hnone⟩ | ⟨i, hi, -, hstarts, hnone⟩ := ih
        · exact .first htaken.1 hnone
        · rw [hi] at htaken
          exact .next hstarts (by omega) htaken.1 hnone
      · intro m hm hmn
        omega
    · rw [lastStart_succ_of_not htaken]
      obtain ⟨hi, hnone⟩ | ⟨i, hi, hin, hstarts, hnone⟩ := ih
      · refine .inl ⟨hi, fun j hj honset => ?_⟩
        rcases Nat.lt_succ_iff_lt_or_eq.mp hj with hj | rfl
        · exact hnone j hj honset
        · exact htaken ⟨honset, by omega⟩
      · refine .inr ⟨i, hi, Nat.lt_succ_of_lt hin, hstarts, fun m hm hmn honset => ?_⟩
        rcases Nat.lt_succ_iff_lt_or_eq.mp hmn with hmn | rfl
        · exact hnone m hm hmn honset
        · exact htaken ⟨honset, by omega⟩

def NoneAtEnd (bars : ℤ) (signal : List Bool) : Prop :=
  ∀ i : ℕ, Starts bars signal i → ∀ j : ℕ, (j : ℤ) = i + bars → signal[j]? ≠ some true

theorem noneAtEnd_iff (hbars : 0 < bars) :
    NoneAtEnd bars signal ↔
      ∀ n : ℕ, signal[n]? = some true → n - lastStart bars signal n ≠ bars := by
  constructor
  · intro h n honset hend
    obtain ⟨hlast, -⟩ | ⟨i, hi, -, hstarts, -⟩ := lastStart_cases hbars signal n
    · omega
    · exact h i hstarts n (by omega) honset
  · intro h i hstarts j hj honset
    refine h j honset ?_
    rw [lastStart_of_between (hstarts.lastStart hbars) (by omega) (by omega)]
    omega

end Starts

theorem getElem?_of_drop {signal values : List Bool} {value : Bool} {n : ℕ}
    (h : signal.drop n = value :: values) :
    signal[n]? = some value ∧ signal.drop (n + 1) = values := by
  have hhead : (signal.drop n)[0]? = some value := by rw [h]; rfl
  refine ⟨by simpa using hhead, ?_⟩
  rw [← List.tail_drop, h]
  rfl

theorem cooldownFrom_eq_iff {bars : ℤ} {signal : List Bool} (values : List Bool) (n : ℕ)
    (h : signal.drop n = values) :
    cooldownFrom bars (lastStart bars signal n) n values =
        cooldownFrom (bars - 1) (lastStart bars signal n) n values ↔
      ∀ m : ℕ, n ≤ m → signal[m]? = some true → m - lastStart bars signal m ≠ bars := by
  induction values generalizing n with
  | nil =>
    have hlength := List.drop_eq_nil_iff.mp h
    refine iff_of_true rfl fun m hm honset => ?_
    rw [List.getElem?_eq_none (hlength.trans hm)] at honset
    cases honset
  | cons value values ih =>
    obtain ⟨hvalue, hrest⟩ := getElem?_of_drop h
    have hlast : lastStart bars signal (n + 1) =
        if (value && bars - 1 < n - lastStart bars signal n) = true then (n : ℤ)
        else lastStart bars signal n := by
      rw [lastStart, hvalue]
      congr 1
      simp only [Option.some.injEq, Bool.and_eq_true, decide_eq_true_eq, eq_iff_iff,
        and_congr_right_iff]
      omega
    have hcast : ((n + 1 : ℕ) : ℤ) = (n : ℤ) + 1 := by push_cast; ring
    have htail := ih (n + 1) hrest
    rw [hcast, hlast] at htail
    simp only [cooldownFrom, List.cons.injEq]
    constructor
    · rintro ⟨hhead, htails⟩ m hm honset
      rcases Nat.eq_or_lt_of_le hm with rfl | hlt
      · rw [hvalue] at honset
        obtain rfl := Option.some.inj honset
        simp only [Bool.true_and, decide_eq_decide] at hhead
        omega
      · rw [hhead] at htails
        exact htail.mp htails m hlt honset
    · intro hall
      have hhead : (value && decide (bars < n - lastStart bars signal n)) =
          (value && decide (bars - 1 < n - lastStart bars signal n)) := by
        cases value with
        | false => rfl
        | true =>
          have hne := hall n le_rfl hvalue
          simp only [Bool.true_and, decide_eq_decide]
          omega
      refine ⟨hhead, ?_⟩
      rw [hhead]
      exact htail.mpr fun m hm => hall m (Nat.le_of_succ_le hm)

/-- The closes of contiguous bars. -/
def closeTime (first : Instant) (candleSeconds : ℤ) (index : ℕ) : Instant :=
  first + index * (candleSeconds * 1000000)

/-- The deduplicator is given one signal for each onset, at the close of its bar. -/
def acceptOnsets (signals : ℕ → Signal) (close : ℕ → Instant) :
    SignalDeduplicator → ℕ → List Bool → List Bool
  | _, _, [] => []
  | deduplicator, index, value :: values =>
    if value then
      let (deduplicator, accepted) := deduplicator.accept (signals index) (close index)
      accepted :: acceptOnsets signals close deduplicator (index + 1) values
    else false :: acceptOnsets signals close deduplicator (index + 1) values

section Live

variable {cooldownSeconds candleSeconds : ℤ} {first : Instant} {signals : ℕ → Signal}
  {key : String × String} {signal : List Bool}

theorem totalSeconds_closeTime (first : Instant) (candleSeconds : ℤ) (n i : ℕ) :
    totalSeconds (closeTime first candleSeconds n - closeTime first candleSeconds i) =
      ((n : ℤ) - i : ℤ) * (candleSeconds : ℚ) := by
  unfold totalSeconds closeTime
  push_cast
  field_simp
  ring

theorem cooling_closeTime (hcandle : 0 < candleSeconds) {deduplicator : SignalDeduplicator}
    (hcooldown : deduplicator.cooldownSeconds = cooldownSeconds) (n i : ℕ) :
    deduplicator.cooling (closeTime first candleSeconds n)
        (some (closeTime first candleSeconds i)) =
      decide ((n : ℤ) - i < ⌈(cooldownSeconds / candleSeconds : ℚ)⌉) := by
  have hpos : (0 : ℚ) < candleSeconds := by exact_mod_cast hcandle
  simp only [SignalDeduplicator.cooling, Option.any_some, totalSeconds_closeTime, hcooldown,
    decide_eq_decide, Int.lt_ceil]
  rw [lt_div_iff₀ hpos]

def Seen (signals : ℕ → Signal) (signal : List Bool) (n : ℕ)
    (deduplicator : SignalDeduplicator) : Prop :=
  ∀ occurrence ∈ deduplicator.seenOccurrences,
    ∃ i < n, signal[i]? = some true ∧ occurrence = (signals i).occurrenceKey

section Seen

variable {n : ℕ} {deduplicator : SignalDeduplicator}

theorem Seen.skip (h : Seen signals signal n deduplicator) :
    Seen signals signal (n + 1) deduplicator := by
  intro occurrence hmem
  obtain ⟨i, hi, honset⟩ := h occurrence hmem
  exact ⟨i, Nat.lt_succ_of_lt hi, honset⟩

theorem Seen.fresh (h : Seen signals signal n deduplicator)
    (hdistinct : ∀ i j : ℕ, signal[i]? = some true → signal[j]? = some true →
      (signals i).occurrenceKey = (signals j).occurrenceKey → i = j)
    (hvalue : signal[n]? = some true) :
    (signals n).occurrenceKey ∉ deduplicator.seenOccurrences := by
  intro hmem
  obtain ⟨i, hi, honset, hsame⟩ := h _ hmem
  exact absurd (hdistinct n i hvalue honset hsame) (Nat.ne_of_gt hi)

theorem Seen.accept (h : Seen signals signal n deduplicator)
    (hfresh : (signals n).occurrenceKey ∉ deduplicator.seenOccurrences)
    (hvalue : signal[n]? = some true) (now : Instant) :
    Seen signals signal (n + 1) (deduplicator.accept (signals n) now).1 := by
  intro occurrence hmem
  rw [SignalDeduplicator.accept_seenOccurrences hfresh] at hmem
  rcases mem_of_mem_pushBack hmem with hmem | rfl
  · exact h.skip occurrence hmem
  · exact ⟨n, Nat.lt_succ_self n, hvalue, rfl⟩

theorem acceptOnsets_of_zero
    (hdistinct : ∀ i j : ℕ, signal[i]? = some true → signal[j]? = some true →
      (signals i).occurrenceKey = (signals j).occurrenceKey → i = j)
    (close : ℕ → Instant) (values : List Bool) (n : ℕ) (hvalues : signal.drop n = values)
    (deduplicator : SignalDeduplicator) (hzero : deduplicator.cooldownSeconds = 0)
    (h : Seen signals signal n deduplicator) :
    acceptOnsets signals close deduplicator n values = values := by
  induction values generalizing n deduplicator with
  | nil => rfl
  | cons value values ih =>
    obtain ⟨hvalue, hrest⟩ := getElem?_of_drop hvalues
    cases value with
    | false => exact congrArg (false :: ·) (ih (n + 1) hrest deduplicator hzero h.skip)
    | true =>
      have hfresh := h.fresh hdistinct hvalue
      have htail := ih (n + 1) hrest _ (SignalDeduplicator.accept_cooldownSeconds.trans hzero)
        (h.accept hfresh hvalue (close n))
      simp only [acceptOnsets, if_true, SignalDeduplicator.accept_of_zero hzero hfresh, htail]

end Seen

structure Tracks (cooldownSeconds candleSeconds : ℤ) (first : Instant) (signals : ℕ → Signal)
    (key : String × String) (signal : List Bool) (n : ℕ) (deduplicator : SignalDeduplicator) :
    Prop where
  seconds : deduplicator.cooldownSeconds = cooldownSeconds
  last : ∃ last : Option ℕ,
    lastStart ⌈(cooldownSeconds / candleSeconds : ℚ)⌉ signal n =
      (last.map Nat.cast).getD (-⌈(cooldownSeconds / candleSeconds : ℚ)⌉ - 1) ∧
    deduplicator.Remembers key (last.map (closeTime first candleSeconds))
  seen : Seen signals signal n deduplicator

theorem tracks_start (hcooldown : 0 ≤ cooldownSeconds) {capacity : ℕ} (hcapacity : 0 < capacity) :
    Tracks cooldownSeconds candleSeconds first signals key signal 0
      { cooldownSeconds := cooldownSeconds, occurrenceCapacity := capacity
        cooldown_nonneg := by exact_mod_cast hcooldown, capacity_pos := hcapacity } :=
  ⟨rfl, ⟨none, rfl, rfl⟩, fun occurrence hmem => by cases hmem⟩

section Steps

variable {n : ℕ} {deduplicator : SignalDeduplicator}

theorem Tracks.skip
    (h : Tracks cooldownSeconds candleSeconds first signals key signal n deduplicator)
    (hvalue : signal[n]? = some false) :
    Tracks cooldownSeconds candleSeconds first signals key signal (n + 1) deduplicator := by
  obtain ⟨last, hlast, hremembers⟩ := h.last
  refine ⟨h.seconds, ⟨last, ?_, hremembers⟩, h.seen.skip⟩
  rw [lastStart_succ_of_not, hlast]
  rintro ⟨honset, -⟩
  rw [hvalue] at honset
  cases honset

theorem Tracks.accept (hcandle : 0 < candleSeconds) (hcooldown : 0 < cooldownSeconds)
    (hkey : ∀ i, (signals i).key = key)
    (hdistinct : ∀ i j : ℕ, signal[i]? = some true → signal[j]? = some true →
      (signals i).occurrenceKey = (signals j).occurrenceKey → i = j)
    (h : Tracks cooldownSeconds candleSeconds first signals key signal n deduplicator)
    (hvalue : signal[n]? = some true) :
    (deduplicator.accept (signals n) (closeTime first candleSeconds n)).2 =
        decide (⌈(cooldownSeconds / candleSeconds : ℚ)⌉ ≤
          n - lastStart ⌈(cooldownSeconds / candleSeconds : ℚ)⌉ signal n) ∧
      Tracks cooldownSeconds candleSeconds first signals key signal (n + 1)
        (deduplicator.accept (signals n) (closeTime first candleSeconds n)).1 := by
  obtain ⟨last, hlast, hremembers⟩ := h.last
  have hfresh := h.seen.fresh hdistinct hvalue
  have hne : deduplicator.cooldownSeconds ≠ 0 := by
    rw [h.seconds]
    exact_mod_cast hcooldown.ne'
  obtain ⟨haccepted, hnext⟩ := @SignalDeduplicator.accept_spec deduplicator (signals n)
    (closeTime first candleSeconds n) hne hfresh _ (hkey n ▸ hremembers)
  rw [hkey n] at hnext
  have hcooling : deduplicator.cooling (closeTime first candleSeconds n)
      (last.map (closeTime first candleSeconds)) =
        decide (n - lastStart ⌈(cooldownSeconds / candleSeconds : ℚ)⌉ signal n <
          ⌈(cooldownSeconds / candleSeconds : ℚ)⌉) := by
    rw [hlast]
    cases last with
    | none =>
      simp only [Option.map_none, Option.getD_none]
      exact (decide_eq_false (by omega)).symm
    | some i => exact cooling_closeTime hcandle h.seconds n i
  refine ⟨?_, SignalDeduplicator.accept_cooldownSeconds.trans h.seconds, ?_,
    h.seen.accept hfresh hvalue _⟩
  · rw [haccepted, hcooling, ← decide_not, decide_eq_decide, not_lt]
  · rw [hcooling] at hnext
    by_cases hends : ⌈(cooldownSeconds / candleSeconds : ℚ)⌉ ≤
        n - lastStart ⌈(cooldownSeconds / candleSeconds : ℚ)⌉ signal n
    · refine ⟨some n, ?_, ?_⟩
      · rw [lastStart, if_pos ⟨hvalue, hends⟩]
        rfl
      · rwa [decide_eq_false (not_lt.mpr hends), if_neg Bool.false_ne_true] at hnext
    · refine ⟨last, ?_, ?_⟩
      · rw [lastStart_succ_of_not fun htaken => hends htaken.2, hlast]
      · rwa [decide_eq_true (not_le.mp hends), if_pos rfl] at hnext

end Steps

theorem acceptOnsets_eq (hcandle : 0 < candleSeconds) (hcooldown : 0 < cooldownSeconds)
    (hkey : ∀ i, (signals i).key = key)
    (hdistinct : ∀ i j : ℕ, signal[i]? = some true → signal[j]? = some true →
      (signals i).occurrenceKey = (signals j).occurrenceKey → i = j)
    (values : List Bool) (n : ℕ) (hvalues : signal.drop n = values)
    (deduplicator : SignalDeduplicator)
    (h : Tracks cooldownSeconds candleSeconds first signals key signal n deduplicator) :
    acceptOnsets signals (closeTime first candleSeconds) deduplicator n values =
      cooldownFrom (⌈(cooldownSeconds / candleSeconds : ℚ)⌉ - 1)
        (lastStart ⌈(cooldownSeconds / candleSeconds : ℚ)⌉ signal n) n values := by
  induction values generalizing n deduplicator with
  | nil => rfl
  | cons value values ih =>
    obtain ⟨hvalue, hrest⟩ := getElem?_of_drop hvalues
    have hcast : ((n + 1 : ℕ) : ℤ) = (n : ℤ) + 1 := by push_cast; ring
    cases value with
    | false =>
      have htail := ih (n + 1) hrest deduplicator (h.skip hvalue)
      rw [hcast, lastStart_succ_of_not fun htaken => by
        rw [hvalue] at htaken
        cases htaken.1] at htail
      simp [acceptOnsets, cooldownFrom, htail]
    | true =>
      obtain ⟨haccepted, hnext⟩ := h.accept hcandle hcooldown hkey hdistinct hvalue
      have htail := ih (n + 1) hrest _ hnext
      rw [hcast, lastStart] at htail
      simp only [acceptOnsets, if_true, cooldownFrom, haccepted, htail, hvalue, true_and,
        Bool.true_and, Int.sub_one_lt_iff, decide_eq_true_eq]

end Live

variable {F : Type} [FloatArith F]

/-- The two keep the same onsets exactly where there is no cooldown or none of its ends is an
onset. The quotient that the backtest rounds up is taken to round as the exact one does. -/
theorem cooldowns_agree_iff {cooldownSeconds candleSeconds : ℤ} (hcooldown : 0 ≤ cooldownSeconds)
    (hcandle : 0 < candleSeconds)
    (hceil : FloatArith.ceil (ofRat (cooldownSeconds / candleSeconds) : F) =
      some ⌈(cooldownSeconds / candleSeconds : ℚ)⌉)
    (signal : List Bool) (first : Instant) {signals : ℕ → Signal} {key : String × String}
    (hkey : ∀ i, (signals i).key = key)
    (hdistinct : ∀ i j : ℕ, signal[i]? = some true → signal[j]? = some true →
      (signals i).occurrenceKey = (signals j).occurrenceKey → i = j)
    {capacity : ℕ} (hcapacity : 0 < capacity) :
    applyCooldown F signal cooldownSeconds candleSeconds =
      .ok (acceptOnsets signals (closeTime first candleSeconds)
        { cooldownSeconds := cooldownSeconds, occurrenceCapacity := capacity
          cooldown_nonneg := by exact_mod_cast hcooldown, capacity_pos := hcapacity } 0 signal) ↔
      cooldownSeconds = 0 ∨
        NoneAtEnd ⌈(cooldownSeconds / candleSeconds : ℚ)⌉ signal := by
  have hstart := @tracks_start cooldownSeconds candleSeconds first signals key signal hcooldown
    capacity hcapacity
  rcases hcooldown.eq_or_lt with hzero | hpos
  · refine iff_of_true ?_ (.inl hzero.symm)
    rw [applyCooldown, if_pos hzero.symm,
      acceptOnsets_of_zero hdistinct _ signal 0 rfl _ (by simp [← hzero]) hstart.seen]
  · have hbars : 0 < ⌈(cooldownSeconds / candleSeconds : ℚ)⌉ := by
      rw [Int.ceil_pos]
      exact div_pos (by exact_mod_cast hpos) (by exact_mod_cast hcandle)
    have hlive := acceptOnsets_eq hcandle hpos hkey hdistinct signal 0 rfl _ hstart
    have hagree := @cooldownFrom_eq_iff ⌈(cooldownSeconds / candleSeconds : ℚ)⌉ signal signal 0 rfl
    rw [hlive, applyCooldown, if_neg hpos.ne', hceil]
    simp only [Except.ok.injEq]
    rw [or_iff_right hpos.ne', noneAtEnd_iff hbars]
    exact hagree.trans ⟨fun h n => h n (Nat.zero_le n), fun h n _ => h n⟩

def barSignal (index : ℕ) : Signal where
  strategyName := "s"
  strategyVersion := "1"
  canonicalSymbol := "BTC/USDT"
  occurredAt := index
  fingerprint := "f"

theorem cooldowns_agree_iff_of_gap :
    applyCooldown ℚ [true, false, false, true] 600 300 =
      .ok (acceptOnsets
        barSignal (closeTime 0 300)
        { cooldownSeconds := 600, occurrenceCapacity := 1000, cooldown_nonneg := by norm_num
          capacity_pos := by norm_num } 0 [true, false, false, true]) ↔
      (600 : ℤ) = 0 ∨ NoneAtEnd ⌈((600 : ℤ) / (300 : ℤ) : ℚ)⌉ [true, false, false, true] :=
  @cooldowns_agree_iff ℚ _ 600 300 (by norm_num) (by norm_num) rfl [true, false, false, true] 0
    barSignal ("s", "f") (fun _ => rfl)
    (fun i j _ _ h => by simpa [Signal.occurrenceKey, barSignal] using h) 1000 (by norm_num)

/-- Two five-minute onsets ten minutes apart, with a cooldown of ten minutes: the live deduplicator
accepts the second, the backtest does not. -/
theorem cooldowns_part_at_end :
    applyCooldown ℚ (@onset ℚ _ [.bool true, .bool false, .bool true]) 600 300 ≠
      .ok (acceptOnsets
        barSignal (closeTime 0 300)
        { cooldownSeconds := 600, occurrenceCapacity := 1000, cooldown_nonneg := by norm_num
          capacity_pos := by norm_num } 0
        (@onset ℚ _ [.bool true, .bool false, .bool true])) := by
  decide +kernel

end ChainQuantStudio.Backtesting
