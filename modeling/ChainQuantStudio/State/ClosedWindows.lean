import ChainQuantStudio.Library.Consecutive
import ChainQuantStudio.Library.SortedPrefix
import ChainQuantStudio.State.CandleDelivery
import Mathlib.Tactic.Linarith

/-!
# Contiguous windows of closed candles

`contiguousClosedWindow` gives the latest closed candles of a stored window, or none when they are
too few or a bar is missing between them. Seen from the bar that the market is at, a stored bar has
an age in bars; the window of a size is there exactly when the ages of that many closed bars follow
one another from the age of the newest closed bar on.
-/

namespace ChainQuantStudio.State.Candles

open Consecutive Data OrderBook Supervisor

def nonPositiveWindowSize : Raised := .valueError "Candle window size must be positive"

def candleCloseBoundary (duration : ℤ) (candle : Candle) : Instant := candle.openTime + duration

/-- `any(current.open_time - previous.open_time != duration for previous, current in ...)`. -/
def hasGap (duration : ℤ) (window : List Candle) : Bool :=
  (window.zip window.tail).any fun (previous, current) =>
    current.openTime - previous.openTime ≠ duration

def contiguousClosedWindow (candles : List Candle) (interval : String) (size : ℕ)
    (endingAtOrBefore : Option Instant := none) : Except Raised (List Candle) :=
  if size < 1 then .error nonPositiveWindowSize
  else
    match intervalDuration interval with
    | none => .error (unsupportedInterval interval)
    | some duration =>
      let eligible := (candles.filter fun candle =>
        candle.isClosed && candle.interval = interval &&
          endingAtOrBefore.all fun ending =>
            candleCloseBoundary duration candle ≤ ending).insertionSort
              fun a b => a.openTime ≤ b.openTime
      if eligible.length < size then .ok []
      else
        let window := eligible.drop (eligible.length - size)
        if hasGap duration window then .ok [] else .ok window

/-- The window of a size is there and not empty. -/
def HasWindow (bars : List Candle) (interval : String) (size : ℕ) : Prop :=
  ∃ window, contiguousClosedWindow bars interval size = .ok window ∧ window ≠ []

instance (bars : List Candle) (interval : String) (size : ℕ) :
    Decidable (HasWindow bars interval size) :=
  match h : contiguousClosedWindow bars interval size with
  | .error _ => .isFalse fun ⟨_, heq, _⟩ => by simp [h] at heq
  | .ok [] => .isFalse fun ⟨_, heq, hne⟩ => hne (by simpa [h] using heq.symm)
  | .ok (bar :: window) => .isTrue ⟨bar :: window, h, List.cons_ne_nil _ _⟩

variable {bars : List Candle} {interval : String} {size : ℕ} {duration : ℤ}

theorem hasGap_eq_false_iff {window : List Candle} :
    hasGap duration window = false ↔
      window.IsChain fun previous current => current.openTime - previous.openTime = duration := by
  induction window with
  | nil => simp [hasGap]
  | cons previous window ih =>
    cases window with
    | nil => simp [hasGap]
    | cons current window =>
      rw [List.isChain_cons_cons, ← ih]
      simp [hasGap]

theorem hasWindow_iff (hordered : Ordered bars) (hinterval : ∀ bar ∈ bars, bar.interval = interval)
    (hduration : intervalDuration interval = some duration) :
    HasWindow bars interval size ↔
      1 ≤ size ∧ size ≤ (bars.filter Candle.isClosed).length ∧
        ((bars.filter Candle.isClosed).drop
          ((bars.filter Candle.isClosed).length - size)).IsChain
            fun previous current => current.openTime - previous.openTime = duration := by
  have hfilter : (bars.filter fun candle => candle.isClosed && candle.interval = interval &&
      (none : Option Instant).all fun ending => candleCloseBoundary duration candle ≤ ending) =
        bars.filter Candle.isClosed := by
    apply List.filter_congr
    intro bar hbar
    simp [hinterval bar hbar]
  have hclosed : Ordered (bars.filter Candle.isClosed) := hordered.filter _
  have hsort : (bars.filter Candle.isClosed).insertionSort (fun a b => a.openTime ≤ b.openTime) =
      bars.filter Candle.isClosed :=
    List.Pairwise.insertionSort_eq (hclosed.imp fun hlt => hlt.le)
  unfold HasWindow contiguousClosedWindow
  rw [hduration]
  dsimp only
  rw [hfilter, hsort]
  generalize bars.filter Candle.isClosed = closed
  by_cases hsize : size < 1
  · simp only [if_pos hsize]
    refine iff_of_false ?_ (by omega)
    rintro ⟨window, heq, -⟩
    cases heq
  rw [if_neg hsize]
  by_cases hlength : closed.length < size
  · rw [if_pos hlength]
    refine iff_of_false ?_ (by omega)
    rintro ⟨window, heq, hne⟩
    exact hne (Except.ok.inj heq).symm
  rw [if_neg hlength, ← hasGap_eq_false_iff]
  cases hgap : hasGap duration (closed.drop (closed.length - size)) with
  | true => simp
  | false =>
    refine iff_of_true ⟨_, rfl, ?_⟩ ⟨by omega, by omega, rfl⟩
    apply List.ne_nil_of_length_pos
    rw [List.length_drop]
    omega

structure BarClock where
  current : Instant
  duration : ℤ
  duration_pos : 0 < duration

namespace BarClock

variable (clock : BarClock)

def time (age : ℕ) : Instant := clock.current - age * clock.duration

def age (bar : Candle) : ℕ := ((clock.current - bar.openTime) / clock.duration).toNat

def Times (bars : List Candle) : Prop := ∀ bar ∈ bars, bar.openTime = clock.time (clock.age bar)

def HasBar (bars : List Candle) (age : ℕ) : Prop := ∃ bar ∈ bars, bar.openTime = clock.time age

def HasClosed (bars : List Candle) (age : ℕ) : Prop :=
  ∃ bar ∈ bars, bar.openTime = clock.time age ∧ bar.isClosed = true

def NewestClosed (bars : List Candle) (age : ℕ) : Prop :=
  clock.HasClosed bars age ∧ ∀ newer < age, ¬ clock.HasClosed bars newer

variable {clock} {bar : Candle} {older newer : ℕ}

theorem time_lt_iff : clock.time older < clock.time newer ↔ newer < older := by
  have hpos := clock.duration_pos
  unfold time
  constructor
  · intro h
    by_contra hle
    have hmul : (older : ℤ) * clock.duration ≤ newer * clock.duration := by
      apply mul_le_mul_of_nonneg_right _ hpos.le
      omega
    exact absurd h (not_lt.mpr (sub_le_sub_left hmul _))
  · intro h
    have hmul : (newer : ℤ) * clock.duration < older * clock.duration := by
      apply mul_lt_mul_of_pos_right _ hpos
      omega
    exact sub_lt_sub_left hmul _

theorem time_inj : clock.time older = clock.time newer ↔ older = newer := by
  constructor
  · intro h
    rcases lt_trichotomy older newer with hlt | heq | hlt
    · exact absurd h (time_lt_iff.mpr hlt).ne'
    · exact heq
    · exact absurd h (time_lt_iff.mpr hlt).ne
  · rintro rfl
    rfl

theorem age_of_openTime {n : ℕ} (h : bar.openTime = clock.time n) : clock.age bar = n := by
  have hsub : clock.current - bar.openTime = n * clock.duration := by
    rw [h, time]
    exact sub_sub_cancel _ _
  rw [age, hsub, Int.mul_ediv_cancel _ clock.duration_pos.ne']
  rfl

theorem times_iff : clock.Times bars ↔ ∀ bar ∈ bars, ∃ n, bar.openTime = clock.time n := by
  constructor
  · exact fun h bar hbar => ⟨_, h bar hbar⟩
  · intro h bar hbar
    obtain ⟨n, hn⟩ := h bar hbar
    rw [age_of_openTime hn, hn]

theorem hasClosed_iff (htimes : clock.Times bars) {n : ℕ} :
    clock.HasClosed bars n ↔ n ∈ ((bars.filter Candle.isClosed).map clock.age).reverse := by
  simp only [HasClosed, List.mem_reverse, List.mem_map, List.mem_filter]
  constructor
  · rintro ⟨bar, hbar, htime, hclosed⟩
    exact ⟨bar, ⟨hbar, hclosed⟩, age_of_openTime htime⟩
  · rintro ⟨bar, ⟨hbar, hclosed⟩, rfl⟩
    exact ⟨bar, hbar, htimes bar hbar, hclosed⟩

theorem ages_increasing (htimes : clock.Times bars) (hordered : Ordered bars) :
    (bars.map clock.age).reverse.Pairwise (· < ·) := by
  rw [List.pairwise_reverse, List.pairwise_map]
  refine hordered.imp_of_mem fun {a b} ha hb hlt => ?_
  rw [htimes a ha, htimes b hb] at hlt
  exact time_lt_iff.mp hlt

theorem age_succ_iff {previous current : Candle}
    (hp : previous.openTime = clock.time (clock.age previous))
    (hc : current.openTime = clock.time (clock.age current)) :
    clock.age previous = clock.age current + 1 ↔
      current.openTime - previous.openTime = clock.duration := by
  rw [← @time_inj clock, ← hp, hc]
  generalize clock.age current = n
  unfold time
  push_cast
  rw [add_one_mul]
  constructor <;> intro h <;> linarith

theorem isChain_ages (htimes : clock.Times bars) :
    ((bars.map clock.age).reverse.IsChain fun a b => b = a + 1) ↔
      bars.IsChain fun previous current => current.openTime - previous.openTime = clock.duration := by
  rw [List.isChain_reverse, List.isChain_map]
  apply List.IsChain.iff_of_mem_imp
  intro previous current hp hc
  exact age_succ_iff (htimes previous hp) (htimes current hc)

theorem hasWindow_iff_ages (hordered : Ordered bars) (htimes : clock.Times bars)
    (hinterval : ∀ bar ∈ bars, bar.interval = interval)
    (hduration : intervalDuration interval = some clock.duration) :
    HasWindow bars interval size ↔
      1 ≤ size ∧ ∃ newest, clock.NewestClosed bars newest ∧
        ∀ i < size, clock.HasClosed bars (newest + i) := by
  have hincreasing : ((bars.filter Candle.isClosed).map clock.age).reverse.Pairwise (· < ·) :=
    ages_increasing (fun bar hbar => htimes bar (List.mem_of_mem_filter hbar)) (hordered.filter _)
  have htake : ((bars.filter Candle.isClosed).map clock.age).reverse.take size =
      (((bars.filter Candle.isClosed).drop
        ((bars.filter Candle.isClosed).length - size)).map clock.age).reverse := by
    rw [List.take_reverse, List.length_map, List.map_drop]
  have hlength : ((bars.filter Candle.isClosed).map clock.age).reverse.length =
      (bars.filter Candle.isClosed).length := by
    rw [List.length_reverse, List.length_map]
  rw [hasWindow_iff hordered hinterval hduration, ← isChain_ages fun bar hbar =>
    htimes bar (List.mem_of_mem_filter (List.mem_of_mem_drop hbar)), ← htake, ← hlength]
  unfold NewestClosed
  simp only [hasClosed_iff htimes]
  refine and_congr_right fun hsize => ?_
  generalize ((bars.filter Candle.isClosed).map clock.age).reverse = ages at hincreasing
  cases ages with
  | nil =>
    refine iff_of_false (fun h => ?_) ?_
    · have := h.1
      simp at this
      omega
    · rintro ⟨newest, ⟨hmem, -⟩, -⟩
      exact List.not_mem_nil hmem
  | cons first rest =>
    rw [← isChain_take_iff hincreasing]
    have hleast : ∀ age ∈ first :: rest, first ≤ age := by
      intro age hage
      rcases List.mem_cons.mp hage with rfl | hage
      · exact le_rfl
      · exact ((List.pairwise_cons.mp hincreasing).1 age hage).le
    constructor
    · intro h
      refine ⟨first, ⟨List.mem_cons_self, fun newer hlt hmem => ?_⟩, h⟩
      exact absurd (hleast newer hmem) (not_le.mpr hlt)
    · rintro ⟨newest, ⟨hmem, hnone⟩, h⟩
      have heq : newest = first := by
        by_contra hne
        exact hnone first (lt_of_le_of_ne (hleast newest hmem) (Ne.symm hne)) List.mem_cons_self
      rw [← heq]
      rw [← heq] at h
      exact h

end BarClock

end ChainQuantStudio.State.Candles
