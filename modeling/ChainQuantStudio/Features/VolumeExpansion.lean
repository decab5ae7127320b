import ChainQuantStudio.Library.LargestEntries
import ChainQuantStudio.State.ClosedWindows

/-!
# Volume expansion over closed windows

`contiguous_closed_window` gives the latest closed bars up to a limit, or nothing when they are too
few or not evenly spaced; it sees neither the order of its input nor the bars outside the limit.
`volume_expansion_candidate` takes its baseline up to the open time of the bar it judges.
-/

namespace ChainQuantStudio.Features

open Data LargestEntries State.Candles State.OrderBook State.Supervisor
open CandleSupervisor (fiveMinuteBar)

variable {candles others : List Candle} {interval : String} {size : ℕ} {ending : Option Instant}
  {duration : ℤ} {window : List Candle}

/-- What `CandleWindowStore` guarantees of the bars of an instrument. -/
def DistinctOpens (candles : List Candle) : Prop :=
  candles.Pairwise fun a b => a.interval = b.interval → a.openTime ≠ b.openTime

/-- A closed bar of the interval whose close boundary is not past the limit. -/
structure Eligible (interval : String) (ending : Option Instant) (duration : ℤ)
    (candle : Candle) : Prop where
  closed : candle.isClosed = true
  interval_eq : candle.interval = interval
  ends : ∀ limit ∈ ending, candleCloseBoundary duration candle ≤ limit

def eligible (candles : List Candle) (interval : String) (ending : Option Instant)
    (duration : ℤ) : List Candle :=
  candles.filter fun candle =>
    candle.isClosed && candle.interval = interval &&
      ending.all fun limit => candleCloseBoundary duration candle ≤ limit

theorem eligible_test (candle : Candle) :
    (candle.isClosed && candle.interval = interval &&
      ending.all fun limit => candleCloseBoundary duration candle ≤ limit) = true ↔
        Eligible interval ending duration candle := by
  have hall : (ending.all fun limit => candleCloseBoundary duration candle ≤ limit) = true ↔
      ∀ limit ∈ ending, candleCloseBoundary duration candle ≤ limit := by
    cases ending <;> simp
  rw [Bool.and_eq_true, Bool.and_eq_true, hall, decide_eq_true_iff]
  exact ⟨fun h => ⟨h.1.1, h.1.2, h.2⟩, fun h => ⟨⟨h.closed, h.interval_eq⟩, h.ends⟩⟩

theorem mem_eligible {candle : Candle} :
    candle ∈ eligible candles interval ending duration ↔
      candle ∈ candles ∧ Eligible interval ending duration candle := by
  rw [eligible, List.mem_filter, eligible_test]

theorem eligible_opens_ne (h : DistinctOpens candles) :
    (eligible candles interval ending duration).Pairwise fun a b => a.openTime ≠ b.openTime := by
  refine List.Pairwise.imp_of_mem ?_ (h.filter _)
  intro a b ha hb hne
  have ha := (mem_eligible.mp ha).2.interval_eq
  have hb := (mem_eligible.mp hb).2.interval_eq
  exact hne (ha.trans hb.symm)

def EvenlySpaced (duration : ℤ) (window : List Candle) : Prop :=
  window.IsChain fun previous current => current.openTime - previous.openTime = duration

theorem contiguousClosedWindow_eq (hsize : 1 ≤ size)
    (hduration : intervalDuration interval = some duration) :
    contiguousClosedWindow candles interval size ending =
      let bars := eligible candles interval ending duration
      if bars.length < size then .ok []
      else if hasGap duration (largest Candle.openTime bars size) then .ok []
      else .ok (largest Candle.openTime bars size) := by
  unfold contiguousClosedWindow
  rw [if_neg (by omega), hduration]
  dsimp only
  have hlength := List.length_insertionSort (fun a b : Candle => a.openTime ≤ b.openTime)
    (eligible candles interval ending duration)
  change (if (List.insertionSort _ (eligible candles interval ending duration)).length < size
    then _ else _) = _
  rw [hlength]
  rfl

/-- The `size` latest of the eligible bars, in the order of their open times, when there are that
many and they follow one another. -/
structure LatestWindow (candles : List Candle) (interval : String) (size : ℕ)
    (ending : Option Instant) (duration : ℤ) (window : List Candle) : Prop where
  supported : intervalDuration interval = some duration
  positive : 1 ≤ size
  enough : size ≤ (eligible candles interval ending duration).length
  latest : Largest Candle.openTime (eligible candles interval ending duration) size window
  spaced : EvenlySpaced duration window

theorem contiguousClosedWindow_of_unsupported (hsize : 1 ≤ size)
    (h : intervalDuration interval = none) :
    contiguousClosedWindow candles interval size ending =
      .error (unsupportedInterval interval) := by
  unfold contiguousClosedWindow
  rw [if_neg (by omega), h]

theorem contiguousClosedWindow_of_lt (hsize : size < 1) :
    contiguousClosedWindow candles interval size ending = .error nonPositiveWindowSize := by
  unfold contiguousClosedWindow
  rw [if_pos hsize]

theorem contiguousClosedWindow_iff (h : DistinctOpens candles) :
    (contiguousClosedWindow candles interval size ending = .ok window ∧ window ≠ []) ↔
      ∃ duration, LatestWindow candles interval size ending duration window := by
  constructor
  · rintro ⟨hok, hne⟩
    have hsize : 1 ≤ size := by
      by_contra hlt
      rw [contiguousClosedWindow_of_lt (by omega)] at hok
      cases hok
    cases hduration : intervalDuration interval with
    | none =>
      rw [contiguousClosedWindow_of_unsupported hsize hduration] at hok
      cases hok
    | some duration =>
      rw [contiguousClosedWindow_eq hsize hduration] at hok
      dsimp only at hok
      split_ifs at hok with hshort hgap
      · cases hok
        exact absurd rfl hne
      · cases hok
        exact absurd rfl hne
      · have hwindow := Except.ok.inj hok
        refine ⟨duration, hduration, hsize, by omega, ?_, ?_⟩
        · exact (largest_iff (eligible_opens_ne h)).mpr ⟨by omega, hwindow.symm⟩
        · rw [EvenlySpaced, ← hasGap_eq_false_iff, ← hwindow]
          exact Bool.eq_false_of_not_eq_true hgap
  · rintro ⟨duration, hlatest⟩
    have hwindow := ((largest_iff (eligible_opens_ne h)).mp hlatest.latest).2
    have hspaced := hasGap_eq_false_iff.mpr hlatest.spaced
    refine ⟨?_, ?_⟩
    · rw [contiguousClosedWindow_eq hlatest.positive hlatest.supported]
      dsimp only
      rw [← hwindow, if_neg (by have := hlatest.enough; omega), hspaced]
      rfl
    · apply List.ne_nil_of_length_pos
      have hlength := hlatest.latest.length_eq
      have hpos := hlatest.positive
      omega

theorem contiguousClosedWindow_eq_of_eligible (h : DistinctOpens candles)
    (heligible : ∀ duration, intervalDuration interval = some duration →
      (eligible candles interval ending duration).Perm
        (eligible others interval ending duration)) :
    contiguousClosedWindow others interval size ending =
      contiguousClosedWindow candles interval size ending := by
  by_cases hsize : size < 1
  · rw [contiguousClosedWindow_of_lt hsize, contiguousClosedWindow_of_lt hsize]
  have hsize : 1 ≤ size := by omega
  cases hduration : intervalDuration interval with
  | none =>
    rw [contiguousClosedWindow_of_unsupported hsize hduration,
      contiguousClosedWindow_of_unsupported hsize hduration]
  | some duration =>
    have hperm := heligible duration hduration
    rw [contiguousClosedWindow_eq hsize hduration, contiguousClosedWindow_eq hsize hduration]
    dsimp only
    rw [largest_eq_of_perm (eligible_opens_ne h) hperm, hperm.length_eq]

theorem eligible_perm_of_ignored {extra : List Candle} (hperm : others.Perm (candles ++ extra))
    (hextra : ∀ candle ∈ extra, ¬ Eligible interval ending duration candle) :
    (eligible candles interval ending duration).Perm (eligible others interval ending duration) := by
  have hnone : eligible extra interval ending duration = [] := by
    apply List.eq_nil_iff_forall_not_mem.mpr
    intro candle hcandle
    have hmem := mem_eligible.mp hcandle
    exact hextra candle hmem.1 hmem.2
  have hsplit : (eligible others interval ending duration).Perm
      (eligible (candles ++ extra) interval ending duration) := hperm.filter _
  rw [show eligible (candles ++ extra) interval ending duration =
    eligible candles interval ending duration ++ eligible extra interval ending duration from
      List.filter_append _ _, hnone, List.append_nil] at hsplit
  exact hsplit.symm

def invalidExpansionParameters : Raised :=
  .valueError "Volume expansion requires lookback >= 2 and threshold > 1"

/-- `sum((candle.base_volume for candle in baseline), ...) / Decimal(len(baseline))`. -/
def averageVolume (baseline : List Candle) : ℚ :=
  (baseline.map (·.baseVolume)).sum / baseline.length

/-- `interval_duration`. -/
def intervalDurationOf (interval : String) : Except Raised ℤ :=
  match intervalDuration interval with
  | none => .error (unsupportedInterval interval)
  | some duration => .ok duration

/-- `interval or (candles[-1].interval if candles else None)`. -/
def effectiveInterval (candles : List Candle) (interval : Option String) : Option String :=
  match interval with
  | some name => if name = "" then candles.getLast?.map (·.interval) else some name
  | none => candles.getLast?.map (·.interval)

def judgeWindow (relevant : List Candle) (duration : ℤ) (threshold : ℚ) :
    Option (Instant × Bool) :=
  relevant.getLast?.map fun target =>
    let average := averageVolume relevant.dropLast
    (candleCloseBoundary duration target,
      decide (0 < average ∧ threshold ≤ target.baseVolume / average))

def judgeTarget (target : Candle) (duration : ℤ) (baseline : List Candle) (baselineDuration : ℤ)
    (threshold : ℚ) : Instant × Bool :=
  let expected := averageVolume baseline * totalSeconds duration / totalSeconds baselineDuration
  (candleCloseBoundary duration target,
    decide (0 < expected ∧ threshold ≤ target.baseVolume / expected))

def volumeExpansionCandidate (candles : List Candle) (lookback : ℕ) (threshold : ℚ)
    (interval : Option String := none) (baselineInterval : Option String := none)
    (baselineCandles : Option (List Candle) := none) :
    Except Raised (Option (Instant × Bool)) :=
  if lookback < 2 ∨ threshold ≤ 1 then .error invalidExpansionParameters
  else
    match effectiveInterval candles interval with
    | none => .ok none
    | some effective =>
      match baselineInterval with
      | some baselineInterval => do
        let current ← contiguousClosedWindow candles effective 1
        match current.getLast? with
        | none => .ok none
        | some target =>
          let baseline ← contiguousClosedWindow (baselineCandles.getD []) baselineInterval lookback
            (some target.openTime)
          if baseline = [] then .ok none
          else
            let duration ← intervalDurationOf effective
            let baselineDuration ← intervalDurationOf baselineInterval
            .ok (some (judgeTarget target duration baseline baselineDuration threshold))
      | none => do
        let relevant ← contiguousClosedWindow candles effective (lookback + 1)
        if relevant = [] then .ok none
        else
          let duration ← intervalDurationOf effective
          .ok (judgeWindow relevant duration threshold)

/-- The bar that the candidate is about: the latest closed bar of the interval. -/
def IsTarget (candles : List Candle) (interval : Option String) (target : Candle) : Prop :=
  ∃ effective, effectiveInterval candles interval = some effective ∧
    ∃ current, contiguousClosedWindow candles effective 1 = .ok current ∧
      target ∈ current.getLast?

/-- The candle's bar is over only after a time. -/
def ClosesAfter (candle : Candle) (time : Instant) : Prop :=
  ∀ duration, intervalDuration candle.interval = some duration →
    time < candleCloseBoundary duration candle

theorem ClosesAfter.not_eligible {candle : Candle} {time : Instant} (h : ClosesAfter candle time)
    (hduration : intervalDuration interval = some duration) :
    ¬ Eligible interval (some time) duration candle := by
  intro heligible
  have hends := heligible.ends time rfl
  have hafter := h duration (by rw [heligible.interval_eq, hduration])
  exact absurd hends hafter.not_ge

theorem volumeExpansionCandidate_baseline {lookback : ℕ} {threshold : ℚ}
    {interval : Option String} {baseline others : List Candle} {baselineInterval : String}
    {extra : Candle} (h : DistinctOpens baseline) (hperm : others.Perm (baseline ++ [extra]))
    (hextra : ∀ target, IsTarget candles interval target → ClosesAfter extra target.openTime) :
    volumeExpansionCandidate candles lookback threshold interval (some baselineInterval)
        (some others) =
      volumeExpansionCandidate candles lookback threshold interval (some baselineInterval)
        (some baseline) := by
  unfold volumeExpansionCandidate
  split_ifs
  · rfl
  cases heffective : effectiveInterval candles interval with
  | none => rfl
  | some effective =>
    dsimp only [Option.getD_some]
    cases hcurrent : contiguousClosedWindow candles effective 1 with
    | error raised => rfl
    | ok current =>
      simp only [bind, Except.bind]
      cases htarget : current.getLast? with
      | none => rfl
      | some target =>
        have hafter := hextra target ⟨effective, heffective, current, hcurrent, htarget⟩
        have hsame : contiguousClosedWindow others baselineInterval lookback
            (some target.openTime) =
              contiguousClosedWindow baseline baselineInterval lookback (some target.openTime) := by
          refine contiguousClosedWindow_eq_of_eligible h fun duration hduration => ?_
          refine eligible_perm_of_ignored hperm ?_
          simpa using hafter.not_eligible hduration
        dsimp only
        rw [hsame]

theorem contiguousClosedWindow_isOk :
    (∃ window, contiguousClosedWindow candles interval size ending = .ok window) ↔
      1 ≤ size ∧ ∃ duration, intervalDuration interval = some duration := by
  by_cases hsize : size < 1
  · refine iff_of_false ?_ (by omega)
    rintro ⟨window, hok⟩
    rw [contiguousClosedWindow_of_lt hsize] at hok
    cases hok
  have hsize : 1 ≤ size := by omega
  cases hduration : intervalDuration interval with
  | none =>
    refine iff_of_false ?_ (by simp)
    rintro ⟨window, hok⟩
    rw [contiguousClosedWindow_of_unsupported hsize hduration] at hok
    cases hok
  | some duration =>
    refine iff_of_true ?_ ⟨hsize, duration, rfl⟩
    rw [contiguousClosedWindow_eq hsize hduration]
    dsimp only
    split_ifs
    · exact ⟨_, rfl⟩
    · exact ⟨_, rfl⟩
    · exact ⟨_, rfl⟩

/-- The window is the latest one where there is one, whatever the order of the bars and whatever
other bars are among them, and the volume expansion candidate does not see a baseline bar that
closes after its target opens. -/
theorem contiguous_window_exact {candles : List Candle} (h : DistinctOpens candles)
    (interval : String) (size : ℕ) (ending : Option Instant) :
    ((∃ window, contiguousClosedWindow candles interval size ending = .ok window) ↔
      1 ≤ size ∧ ∃ duration, intervalDuration interval = some duration) ∧
    (∀ window, (contiguousClosedWindow candles interval size ending = .ok window ∧ window ≠ []) ↔
      ∃ duration, LatestWindow candles interval size ending duration window) ∧
    (∀ extra others, others.Perm (candles ++ extra) →
      (∀ duration, intervalDuration interval = some duration →
        ∀ candle ∈ extra, ¬ Eligible interval ending duration candle) →
      contiguousClosedWindow others interval size ending =
        contiguousClosedWindow candles interval size ending) ∧
    ∀ current lookback threshold targetInterval extra others, others.Perm (candles ++ [extra]) →
      (∀ target, IsTarget current targetInterval target → ClosesAfter extra target.openTime) →
      volumeExpansionCandidate current lookback threshold targetInterval (some interval)
          (some others) =
        volumeExpansionCandidate current lookback threshold targetInterval (some interval)
          (some candles) := by
  refine ⟨contiguousClosedWindow_isOk, fun window => contiguousClosedWindow_iff h, ?_, ?_⟩
  · intro extra others hperm hextra
    exact contiguousClosedWindow_eq_of_eligible h fun duration hduration =>
      eligible_perm_of_ignored hperm (hextra duration hduration)
  · intro current lookback threshold targetInterval extra others hperm hextra
    exact volumeExpansionCandidate_baseline h hperm hextra

/-- Two bars in the wrong order, and a third that ends after the limit. -/
theorem contiguous_window_exact_unordered :
    contiguousClosedWindow [fiveMinuteBar 1, fiveMinuteBar 2, fiveMinuteBar 0] "5m" 2
        (some 600000000) = .ok [fiveMinuteBar 0, fiveMinuteBar 1] := by
  have hdistinct : DistinctOpens [fiveMinuteBar 0, fiveMinuteBar 1] := by
    simp [DistinctOpens, fiveMinuteBar]
  rw [(contiguous_window_exact hdistinct "5m" 2 (some 600000000)).2.2.1 [fiveMinuteBar 2]
    [fiveMinuteBar 1, fiveMinuteBar 2, fiveMinuteBar 0] (by decide) ?_]
  · decide
  · rintro duration hduration candle hcandle heligible
    cases hduration
    cases List.mem_singleton.mp hcandle
    exact absurd (heligible.ends 600000000 rfl) (by decide)

end ChainQuantStudio.Features
