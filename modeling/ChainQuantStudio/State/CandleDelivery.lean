import ChainQuantStudio.State.CandleSlots
import ChainQuantStudio.State.DepthSupervisor

/-!
# Candles through the supervisor

A candle passes the ingestion policy, a gap before it is backfilled over REST, and the event handler
is invoked when the window takes it. A closed candle fails to reach the handler when the backfill
has already stored it or moved past it, and when it arrives late for a place that was skipped.
-/

namespace ChainQuantStudio.State.Candles

open Data OrderBook Run Supervisor

/-- `CANDLE_INTERVAL_DURATIONS`, in microseconds. -/
def intervalDuration (interval : String) : Option ℤ :=
  let minute : ℤ := 60000000
  match interval with
  | "5m" => some (5 * minute)
  | "15m" => some (15 * minute)
  | "1h" => some (60 * minute)
  | "2h" => some (120 * minute)
  | "4h" => some (240 * minute)
  | "1d" => some (1440 * minute)
  | "1w" => some (10080 * minute)
  | _ => none

def unsupportedInterval (interval : String) : Raised :=
  .valueError s!"Unsupported candle interval: {interval}"

/-- `rejection_reason` of a candle. -/
def candleRejectionReason (policy : IngestionPolicy) (event : Candle) :
    Except Raised (Option IngestionRejection) :=
  let metadata := event.metadata
  if metadata.timestampQuality = .receiveOnly then .ok none
  else
    match intervalDuration event.interval with
    | none => .error (unsupportedInterval event.interval)
    | some duration =>
      let sourceAge := totalSeconds (metadata.receivedAt - metadata.exchangeTimestamp)
      let candleAge := policy.maxSourceAgeSeconds + totalSeconds duration
      let allowedAge :=
        if metadata.timestampQuality = .estimated then candleAge * 2 else candleAge
      if allowedAge < sourceAge then .ok (some .sourceTooOld)
      else if sourceAge < -policy.maxFutureSkewSeconds then .ok (some .sourceInFuture)
      else .ok none

/-- The candles of the market state, and what the event handler has been invoked with. -/
structure CandleSupervisor where
  ingestionPolicy : IngestionPolicy
  candles : CandleWindowStore
  handled : List Candle := []

namespace CandleSupervisor

variable (supervisor : CandleSupervisor)

def bars (event : Candle) : List Candle := (supervisor.candles.windows event.key).bars

/-- `fetched` is what `get_candles` returns, absent where the request fails. -/
def backfillCandleGap (event : Candle) (fetched : Option (List Candle)) :
    Except Escaped CandleWindowStore :=
  match supervisor.candles.latest event.key with
  | none => .ok supervisor.candles
  | some previous =>
    match intervalDuration event.interval with
    | none => .error (.raised (unsupportedInterval event.interval))
    | some duration =>
      if event.openTime ≤ previous.openTime + duration then .ok supervisor.candles
      else
        match fetched with
        | none => .error .fetchFailed
        | some candles => .ok (supervisor.candles.applyMany candles)

def processEvent (event : Candle) (fetched : Option (List Candle)) :
    CandleSupervisor × Except Escaped Unit :=
  match candleRejectionReason supervisor.ingestionPolicy event with
  | .error e => (supervisor, .error (.raised e))
  | .ok (some _) => (supervisor, .ok ())
  | .ok none =>
    match supervisor.backfillCandleGap event fetched with
    | .error e => (supervisor, .error e)
    | .ok candles =>
      let (candles, applied) := candles.upsert event
      let handled := if applied then supervisor.handled ++ [event] else supervisor.handled
      ({ supervisor with candles, handled }, .ok ())

/-- An event with the candles that the adapter returns for a gap before it. -/
def step (input : Candle × List Candle) : CandleSupervisor :=
  (supervisor.processEvent input.1 (some input.2)).1

/-- A closed candle that the policy admits, that is not older than every bar of its window and that
is not stored as it is. -/
structure Due (event : Candle) : Prop where
  closed : event.isClosed = true
  admitted : candleRejectionReason supervisor.ingestionPolicy event = .ok none
  recent : supervisor.bars event = [] ∨
    ∃ bar ∈ supervisor.bars event, bar.openTime ≤ event.openTime
  fresh : ∀ bar ∈ supervisor.bars event, isDuplicateClosedCandle bar event = false

def LeavesPlace (maxSize : ℕ) (event : Candle) (candles : List Candle) : Prop :=
  match candles.dropWhile fun candle => candle.openTime < event.openTime with
  | [] => True
  | first :: newer =>
    first.openTime = event.openTime ∧ advances event.openTime newer < maxSize ∧
      settled event.openTime (first :: newer) ≠ some event.values

/-- The event is the first of its window, or the next in line or at the place of a stored bar, or it
follows a gap whose backfill leaves it to be stored. -/
def Reaches (event : Candle) (candles : List Candle) : Prop :=
  match supervisor.candles.latest event.key, intervalDuration event.interval with
  | none, _ => True
  | some _, none => False
  | some previous, some duration =>
    if event.openTime ≤ previous.openTime + duration then
      previous.openTime < event.openTime ∨
        ∃ bar ∈ supervisor.bars event, bar.openTime = event.openTime
    else LeavesPlace supervisor.candles.maxSize event (candles.filter fun c => c.key = event.key)

end CandleSupervisor

variable {maxSize : ℕ} {bars candles : List Candle} {event : Candle}

theorem bars_applyMany (store : CandleWindowStore) (candles : List Candle) (key : Key) :
    ((store.applyMany candles).windows key).bars =
      upsertAll store.maxSize (store.windows key).bars (candles.filter fun c => c.key = key) := by
  induction candles generalizing store with
  | nil => rfl
  | cons candle candles ih =>
    change (((store.upsert candle).1.applyMany candles).windows key).bars = _
    rw [ih]
    by_cases hkey : candle.key = key
    · subst hkey
      rw [List.filter_cons_of_pos (by simp)]
      change upsertAll store.maxSize (Function.update store.windows candle.key _ candle.key).bars _ = _
      rw [Function.update_self]
      rfl
    · rw [List.filter_cons_of_neg (by simpa using hkey)]
      change upsertAll store.maxSize (Function.update store.windows candle.key _ key).bars _ = _
      rw [Function.update_of_ne (Ne.symm hkey)]

theorem accepts_iff (hordered : Ordered bars) (hclosed : event.isClosed = true)
    (hfresh : ∀ bar ∈ bars, isDuplicateClosedCandle bar event = false) :
    (upsertBars maxSize bars event).2 = true ↔
      (∀ bar ∈ bars, bar.openTime < event.openTime) ∨
        ∃ bar ∈ bars, bar.openTime = event.openTime := by
  rw [upsertBars_eq hordered]
  split
  case isTrue hnewer => exact iff_of_true rfl (.inl hnewer)
  case isFalse hnewer =>
    rw [or_iff_right hnewer]
    by_cases hplace : ∃ bar ∈ bars, bar.openTime = event.openTime
    · refine iff_of_true ?_ hplace
      obtain ⟨kept, hkept, htime⟩ := hplace
      obtain ⟨older, newer, rfl⟩ := List.append_of_mem hkept
      have hne : ∀ bar ∈ older, bar.openTime ≠ event.openTime :=
        fun bar hbar => htime ▸ (hordered.split.1 bar hbar).ne
      rw [replaceBar_append hne]
      apply (replaceBar_accepts hclosed htime).mpr
      have hnot := hfresh kept hkept
      unfold closedValues
      unfold isDuplicateClosedCandle at hnot
      cases hk : kept.isClosed with
      | false => simp
      | true => simpa [hk, hclosed] using hnot
    · refine iff_of_false ?_ hplace
      push Not at hplace
      simp [replaceBar_of_forall_ne hplace]

theorem not_accepts_of_past (hordered : Ordered bars) (h : Past bars event.openTime) :
    (upsertBars maxSize bars event).2 ≠ true := by
  obtain ⟨later, hlater, hlt⟩ := h.later
  have hnot : ¬ ∀ bar ∈ bars, bar.openTime < event.openTime :=
    fun hall => absurd (hall later hlater) hlt.not_gt
  rw [upsertBars_eq hordered, if_neg hnot, replaceBar_of_forall_ne h.absent]
  exact Bool.false_ne_true

theorem accepts_of_holdsAt {kept : Candle} {newer : ℕ} {top : Instant} (hordered : Ordered bars)
    (h : HoldsAt bars kept newer top) (htime : kept.openTime = event.openTime)
    (hclosed : event.isClosed = true) :
    (upsertBars maxSize bars event).2 = true ↔ closedValues kept ≠ some event.values := by
  obtain ⟨older, later, rfl, -⟩ := h.split
  have hnot : ¬ ∀ bar ∈ older ++ kept :: later, bar.openTime < event.openTime :=
    fun hall => absurd (hall kept (by simp)) (htime ▸ lt_irrefl _)
  have hne : ∀ bar ∈ older, bar.openTime ≠ event.openTime :=
    fun bar hbar => htime ▸ (hordered.split.1 bar hbar).ne
  rw [upsertBars_eq hordered, if_neg hnot, replaceBar_append hne]
  exact replaceBar_accepts hclosed htime

theorem accepts_upsertAll_iff (hordered : Ordered bars) (hbounded : bars.length ≤ maxSize)
    (hsize : 0 < maxSize) (hclosed : event.isClosed = true)
    (hbefore : ∀ bar ∈ bars, bar.openTime < event.openTime) :
    (upsertBars maxSize (upsertAll maxSize bars candles) event).2 = true ↔
      CandleSupervisor.LeavesPlace maxSize event candles := by
  have hsplit := List.takeWhile_append_dropWhile
    (p := fun candle : Candle => decide (candle.openTime < event.openTime)) (l := candles)
  have holder : ∀ candle ∈ candles.takeWhile fun c => decide (c.openTime < event.openTime),
      candle.openTime < event.openTime := by
    intro candle hc
    simpa using List.all_eq_true.mp List.all_takeWhile candle hc
  generalize candles.takeWhile (fun c => decide (c.openTime < event.openTime)) = older
    at hsplit holder
  have hbars : ∀ bar ∈ upsertAll maxSize bars older, bar.openTime < event.openTime :=
    before_upsertAll hordered hbefore holder
  have hbars_ordered : Ordered (upsertAll maxSize bars older) := ordered_upsertAll hordered
  unfold CandleSupervisor.LeavesPlace
  cases hrest : candles.dropWhile fun candle => decide (candle.openTime < event.openTime) with
  | nil =>
    rw [hrest, List.append_nil] at hsplit
    subst hsplit
    refine iff_of_true ?_ trivial
    rw [upsertBars_eq hbars_ordered, if_pos hbars]
  | cons first newer =>
    rw [hrest] at hsplit
    have hfirst : ¬ first.openTime < event.openTime := by
      have h := List.head?_dropWhile_not
        (fun candle : Candle => decide (candle.openTime < event.openTime)) candles
      simpa [hrest] using h
    have hfirst_ordered : Ordered (upsertBars maxSize (upsertAll maxSize bars older) first).1 :=
      ordered_upsertBars hbars_ordered
    have hfinal : Ordered (upsertAll maxSize
        (upsertBars maxSize (upsertAll maxSize bars older) first).1 newer) :=
      ordered_upsertAll hfirst_ordered
    rw [← hsplit, upsertAll_append]
    change (upsertBars maxSize (upsertAll maxSize
      (upsertBars maxSize (upsertAll maxSize bars older) first).1 newer) event).2 = true ↔ _
    by_cases htime : first.openTime = event.openTime
    · have hholds := holdsAt_of_before hbars_ordered hsize (htime ▸ hbars)
      obtain ⟨hroom, hfull⟩ := HoldsAt.upsertAll newer hholds hfirst_ordered
        (length_upsertBars_le hbars_ordered (length_upsertAll_le hordered hbounded))
      rw [Nat.zero_add, htime] at hroom hfull
      by_cases hlt : advances event.openTime newer < maxSize
      · obtain ⟨kept, top, hkept, hkept_time, hvalues⟩ := hroom hlt
        dsimp only
        rw [settled_cons, if_pos htime, ← hvalues]
        rw [accepts_of_holdsAt hfinal hkept hkept_time hclosed]
        exact ⟨fun h => ⟨htime, hlt, h⟩, fun h => h.2.2⟩
      · refine iff_of_false ?_ fun h => hlt h.2.1
        exact not_accepts_of_past hfinal (hfull hsize (not_lt.mp hlt))
    · refine iff_of_false ?_ fun h => htime h.1
      have hlater : event.openTime < first.openTime :=
        lt_of_le_of_ne (not_lt.mp hfirst) (Ne.symm htime)
      apply not_accepts_of_past hfinal
      exact (past_of_before hbars_ordered hsize hbars hlater).upsertAll hfirst_ordered hsize

theorem maxSize_applyMany (store : CandleWindowStore) (candles : List Candle) :
    (store.applyMany candles).maxSize = store.maxSize := by
  induction candles generalizing store with
  | nil => rfl
  | cons candle candles ih => exact ih (store.upsert candle).1

theorem intervalDuration_pos {interval : String} {duration : ℤ}
    (h : intervalDuration interval = some duration) : 0 < duration := by
  unfold intervalDuration at h
  dsimp only at h
  split at h <;> simp at h <;> omega

namespace CandleSupervisor

variable {supervisor : CandleSupervisor}

theorem handled_of_backfilled {candles : List Candle} {store : CandleWindowStore}
    (hadmitted : candleRejectionReason supervisor.ingestionPolicy event = .ok none)
    (hbackfill : supervisor.backfillCandleGap event (some candles) = .ok store) :
    (supervisor.step (event, candles)).handled = supervisor.handled ++ [event] ↔
      (upsertBars store.maxSize (store.windows event.key).bars event).2 = true := by
  simp only [step, processEvent, hadmitted, hbackfill]
  change (if (upsertBars store.maxSize (store.windows event.key).bars event).2 = true then _
    else _) = _ ↔ _
  split
  case isTrue h => simp [h]
  case isFalse h => simp [h]

theorem handled_iff {candles : List Candle} (hdue : supervisor.Due event) :
    (supervisor.step (event, candles)).handled = supervisor.handled ++ [event] ↔
      supervisor.Reaches event candles := by
  have hordered := (supervisor.candles.windows event.key).ordered
  unfold Reaches
  cases hlatest : supervisor.candles.latest event.key with
  | none =>
    have hbackfill : supervisor.backfillCandleGap event (some candles) = .ok supervisor.candles := by
      simp [backfillCandleGap, hlatest]
    have hempty : (supervisor.candles.windows event.key).bars = [] :=
      List.getLast?_eq_none_iff.mp hlatest
    rw [handled_of_backfilled hdue.admitted hbackfill, hempty]
    exact iff_of_true rfl trivial
  | some previous =>
    have hle := le_getLast_of_ordered hordered hlatest
    have hprevious : previous ∈ supervisor.bars event := List.mem_of_getLast? hlatest
    cases hduration : intervalDuration event.interval with
    | none =>
      have hbackfill : supervisor.backfillCandleGap event (some candles) =
          .error (.raised (unsupportedInterval event.interval)) := by
        simp [backfillCandleGap, hlatest, hduration]
      simp [step, processEvent, hdue.admitted, hbackfill]
    | some duration =>
      dsimp only
      split
      case isTrue hnext =>
        have hbackfill : supervisor.backfillCandleGap event (some candles) =
            .ok supervisor.candles := by
          simp [backfillCandleGap, hlatest, hduration, hnext]
        rw [handled_of_backfilled hdue.admitted hbackfill,
          accepts_iff hordered hdue.closed hdue.fresh]
        apply or_congr_left
        constructor
        · exact fun hall => hall previous hprevious
        · exact fun hlt bar hbar => (hle bar hbar).trans_lt hlt
      case isFalse hgap =>
        have hbackfill : supervisor.backfillCandleGap event (some candles) =
            .ok (supervisor.candles.applyMany candles) := by
          simp [backfillCandleGap, hlatest, hduration, hgap]
        have hpos := intervalDuration_pos hduration
        rw [handled_of_backfilled hdue.admitted hbackfill, bars_applyMany, maxSize_applyMany]
        apply accepts_upsertAll_iff hordered (supervisor.candles.windows event.key).bounded
          supervisor.candles.size_pos hdue.closed
        intro bar hbar
        have hfollows : previous.openTime < event.openTime :=
          (lt_add_of_pos_right _ hpos).trans (not_le.mp hgap)
        exact (hle bar hbar).trans_lt hfollows

/-- Along every run, a due closed candle is handed to the event handler exactly once at each step
exactly when it reaches the window there. -/
theorem due_handled_once_iff (supervisor : CandleSupervisor) (inputs : List (Candle × List Candle)) :
    Guarded step (fun current input => current.Due input.1 →
        (current.step input).handled = current.handled ++ [input.1]) supervisor inputs ↔
      Guarded step (fun current input => current.Due input.1 →
        current.Reaches input.1 input.2) supervisor inputs := by
  constructor
  · apply guarded_mono
    intro current input h hdue
    exact (handled_iff hdue).mp (h hdue)
  · apply guarded_mono
    intro current input h hdue
    exact (handled_iff hdue).mpr (h hdue)

/-! Bars of five minutes; the fourth arrives closed, and the backfill of the two before it returns
it as well. -/

theorem bar_range : max (100 : ℚ) 105 ≤ 110 ∧ (90 : ℚ) ≤ min 100 105 := by norm_num

theorem bar_taker_nonneg (volume : ℚ) (h : none = some volume ∨ none = some volume) :
    0 ≤ volume := by
  simp at h

def fiveMinuteBar (place : ℤ) : Candle where
  metadata :=
    { instrument := btcUsdt .bybit .linearPerpetual
      exchangeTimestamp := place * 300000000
      receivedAt := place * 300000000 }
  interval := "5m"
  openTime := place * 300000000
  closeTime := place * 300000000 + 299999000
  openPrice := 100
  high := 110
  low := 90
  closePrice := 105
  baseVolume := 10
  quoteVolume := some 1000
  isClosed := true
  range := bar_range
  taker_nonneg := bar_taker_nonneg

def warmedSupervisor : CandleSupervisor where
  ingestionPolicy :=
    { age_pos := IngestionPolicy.default_age_pos
      skew_nonneg := IngestionPolicy.default_skew_nonneg }
  candles := { maxSize := 500, windows := fun _ => .empty 500, size_pos := by norm_num }

def gapWithEvent : List (Candle × List Candle) :=
  [(fiveMinuteBar 0, []), (fiveMinuteBar 3, [fiveMinuteBar 1, fiveMinuteBar 2, fiveMinuteBar 3])]

theorem backfilled_candle_not_handled :
    ¬ Guarded step (fun current input => current.Due input.1 →
      (current.step input).handled = current.handled ++ [input.1]) warmedSupervisor gapWithEvent := by
  intro h
  have hdue : (warmedSupervisor.step (fiveMinuteBar 0, [])).Due (fiveMinuteBar 3) := by
    refine ⟨rfl, ?_, .inr ⟨fiveMinuteBar 0, ?_, ?_⟩, ?_⟩
    · decide +kernel
    · decide +kernel
    · decide
    · decide +kernel
  have hlength := congrArg List.length (h.2.1 hdue)
  exact absurd hlength (by decide +kernel)

end CandleSupervisor

end ChainQuantStudio.State.Candles
