import ChainQuantStudio.Library.Tallies
import ChainQuantStudio.Signals.Replay
import Mathlib.Data.Finset.Card

/-!
# The whole of `process_event`

Every kind of event goes through one method of the supervisor: the ingestion policy with its counted
rejections and its streaks of stale events, the backfill of a candle gap, the market state, the
resynchronization of a book, and the event handler. The supervisors of depth, of candles and of the
replay each keep a part of it.
-/

namespace ChainQuantStudio.Signals

open Data Run State.Candles State.Market State.OrderBook State.Supervisor Tallies

/-- `type(event)`. -/
inductive EventType
  | ticker
  | candle
  | trade
  | orderBookSnapshot
  | orderBookDelta
  | fundingRate
  | openInterest
  deriving DecidableEq, Repr

namespace EventType

def ofEvent : MarketEvent → EventType
  | .ticker _ => .ticker
  | .candle _ => .candle
  | .trade _ => .trade
  | .snapshot _ => .orderBookSnapshot
  | .delta _ => .orderBookDelta
  | .funding _ => .fundingRate
  | .openInterest _ => .openInterest

/-- `type(event).__name__`. -/
def name : EventType → String
  | .ticker => "Ticker"
  | .candle => "Candle"
  | .trade => "Trade"
  | .orderBookSnapshot => "OrderBookSnapshot"
  | .orderBookDelta => "OrderBookDelta"
  | .fundingRate => "FundingRate"
  | .openInterest => "OpenInterest"

end EventType

structure RejectionKey where
  exchange : Exchange
  symbol : String
  eventType : EventType
  rejection : IngestionRejection
  deriving DecidableEq

abbrev StaleKey := Instrument × EventType

structure SupervisorStats where
  eventsReceived : ℕ := 0
  eventsApplied : ℕ := 0
  eventsIgnored : ℕ := 0
  candleGaps : ℕ := 0
  candleBackfills : ℕ := 0
  candlesBackfilled : ℕ := 0
  orderBookGaps : ℕ := 0
  orderBookResyncs : ℕ := 0
  eventsRejectedSourceAge : ℕ := 0
  eventsRejectedFutureSkew : ℕ := 0
  staleStreamRecycles : ℕ := 0
  orderBookOnlyRecoveries : ℕ := 0
  deriving DecidableEq, Repr

/-- The event handler: what a call leaves of it, and whether it raises. -/
abbrev EventHandler (settings : UnifiedSettings) (H : Type) :=
  H → UnifiedState settings → MarketEvent → H × Bool

structure RecycleSettings extends LiveSettings where
  staleStreamRecycleThreshold : ℕ := 100
  threshold_ge : 10 ≤ staleStreamRecycleThreshold

/-- `rejections` holds `_rejection_counts`, the warnings with their counts and the number of
suppressed ones; `handled` is what the handler has been invoked with. -/
structure LiveSupervisor (settings : UnifiedSettings) (H : Type) where
  live : RecycleSettings
  state : UnifiedState settings
  handler : H
  handled : List MarketEvent := []
  stats : SupervisorStats := {}
  rejections : Tally RejectionKey := {}
  consecutiveStaleCounts : StaleKey → ℕ := fun _ => 0
  pendingOrderBookResyncs : Finset Instrument := ∅
  pendingOrderBookGapRecoveries : Finset Instrument := ∅

/-- What leaves `process_event` as an exception, and from where. -/
inductive Interruption
  | policy (raised : Raised)
  | staleStreamBacklog (message : String)
  | backfill (escaped : Escaped)
  | market (raised : Raised)
  | orderBookStreamGap (instrument : Instrument)
  | resync (escaped : Escaped)
  | handler
  deriving DecidableEq, Repr

/-- What `process_event` finds of an event. -/
inductive Verdict
  | applied
  | ignored
  | rejected (rejection : IngestionRejection)
  | gap
  deriving DecidableEq

/-- The statistic that counts a verdict. -/
def Verdict.counted (stats : SupervisorStats) : Verdict → ℕ
  | .applied => stats.eventsApplied
  | .ignored => stats.eventsIgnored
  | .rejected .sourceTooOld => stats.eventsRejectedSourceAge
  | .rejected .sourceInFuture => stats.eventsRejectedFutureSkew
  | .gap => stats.orderBookGaps

def Interruption.undecided : Interruption → Bool
  | .policy _ | .backfill _ | .market _ => true
  | _ => false

/-- `count in {1, 10, 100} or count % 1_000 == 0`. -/
def isNotable (count : ℕ) : Bool := count ∈ [1, 10, 100] || count % 1000 = 0

namespace LiveSupervisor

variable {settings : UnifiedSettings} {H : Type}

section Steps

variable (call : EventHandler settings H) (supervisor : LiveSupervisor settings H)

def rejectionKey (event : MarketEvent) (rejection : IngestionRejection) : RejectionKey where
  exchange := event.metadata.instrument.exchange
  symbol := event.metadata.instrument.canonicalSymbol
  eventType := .ofEvent event
  rejection := rejection

def staleKey (event : MarketEvent) : StaleKey := (event.metadata.instrument, .ofEvent event)

def isRecyclable : MarketEvent → Bool
  | .trade _ | .delta _ => true
  | _ => false

def countRejection (event : MarketEvent) (rejection : IngestionRejection) :
    LiveSupervisor settings H :=
  { supervisor with
    stats :=
      match rejection with
      | .sourceTooOld =>
        { supervisor.stats with
          eventsRejectedSourceAge := supervisor.stats.eventsRejectedSourceAge + 1 }
      | .sourceInFuture =>
        { supervisor.stats with
          eventsRejectedFutureSkew := supervisor.stats.eventsRejectedFutureSkew + 1 }
    rejections := supervisor.rejections.record isNotable (rejectionKey event rejection) }

def reject (event : MarketEvent) (rejection : IngestionRejection)
    (recycleUnhealthyStream : Bool) : LiveSupervisor settings H × Except Interruption Unit :=
  let supervisor := supervisor.countRejection event rejection
  if recycleUnhealthyStream ∧ rejection = .sourceTooOld ∧ isRecyclable event = true then
    let staleCount := supervisor.consecutiveStaleCounts (staleKey event) + 1
    let threshold := supervisor.live.staleStreamRecycleThreshold
    let recount (count : ℕ) : StaleKey → ℕ :=
      Function.update supervisor.consecutiveStaleCounts (staleKey event) count
    if threshold ≤ staleCount then
      ({ supervisor with
          consecutiveStaleCounts := recount 0
          stats := { supervisor.stats with
            staleStreamRecycles := supervisor.stats.staleStreamRecycles + 1 } },
        .error (.staleStreamBacklog
          s!"Stale {(EventType.ofEvent event).name} backlog reached {threshold} events"))
    else ({ supervisor with consecutiveStaleCounts := recount staleCount }, .ok ())
  else (supervisor, .ok ())

def backfillCandleGap (event : Candle) (fetched : Option (List Candle)) :
    LiveSupervisor settings H × Except Escaped Unit :=
  match supervisor.state.candles.latest event.key with
  | none => (supervisor, .ok ())
  | some previous =>
    match intervalDuration event.interval with
    | none => (supervisor, .error (.raised (unsupportedInterval event.interval)))
    | some duration =>
      if event.openTime ≤ previous.openTime + duration then (supervisor, .ok ())
      else
        let stats := { supervisor.stats with candleGaps := supervisor.stats.candleGaps + 1 }
        match fetched with
        | none => ({ supervisor with stats }, .error .fetchFailed)
        | some candles =>
          ({ supervisor with
              state := Session.applyMany supervisor.state (candles.map .candle)
              stats := { stats with
                candleBackfills := stats.candleBackfills + 1
                candlesBackfilled := stats.candlesBackfilled + candles.length } }, .ok ())

def handle (event : MarketEvent) : LiveSupervisor settings H × Bool :=
  let (handler, raises) := call supervisor.handler supervisor.state event
  ({ supervisor with handler, handled := supervisor.handled ++ [event] }, raises)

/-- `get_order_book(instrument)` is there and `is_synchronized`. -/
def isSynchronized (instrument : Instrument) : Bool :=
  (supervisor.state.books.depth.orderBooks instrument).any (·.isSynchronized)

def recordOrderBookBridge (instrument : Instrument) : LiveSupervisor settings H :=
  if supervisor.isSynchronized instrument = true ∧
      instrument ∈ supervisor.pendingOrderBookResyncs then
    let stats := { supervisor.stats with
      orderBookResyncs := supervisor.stats.orderBookResyncs + 1 }
    let pendingOrderBookResyncs := supervisor.pendingOrderBookResyncs.erase instrument
    if instrument ∈ supervisor.pendingOrderBookGapRecoveries then
      { supervisor with
        pendingOrderBookResyncs
        pendingOrderBookGapRecoveries := supervisor.pendingOrderBookGapRecoveries.erase instrument
        stats := { stats with orderBookOnlyRecoveries := stats.orderBookOnlyRecoveries + 1 } }
    else { supervisor with pendingOrderBookResyncs, stats }
  else supervisor

def resyncOrderBook (instrument : Instrument) (fetched : Option OrderBookSnapshot) :
    LiveSupervisor settings H × Except Interruption Unit :=
  match fetched with
  | none => (supervisor, .error (.resync .fetchFailed))
  | some snapshot =>
    let bridge := supervisor.live.requiresStreamOrderBookBootstrap instrument
    let (state, outcome) := supervisor.state.applyOrderBookSnapshot snapshot bridge
    let supervisor := { supervisor with state }
    match outcome with
    | .error raised => (supervisor, .error (.resync (.raised raised)))
    | .ok _ =>
      if bridge then
        ({ supervisor with
            pendingOrderBookResyncs := insert instrument supervisor.pendingOrderBookResyncs },
          .ok ())
      else
        let (supervisor, raises) := { supervisor with
          stats := { supervisor.stats with
            orderBookResyncs := supervisor.stats.orderBookResyncs + 1 } }.handle call
              (.snapshot snapshot)
        (supervisor, if raises then .error .handler else .ok ())

def applied (event : MarketEvent) (bookWasSynchronized : Bool) :
    LiveSupervisor settings H × Except Interruption Unit :=
  let (supervisor, raises) := { supervisor with
    stats := { supervisor.stats with
      eventsApplied := supervisor.stats.eventsApplied + 1 } }.handle call event
  if raises then (supervisor, .error .handler)
  else
    match event, bookWasSynchronized with
    | .delta delta, false =>
      (supervisor.recordOrderBookBridge delta.metadata.instrument, .ok ())
    | _, _ => (supervisor, .ok ())

/-- The part of `process_event` behind the backfill. -/
def deliver (received : Received) (recycleUnhealthyStream : Bool) :
    LiveSupervisor settings H × Except Interruption Unit :=
  let instrument := received.event.metadata.instrument
  let bookWasSynchronized := supervisor.isSynchronized instrument
  let (state, outcome) := supervisor.state.apply received.event
  let supervisor := { supervisor with state }
  match outcome, received.event with
  | .error (.orderBookOutOfSync _), .delta _ =>
    let supervisor := { supervisor with
      stats := { supervisor.stats with orderBookGaps := supervisor.stats.orderBookGaps + 1 } }
    if recycleUnhealthyStream then (supervisor, .error (.orderBookStreamGap instrument))
    else supervisor.resyncOrderBook call instrument received.book
  | .error raised, _ => (supervisor, .error (.market raised))
  | .ok true, event => supervisor.applied call event bookWasSynchronized
  | .ok false, _ =>
    ({ supervisor with
        stats := { supervisor.stats with eventsIgnored := supervisor.stats.eventsIgnored + 1 } },
      .ok ())

def receive : LiveSupervisor settings H :=
  { supervisor with
    stats := { supervisor.stats with eventsReceived := supervisor.stats.eventsReceived + 1 } }

/-- `_consecutive_stale_counts.pop(key, None)`. -/
def popStale (event : MarketEvent) : LiveSupervisor settings H :=
  { supervisor with
    consecutiveStaleCounts :=
      Function.update supervisor.consecutiveStaleCounts (staleKey event) 0 }

/-- The part of `process_event` behind the ingestion policy. -/
def admitted (received : Received) (recycleUnhealthyStream : Bool) :
    LiveSupervisor settings H × Except Interruption Unit :=
  match received.event with
  | .candle candle =>
    match supervisor.backfillCandleGap candle received.candles with
    | (supervisor, .error escaped) => (supervisor, .error (.backfill escaped))
    | (supervisor, .ok ()) => supervisor.deliver call received recycleUnhealthyStream
  | _ => supervisor.deliver call received recycleUnhealthyStream

def processEvent (received : Received) (recycleUnhealthyStream : Bool) :
    LiveSupervisor settings H × Except Interruption Unit :=
  let supervisor := supervisor.receive
  match rejectionReason supervisor.live.ingestionPolicy received.event with
  | .error raised => (supervisor, .error (.policy raised))
  | .ok (some rejection) => supervisor.reject received.event rejection recycleUnhealthyStream
  | .ok none =>
    (supervisor.popStale received.event).admitted call received recycleUnhealthyStream

/-- What `_consume_forever` does with a gap before it reconnects. -/
def awaitBridge (instrument : Instrument) : LiveSupervisor settings H :=
  { supervisor with
    pendingOrderBookResyncs := insert instrument supervisor.pendingOrderBookResyncs
    pendingOrderBookGapRecoveries := insert instrument supervisor.pendingOrderBookGapRecoveries }

/-- An event, and whether its call recycles an unhealthy stream. -/
abbrev Arrival := Received × Bool

def step (arrival : Arrival) : LiveSupervisor settings H :=
  match supervisor.processEvent call arrival.1 arrival.2 with
  | (supervisor, .error (.orderBookStreamGap instrument)) => supervisor.awaitBridge instrument
  | (supervisor, _) => supervisor

end Steps

section Policy

variable (call : EventHandler settings H) (supervisor : LiveSupervisor settings H)

structure Kept (supervisor after : LiveSupervisor settings H) : Prop where
  live : after.live = supervisor.live
  rejections : after.rejections = supervisor.rejections
  stale : after.consecutiveStaleCounts = supervisor.consecutiveStaleCounts
  received : after.stats.eventsReceived = supervisor.stats.eventsReceived
  sourceAge : after.stats.eventsRejectedSourceAge = supervisor.stats.eventsRejectedSourceAge
  futureSkew : after.stats.eventsRejectedFutureSkew = supervisor.stats.eventsRejectedFutureSkew

variable {supervisor} in
theorem Kept.trans {middle after : LiveSupervisor settings H} (h : Kept supervisor middle)
    (h' : Kept middle after) : Kept supervisor after where
  live := h'.live.trans h.live
  rejections := h'.rejections.trans h.rejections
  stale := h'.stale.trans h.stale
  received := h'.received.trans h.received
  sourceAge := h'.sourceAge.trans h.sourceAge
  futureSkew := h'.futureSkew.trans h.futureSkew

theorem kept_recordOrderBookBridge (instrument : Instrument) :
    Kept supervisor (supervisor.recordOrderBookBridge instrument) := by
  unfold recordOrderBookBridge
  dsimp only
  split_ifs <;> exact ⟨rfl, rfl, rfl, rfl, rfl, rfl⟩

theorem kept_resyncOrderBook (instrument : Instrument) (fetched : Option OrderBookSnapshot) :
    Kept supervisor (supervisor.resyncOrderBook call instrument fetched).1 := by
  unfold resyncOrderBook
  dsimp only
  split
  · exact ⟨rfl, rfl, rfl, rfl, rfl, rfl⟩
  split
  · exact ⟨rfl, rfl, rfl, rfl, rfl, rfl⟩
  split_ifs <;> exact ⟨rfl, rfl, rfl, rfl, rfl, rfl⟩

theorem kept_applied (event : MarketEvent) (bookWasSynchronized : Bool) :
    Kept supervisor (supervisor.applied call event bookWasSynchronized).1 := by
  unfold applied
  dsimp only
  split
  · exact ⟨rfl, rfl, rfl, rfl, rfl, rfl⟩
  split
  · refine Kept.trans ?_ (kept_recordOrderBookBridge _ _)
    exact ⟨rfl, rfl, rfl, rfl, rfl, rfl⟩
  · exact ⟨rfl, rfl, rfl, rfl, rfl, rfl⟩

theorem kept_deliver (received : Received) (recycle : Bool) :
    Kept supervisor (supervisor.deliver call received recycle).1 := by
  unfold deliver
  dsimp only
  split
  · split
    · exact ⟨rfl, rfl, rfl, rfl, rfl, rfl⟩
    · refine Kept.trans ?_ (kept_resyncOrderBook call _ _ _)
      exact ⟨rfl, rfl, rfl, rfl, rfl, rfl⟩
  · exact ⟨rfl, rfl, rfl, rfl, rfl, rfl⟩
  · refine Kept.trans ?_ (kept_applied call _ _ _)
    exact ⟨rfl, rfl, rfl, rfl, rfl, rfl⟩
  · exact ⟨rfl, rfl, rfl, rfl, rfl, rfl⟩

theorem kept_backfillCandleGap (event : Candle) (fetched : Option (List Candle)) :
    Kept supervisor (supervisor.backfillCandleGap event fetched).1 := by
  unfold backfillCandleGap
  split
  · exact ⟨rfl, rfl, rfl, rfl, rfl, rfl⟩
  split
  · exact ⟨rfl, rfl, rfl, rfl, rfl, rfl⟩
  split
  · exact ⟨rfl, rfl, rfl, rfl, rfl, rfl⟩
  split <;> exact ⟨rfl, rfl, rfl, rfl, rfl, rfl⟩

theorem kept_admitted (received : Received) (recycle : Bool) :
    Kept supervisor (supervisor.admitted call received recycle).1 := by
  unfold admitted
  split
  case h_1 candle heq =>
    have hbackfill := supervisor.kept_backfillCandleGap candle received.candles
    split
    case h_1 after escaped hgap =>
      rw [hgap] at hbackfill
      exact hbackfill
    case h_2 after hgap =>
      rw [hgap] at hbackfill
      exact hbackfill.trans (after.kept_deliver call received recycle)
  case h_2 => exact supervisor.kept_deliver call received recycle

def rejectedAs (policy : IngestionPolicy) (event : MarketEvent) : Option RejectionKey :=
  match rejectionReason policy event with
  | .ok (some rejection) => some (rejectionKey event rejection)
  | _ => none

def mark (policy : IngestionPolicy) (key : StaleKey) (arrival : Arrival) : Mark :=
  if key = staleKey arrival.1.event then
    match rejectionReason policy arrival.1.event with
    | .ok none => .miss
    | .ok (some rejection) =>
      if arrival.2 = true ∧ rejection = .sourceTooOld ∧ isRecyclable arrival.1.event = true then
        .hit
      else .pass
    | .error _ => .pass
  else .pass

structure Policed (supervisor : LiveSupervisor settings H) (arrival : Arrival)
    (after : LiveSupervisor settings H) : Prop where
  live : after.live = supervisor.live
  received : after.stats.eventsReceived = supervisor.stats.eventsReceived + 1
  rejections : after.rejections = run (Tally.record isNotable) supervisor.rejections
    (rejectedAs supervisor.live.ingestionPolicy arrival.1.event).toList
  rejected : after.stats.eventsRejectedSourceAge + after.stats.eventsRejectedFutureSkew =
    supervisor.stats.eventsRejectedSourceAge + supervisor.stats.eventsRejectedFutureSkew +
      (rejectedAs supervisor.live.ingestionPolicy arrival.1.event).toList.length
  stale : ∀ key, after.consecutiveStaleCounts key =
    (mark supervisor.live.ingestionPolicy key arrival).next
      supervisor.live.staleStreamRecycleThreshold (supervisor.consecutiveStaleCounts key)

theorem countRejection_rejected (event : MarketEvent) (rejection : IngestionRejection) :
    let after := supervisor.countRejection event rejection
    after.stats.eventsRejectedSourceAge + after.stats.eventsRejectedFutureSkew =
      supervisor.stats.eventsRejectedSourceAge + supervisor.stats.eventsRejectedFutureSkew + 1 ∧
    after.stats.eventsReceived = supervisor.stats.eventsReceived := by
  cases rejection with
  | sourceTooOld => exact ⟨Nat.add_right_comm _ 1 _, rfl⟩
  | sourceInFuture => exact ⟨rfl, rfl⟩

theorem policed_reject {arrival : Arrival} {rejection : IngestionRejection}
    (h : rejectionReason supervisor.live.ingestionPolicy arrival.1.event = .ok (some rejection)) :
    Policed supervisor arrival
      (supervisor.receive.reject arrival.1.event rejection arrival.2).1 := by
  obtain ⟨hrejected, hreceived⟩ :=
    supervisor.receive.countRejection_rejected arrival.1.event rejection
  have hkey : rejectedAs supervisor.live.ingestionPolicy arrival.1.event =
      some (rejectionKey arrival.1.event rejection) := by
    rw [rejectedAs, h]
  unfold reject
  dsimp only
  split
  case isTrue hcounts =>
    split
    case isTrue hreached =>
      refine ⟨rfl, hreceived, by rw [hkey]; rfl, by rw [hkey]; exact hrejected, fun key => ?_⟩
      by_cases hsame : key = staleKey arrival.1.event
      · simp only [mark, h, if_pos hsame, if_pos hcounts, Mark.next]
        rw [hsame, Function.update_self]
        exact (if_pos hreached).symm
      · simp only [mark, if_neg hsame, Mark.next]
        exact Function.update_of_ne hsame ..
    case isFalse hbelow =>
      refine ⟨rfl, hreceived, by rw [hkey]; rfl, by rw [hkey]; exact hrejected, fun key => ?_⟩
      by_cases hsame : key = staleKey arrival.1.event
      · simp only [mark, h, if_pos hsame, if_pos hcounts, Mark.next]
        rw [hsame, Function.update_self]
        exact (if_neg hbelow).symm
      · simp only [mark, if_neg hsame, Mark.next]
        exact Function.update_of_ne hsame ..
  case isFalse hpasses =>
    refine ⟨rfl, hreceived, by rw [hkey]; rfl, by rw [hkey]; exact hrejected, fun key => ?_⟩
    by_cases hsame : key = staleKey arrival.1.event
    · simp only [mark, h, if_pos hsame, if_neg hpasses, Mark.next]
      rfl
    · simp only [mark, if_neg hsame, Mark.next]
      rfl

theorem policed_processEvent (arrival : Arrival) :
    Policed supervisor arrival (supervisor.processEvent call arrival.1 arrival.2).1 := by
  unfold processEvent
  dsimp only
  split
  case h_1 raised h =>
    have h' : rejectionReason supervisor.live.ingestionPolicy arrival.1.event = .error raised := h
    have hnone : rejectedAs supervisor.live.ingestionPolicy arrival.1.event = none := by
      rw [rejectedAs, h']
    refine ⟨rfl, rfl, by rw [hnone]; rfl, by rw [hnone]; rfl, fun key => ?_⟩
    simp only [mark, h']
    split <;> rfl
  case h_2 rejection h => exact supervisor.policed_reject h
  case h_3 h =>
    have h' : rejectionReason supervisor.live.ingestionPolicy arrival.1.event = .ok none := h
    have hnone : rejectedAs supervisor.live.ingestionPolicy arrival.1.event = none := by
      rw [rejectedAs, h']
    have hkept :=
      (supervisor.receive.popStale arrival.1.event).kept_admitted call arrival.1 arrival.2
    refine ⟨hkept.live, hkept.received, ?_, ?_, fun key => ?_⟩
    · rw [hnone, hkept.rejections]
      rfl
    · rw [hnone, hkept.sourceAge, hkept.futureSkew]
      rfl
    · rw [hkept.stale]
      simp only [mark, h']
      by_cases hsame : key = staleKey arrival.1.event
      · rw [if_pos hsame, hsame]
        exact Function.update_self ..
      · rw [if_neg hsame]
        exact Function.update_of_ne hsame ..

theorem policed_step (arrival : Arrival) :
    Policed supervisor arrival (supervisor.step call arrival) := by
  have h := supervisor.policed_processEvent call arrival
  unfold step
  split
  case h_1 after instrument heq =>
    rw [heq] at h
    exact ⟨h.live, h.received, h.rejections, h.rejected, h.stale⟩
  case h_2 after outcome hother heq =>
    rw [heq] at h
    exact h

end Policy

section Verdicts

variable (call : EventHandler settings H) (supervisor : LiveSupervisor settings H)

def isUndecided : Except Interruption Unit → Bool
  | .error interruption => interruption.undecided
  | .ok () => false

def gapsOf : Except Interruption Unit → ℕ
  | .error (.orderBookStreamGap _) => 1
  | _ => 0

def delivered (event : MarketEvent) : Option Verdict :=
  match (supervisor.state.apply event).2, event with
  | .error (.orderBookOutOfSync _), .delta _ => some .gap
  | .error _, _ => none
  | .ok true, _ => some .applied
  | .ok false, _ => some .ignored

def admittedVerdict (received : Received) : Option Verdict :=
  match received.event with
  | .candle candle =>
    match supervisor.backfillCandleGap candle received.candles with
    | (_, .error _) => none
    | (supervisor, .ok ()) => supervisor.delivered received.event
  | event => supervisor.delivered event

def verdict (received : Received) : Option Verdict :=
  match rejectionReason supervisor.live.ingestionPolicy received.event with
  | .error _ => none
  | .ok (some rejection) => some (.rejected rejection)
  | .ok none => (supervisor.receive.popStale received.event).admittedVerdict received

def resyncedBy (instrument : Instrument) (fetched : Option OrderBookSnapshot) :
    Option OrderBookSnapshot :=
  let bridge := supervisor.live.requiresStreamOrderBookBootstrap instrument
  if bridge = true then none
  else
    fetched.filter fun snapshot =>
      (supervisor.state.applyOrderBookSnapshot snapshot bridge).2.toOption.isSome

def resynchronizing (arrival : Arrival) : Option OrderBookSnapshot :=
  match arrival.1.event with
  | .delta delta =>
    if arrival.2 = true then none
    else
      { supervisor with state := (supervisor.state.apply (.delta delta)).1 }.resyncedBy
        delta.metadata.instrument arrival.1.book
  | _ => none

def handedFor (arrival : Arrival) : Option Verdict → List MarketEvent
  | some .applied => [arrival.1.event]
  | some .gap => ((supervisor.resynchronizing arrival).map .snapshot).toList
  | _ => []

/-- Every resynchronization, counted or pending, answers a gap of its own, and some gaps still
wait for one. -/
structure Answers (supervisor : LiveSupervisor settings H) (waiting : ℕ) : Prop where
  subset : supervisor.pendingOrderBookGapRecoveries ⊆ supervisor.pendingOrderBookResyncs
  resyncs : supervisor.stats.orderBookResyncs + supervisor.pendingOrderBookResyncs.card +
    waiting ≤ supervisor.stats.orderBookGaps
  recoveries : supervisor.stats.orderBookOnlyRecoveries ≤ supervisor.stats.orderBookResyncs

structure Progress (supervisor : LiveSupervisor settings H) (verdicts : List Verdict)
    (handed : List MarketEvent) (waiting waiting' : ℕ) (after : LiveSupervisor settings H) :
    Prop where
  counted : ∀ verdict : Verdict,
    verdict.counted after.stats = verdict.counted supervisor.stats + verdicts.count verdict
  handled : after.handled = supervisor.handled ++ handed
  resyncs : supervisor.stats.eventsApplied + supervisor.stats.orderBookResyncs + handed.length ≤
    after.stats.eventsApplied + after.stats.orderBookResyncs
  answers : Answers supervisor waiting → Answers after waiting'

variable {supervisor}

theorem Progress.trans {middle after : LiveSupervisor settings H} {first second : List MarketEvent}
    {verdicts verdicts' : List Verdict} {waiting waiting' waiting'' : ℕ}
    (h : Progress supervisor verdicts first waiting waiting' middle)
    (h' : Progress middle verdicts' second waiting' waiting'' after) :
    Progress supervisor (verdicts ++ verdicts') (first ++ second) waiting waiting'' after where
  counted verdict := by rw [h'.counted, h.counted, List.count_append, Nat.add_assoc]
  handled := by rw [h'.handled, h.handled, List.append_assoc]
  resyncs := by
    have hfirst := h.resyncs
    have hsecond := h'.resyncs
    rw [List.length_append]
    omega
  answers hanswers := h'.answers (h.answers hanswers)

theorem progress_of_stats {after : LiveSupervisor settings H} {verdicts : List Verdict}
    {waiting : ℕ} (hhandled : after.handled = supervisor.handled)
    (hresyncs : after.pendingOrderBookResyncs = supervisor.pendingOrderBookResyncs)
    (hrecoveries : after.pendingOrderBookGapRecoveries = supervisor.pendingOrderBookGapRecoveries)
    (hcounted : ∀ verdict : Verdict, verdict.counted after.stats =
      verdict.counted supervisor.stats + verdicts.count verdict)
    (happlied : after.stats.eventsApplied = supervisor.stats.eventsApplied)
    (hcounts : after.stats.orderBookResyncs = supervisor.stats.orderBookResyncs ∧
      after.stats.orderBookGaps = supervisor.stats.orderBookGaps ∧
      after.stats.orderBookOnlyRecoveries = supervisor.stats.orderBookOnlyRecoveries) :
    Progress supervisor verdicts [] waiting waiting after := by
  obtain ⟨hresynced, hgaps, honly⟩ := hcounts
  refine ⟨hcounted, by rw [hhandled, List.append_nil], ?_, fun hanswers => ⟨?_, ?_, ?_⟩⟩
  · rw [happlied, hresynced]
    rfl
  · rw [hresyncs, hrecoveries]
    exact hanswers.subset
  · rw [hresyncs, hresynced, hgaps]
    exact hanswers.resyncs
  · rw [hresynced, honly]
    exact hanswers.recoveries

theorem counted_succ (stats : SupervisorStats) :
    (∀ verdict : Verdict, verdict.counted { stats with eventsApplied := stats.eventsApplied + 1 } =
      verdict.counted stats + [Verdict.applied].count verdict) ∧
    (∀ verdict : Verdict, verdict.counted { stats with eventsIgnored := stats.eventsIgnored + 1 } =
      verdict.counted stats + [Verdict.ignored].count verdict) ∧
    ∀ verdict : Verdict, verdict.counted { stats with orderBookGaps := stats.orderBookGaps + 1 } =
      verdict.counted stats + [Verdict.gap].count verdict := by
  refine ⟨?_, ?_, ?_⟩ <;> rintro (_ | _ | (_ | _) | _) <;> rfl

theorem counted_congr {stats stats' : SupervisorStats}
    (happlied : stats'.eventsApplied = stats.eventsApplied)
    (hignored : stats'.eventsIgnored = stats.eventsIgnored)
    (hsourceAge : stats'.eventsRejectedSourceAge = stats.eventsRejectedSourceAge)
    (hfutureSkew : stats'.eventsRejectedFutureSkew = stats.eventsRejectedFutureSkew)
    (hgaps : stats'.orderBookGaps = stats.orderBookGaps) (verdict : Verdict) :
    verdict.counted stats' = verdict.counted stats := by
  rcases verdict with _ | _ | (_ | _) | _ <;> assumption

theorem Answers.mono {waiting waiting' : ℕ} (h : Answers supervisor waiting)
    (hle : waiting' ≤ waiting) : Answers supervisor waiting' :=
  ⟨h.subset, (Nat.add_le_add_left hle _).trans h.resyncs, h.recoveries⟩

variable (supervisor)

theorem progress_recordOrderBookBridge (instrument : Instrument) (waiting : ℕ) :
    Progress supervisor [] [] waiting waiting (supervisor.recordOrderBookBridge instrument) := by
  unfold recordOrderBookBridge
  dsimp only
  split_ifs with hbridged hgap
  · have hcard := Finset.card_erase_add_one hbridged.2
    refine ⟨fun _ => ?_, (List.append_nil _).symm, ?_,
      fun hanswers => ⟨Finset.erase_subset_erase _ hanswers.subset, ?_, ?_⟩⟩
    · exact counted_congr rfl rfl rfl rfl rfl _
    · dsimp only [List.length_nil]
      omega
    · have := hanswers.resyncs
      dsimp only
      omega
    · have := hanswers.recoveries
      dsimp only
      omega
  · have hcard := Finset.card_erase_add_one hbridged.2
    refine ⟨fun _ => ?_, (List.append_nil _).symm, ?_,
      fun hanswers => ⟨Finset.subset_erase.mpr ⟨hanswers.subset, hgap⟩, ?_, ?_⟩⟩
    · exact counted_congr rfl rfl rfl rfl rfl _
    · dsimp only [List.length_nil]
      omega
    · have := hanswers.resyncs
      dsimp only
      omega
    · have := hanswers.recoveries
      dsimp only
      omega
  · exact progress_of_stats rfl rfl rfl (fun _ => rfl) rfl ⟨rfl, rfl, rfl⟩

theorem progress_resyncOrderBook (instrument : Instrument) (fetched : Option OrderBookSnapshot)
    (waiting : ℕ) :
    Progress supervisor [] ((supervisor.resyncedBy instrument fetched).map .snapshot).toList
      (waiting + 1) waiting (supervisor.resyncOrderBook call instrument fetched).1 := by
  unfold resyncOrderBook resyncedBy
  dsimp only
  cases fetched with
  | none =>
    simp only [Option.filter_none, ite_self, Option.map_none, Option.toList_none]
    exact ⟨fun _ => rfl, (List.append_nil _).symm, le_rfl,
      fun hanswers => hanswers.mono (Nat.le_succ _)⟩
  | some snapshot =>
    cases hbridge : supervisor.live.requiresStreamOrderBookBootstrap instrument with
    | true =>
      simp only [if_true, Option.map_none, Option.toList_none]
      split
      · exact ⟨fun _ => rfl, (List.append_nil _).symm, le_rfl, fun hanswers =>
          ⟨hanswers.subset, (Nat.le_succ _).trans hanswers.resyncs, hanswers.recoveries⟩⟩
      · refine ⟨fun _ => rfl, (List.append_nil _).symm, le_rfl, fun hanswers =>
          ⟨hanswers.subset.trans (Finset.subset_insert _ _), ?_, hanswers.recoveries⟩⟩
        have hresyncs := hanswers.resyncs
        have hcard := Finset.card_insert_le instrument supervisor.pendingOrderBookResyncs
        dsimp only
        omega
    | false =>
      simp only [Bool.false_eq_true, if_false, Option.filter_some]
      cases houtcome : (supervisor.state.applyOrderBookSnapshot snapshot false).2 with
      | error raised =>
        exact ⟨fun _ => rfl, (List.append_nil _).symm, le_rfl, fun hanswers =>
          ⟨hanswers.subset, (Nat.le_succ _).trans hanswers.resyncs, hanswers.recoveries⟩⟩
      | ok applied =>
        refine ⟨counted_congr rfl rfl rfl rfl rfl, rfl, le_rfl, fun hanswers =>
          ⟨hanswers.subset, ?_, hanswers.recoveries.trans (Nat.le_succ _)⟩⟩
        have hresyncs := hanswers.resyncs
        dsimp only [handle]
        omega

theorem progress_applied (event : MarketEvent) (bookWasSynchronized : Bool) (waiting : ℕ) :
    Progress supervisor [.applied] [event] waiting waiting
      (supervisor.applied call event bookWasSynchronized).1 := by
  have hhandle : Progress supervisor [.applied] [event] waiting waiting
      ({ supervisor with
        stats := { supervisor.stats with
          eventsApplied := supervisor.stats.eventsApplied + 1 } }.handle call event).1 := by
    refine ⟨(counted_succ supervisor.stats).1, rfl, ?_, fun hanswers =>
      ⟨hanswers.subset, hanswers.resyncs, hanswers.recoveries⟩⟩
    dsimp only [handle, List.length_singleton]
    omega
  unfold applied
  dsimp only
  split
  · exact hhandle
  split
  · exact hhandle.trans (progress_recordOrderBookBridge _ _ waiting)
  · exact hhandle

structure Decides (arrival : Arrival) (verdict : Option Verdict)
    (result : LiveSupervisor settings H × Except Interruption Unit) : Prop where
  undecided : isUndecided result.2 = verdict.isNone
  progress : Progress supervisor verdict.toList (supervisor.handedFor arrival verdict) 0
    (gapsOf result.2) result.1

variable {supervisor} in
theorem Decides.after {middle : LiveSupervisor settings H} {arrival : Arrival}
    {verdict : Option Verdict} {result : LiveSupervisor settings H × Except Interruption Unit}
    (h : Decides middle arrival verdict result) (hmiddle : Progress supervisor [] [] 0 0 middle)
    (hsame : middle.handedFor arrival verdict = supervisor.handedFor arrival verdict) :
    Decides supervisor arrival verdict result := by
  refine ⟨h.undecided, ?_⟩
  rw [← hsame]
  exact hmiddle.trans h.progress

theorem resyncOrderBook_outcome (instrument : Instrument) (fetched : Option OrderBookSnapshot) :
    isUndecided (supervisor.resyncOrderBook call instrument fetched).2 = false ∧
      gapsOf (supervisor.resyncOrderBook call instrument fetched).2 = 0 ∧
      ∀ message, (supervisor.resyncOrderBook call instrument fetched).2 ≠
        .error (.staleStreamBacklog message) := by
  unfold resyncOrderBook
  dsimp only
  split
  · exact ⟨rfl, rfl, fun _ h => by cases h⟩
  split
  · exact ⟨rfl, rfl, fun _ h => by cases h⟩
  split
  · exact ⟨rfl, rfl, fun _ h => by cases h⟩
  · split <;> exact ⟨rfl, rfl, fun _ h => by cases h⟩

theorem applied_outcome (event : MarketEvent) (bookWasSynchronized : Bool) :
    isUndecided (supervisor.applied call event bookWasSynchronized).2 = false ∧
      gapsOf (supervisor.applied call event bookWasSynchronized).2 = 0 ∧
      ∀ message, (supervisor.applied call event bookWasSynchronized).2 ≠
        .error (.staleStreamBacklog message) := by
  unfold applied
  dsimp only
  split
  · exact ⟨rfl, rfl, fun _ h => by cases h⟩
  split <;> exact ⟨rfl, rfl, fun _ h => by cases h⟩

/-- A delta that does not connect to the book, with what the market state made of it. -/
theorem gap_decides (arrival : Arrival) {delta : OrderBookDelta} {after : UnifiedState settings}
    (hevent : arrival.1.event = .delta delta)
    (hafter : (supervisor.state.apply arrival.1.event).1 = after) :
    let counted : LiveSupervisor settings H := { supervisor with
      state := after
      stats := { supervisor.stats with orderBookGaps := supervisor.stats.orderBookGaps + 1 } }
    let instrument := arrival.1.event.metadata.instrument
    let result := if arrival.2 = true then (counted, .error (.orderBookStreamGap instrument))
      else counted.resyncOrderBook call instrument arrival.1.book
    Decides supervisor arrival (some .gap) result ∧
      ∀ message, result.2 ≠ .error (.staleStreamBacklog message) := by
  intro counted instrument result
  have hgap : Progress supervisor [.gap] [] 0 1 counted :=
    ⟨(counted_succ supervisor.stats).2.2, (List.append_nil _).symm, le_rfl, fun hanswers =>
      ⟨hanswers.subset, Nat.succ_le_succ hanswers.resyncs, hanswers.recoveries⟩⟩
  cases hrecycle : arrival.2 with
  | true =>
    simp only [result, hrecycle, if_true]
    refine ⟨⟨rfl, ?_⟩, fun _ h => by cases h⟩
    simp only [handedFor, resynchronizing, hevent, hrecycle, if_true]
    exact hgap
  | false =>
    simp only [result, hrecycle, Bool.false_eq_true, if_false]
    obtain ⟨hundecided, hgaps, hunbroken⟩ :=
      counted.resyncOrderBook_outcome call instrument arrival.1.book
    refine ⟨⟨hundecided, ?_⟩, hunbroken⟩
    have hsnapshot : supervisor.resynchronizing arrival =
        counted.resyncedBy instrument arrival.1.book := by
      subst hafter
      simp only [resynchronizing, hevent, hrecycle, Bool.false_eq_true, if_false, resyncedBy,
        counted, instrument]
      rfl
    rw [hgaps, handedFor, hsnapshot]
    exact hgap.trans (counted.progress_resyncOrderBook call instrument arrival.1.book 0)

theorem deliver_decides (arrival : Arrival) :
    Decides supervisor arrival (supervisor.delivered arrival.1.event)
        (supervisor.deliver call arrival.1 arrival.2) ∧
      ∀ message, (supervisor.deliver call arrival.1 arrival.2).2 ≠
        .error (.staleStreamBacklog message) := by
  set taken : LiveSupervisor settings H := { supervisor with
    state := (supervisor.state.apply arrival.1.event).1 } with htaken
  have hstate : Progress supervisor [] [] 0 0 taken :=
    progress_of_stats rfl rfl rfl (fun _ => rfl) rfl ⟨rfl, rfl, rfl⟩
  unfold deliver delivered
  dsimp only
  split
  case h_1 message delta houtcome hevent => exact supervisor.gap_decides call arrival hevent rfl
  case h_2 raised hnot houtcome =>
    exact ⟨⟨rfl, hstate⟩, fun _ h => by cases h⟩
  case h_3 houtcome =>
    obtain ⟨hundecided, hgaps, hunbroken⟩ := taken.applied_outcome call arrival.1.event
      (supervisor.isSynchronized arrival.1.event.metadata.instrument)
    refine ⟨⟨hundecided, ?_⟩, hunbroken⟩
    rw [hgaps]
    exact hstate.trans (taken.progress_applied call arrival.1.event _ 0)
  case h_4 houtcome =>
    refine ⟨⟨rfl, ?_⟩, fun _ h => by cases h⟩
    exact progress_of_stats rfl rfl rfl (counted_succ supervisor.stats).2.1 rfl ⟨rfl, rfl, rfl⟩

theorem progress_backfillCandleGap (event : Candle) (fetched : Option (List Candle)) :
    Progress supervisor [] [] 0 0 (supervisor.backfillCandleGap event fetched).1 := by
  unfold backfillCandleGap
  split
  · exact progress_of_stats rfl rfl rfl (fun _ => rfl) rfl ⟨rfl, rfl, rfl⟩
  split
  · exact progress_of_stats rfl rfl rfl (fun _ => rfl) rfl ⟨rfl, rfl, rfl⟩
  split
  · exact progress_of_stats rfl rfl rfl (fun _ => rfl) rfl ⟨rfl, rfl, rfl⟩
  split
  · exact progress_of_stats rfl rfl rfl (counted_congr rfl rfl rfl rfl rfl) rfl ⟨rfl, rfl, rfl⟩
  · exact progress_of_stats rfl rfl rfl (counted_congr rfl rfl rfl rfl rfl) rfl ⟨rfl, rfl, rfl⟩

theorem admitted_decides (arrival : Arrival) :
    Decides supervisor arrival (supervisor.admittedVerdict arrival.1)
        (supervisor.admitted call arrival.1 arrival.2) ∧
      ∀ message, (supervisor.admitted call arrival.1 arrival.2).2 ≠
        .error (.staleStreamBacklog message) := by
  unfold admitted admittedVerdict
  split
  case h_1 candle hevent =>
    have hbackfill := supervisor.progress_backfillCandleGap candle arrival.1.candles
    -- no snapshot follows a candle, whatever the backfill has left
    have hsame : ∀ (after : LiveSupervisor settings H) (verdict : Option Verdict),
        after.handedFor arrival verdict = supervisor.handedFor arrival verdict := by
      intro after verdict
      rcases verdict with _ | _ | _ | _ | _ <;> simp only [handedFor, resynchronizing, hevent]
    split
    case h_1 after escaped hgap =>
      rw [hgap] at hbackfill
      exact ⟨⟨rfl, hbackfill⟩, fun _ h => by cases h⟩
    case h_2 after hgap =>
      rw [hgap] at hbackfill
      obtain ⟨hdecides, hunbroken⟩ := after.deliver_decides call arrival
      exact ⟨hdecides.after hbackfill (hsame after _), hunbroken⟩
  case h_2 => exact supervisor.deliver_decides call arrival

end Verdicts

section Runs

variable (call : EventHandler settings H)

/-- A supervisor that has received nothing. -/
def start (live : RecycleSettings) (state : UnifiedState settings) (handler : H) :
    LiveSupervisor settings H where
  live := live
  state := state
  handler := handler

theorem length_filter_isNotable (n : ℕ) :
    ((List.range' 1 n).filter isNotable).length ≤ 3 + n / 1000 := by
  have hexact : ((List.range' 1 n).filter isNotable).length =
      (if 1 ≤ n then 1 else 0) + (if 10 ≤ n then 1 else 0) + (if 100 ≤ n then 1 else 0) +
        n / 1000 := by
    induction n with
    | zero => rfl
    | succ n ih =>
      have hlast : 1 + 1 * n = n + 1 := by omega
      rw [List.range'_concat, List.filter_append, List.length_append, ih, hlast]
      by_cases hnotable : isNotable (n + 1) = true
      · rw [List.filter_cons_of_pos hnotable]
        simp only [isNotable, List.mem_cons, List.not_mem_nil, or_false, Bool.or_eq_true,
          decide_eq_true_eq] at hnotable
        simp only [List.filter_nil, List.length_singleton]
        split_ifs <;> omega
      · rw [List.filter_cons_of_neg hnotable]
        simp only [isNotable, List.mem_cons, List.not_mem_nil, or_false, Bool.or_eq_true,
          decide_eq_true_eq] at hnotable
        simp only [List.filter_nil, List.length_nil]
        split_ifs <;> omega
  rw [hexact]
  split_ifs <;> omega

structure Follows (live : RecycleSettings) (arrivals : List Arrival)
    (supervisor : LiveSupervisor settings H) : Prop where
  live_eq : supervisor.live = live
  received : supervisor.stats.eventsReceived = arrivals.length
  rejections : supervisor.rejections = run (Tally.record isNotable) {}
    (arrivals.filterMap fun arrival => rejectedAs live.ingestionPolicy arrival.1.event)
  rejected : supervisor.stats.eventsRejectedSourceAge + supervisor.stats.eventsRejectedFutureSkew =
    (arrivals.filterMap fun arrival => rejectedAs live.ingestionPolicy arrival.1.event).length
  stale : ∀ key, supervisor.consecutiveStaleCounts key =
    Mark.row (arrivals.map (mark live.ingestionPolicy key)) % live.staleStreamRecycleThreshold

variable {call} {live : RecycleSettings} {arrivals : List Arrival}
  {supervisor : LiveSupervisor settings H}

theorem Follows.step (h : Follows live arrivals supervisor) (arrival : Arrival) :
    Follows live (arrivals ++ [arrival]) (supervisor.step call arrival) := by
  have hstep := supervisor.policed_step call arrival
  have hkeys : ((arrivals ++ [arrival]).filterMap fun arrival =>
      rejectedAs live.ingestionPolicy arrival.1.event) =
        (arrivals.filterMap fun arrival => rejectedAs live.ingestionPolicy arrival.1.event) ++
          (rejectedAs live.ingestionPolicy arrival.1.event).toList := by
    rw [List.filterMap_append]
    cases hkey : rejectedAs live.ingestionPolicy arrival.1.event with
    | none => simp [hkey]
    | some key => simp [hkey]
  refine ⟨hstep.live.trans h.live_eq, ?_, ?_, ?_, fun key => ?_⟩
  · rw [hstep.received, h.received, List.length_append, List.length_singleton]
  · rw [hstep.rejections, h.rejections, h.live_eq, hkeys, run_append]
  · rw [hstep.rejected, h.rejected, h.live_eq, hkeys, List.length_append]
  · have hpos : 0 < live.staleStreamRecycleThreshold := by
      have := live.threshold_ge
      omega
    rw [hstep.stale, h.stale, h.live_eq, List.map_append, List.map_singleton]
    exact Mark.next_row hpos _ _

theorem follows_run (live : RecycleSettings) (state : UnifiedState settings) (handler : H)
    (arrivals : List Arrival) :
    Follows live arrivals (run (LiveSupervisor.step call) (start live state handler) arrivals) := by
  induction arrivals using List.reverseRecOn with
  | nil =>
    refine ⟨rfl, rfl, rfl, rfl, fun key => ?_⟩
    rw [List.map_nil]
    exact (Nat.zero_mod _).symm
  | append_singleton arrivals arrival ih =>
    rw [run_append]
    exact ih.step arrival

theorem staleStreamBacklog_iff (arrival : Arrival) :
    (∃ message, (supervisor.processEvent call arrival.1 arrival.2).2 =
        .error (.staleStreamBacklog message)) ↔
      (mark supervisor.live.ingestionPolicy (staleKey arrival.1.event) arrival).trips
        supervisor.live.staleStreamRecycleThreshold
          (supervisor.consecutiveStaleCounts (staleKey arrival.1.event)) = true := by
  unfold processEvent
  dsimp only
  split
  case h_1 raised h =>
    have h' : rejectionReason supervisor.live.ingestionPolicy arrival.1.event = .error raised := h
    simp only [mark, h', if_pos, Mark.trips]
    constructor
    · intro hraises
      obtain ⟨message, hraised⟩ := hraises
      cases hraised
    · intro hfalse
      cases hfalse
  case h_2 rejection h =>
    have h' : rejectionReason supervisor.live.ingestionPolicy arrival.1.event =
      .ok (some rejection) := h
    unfold reject
    simp only [mark, h', if_pos]
    split
    case isTrue hcounts =>
      simp only [Mark.trips, decide_eq_true_eq]
      split
      case isTrue hreached => exact iff_of_true ⟨_, rfl⟩ hreached
      case isFalse hbelow =>
        refine iff_of_false ?_ hbelow
        intro hraises
        obtain ⟨message, hraised⟩ := hraises
        cases hraised
    case isFalse hpasses =>
      constructor
      · intro hraises
        obtain ⟨message, hraised⟩ := hraises
        cases hraised
      · intro hfalse
        cases hfalse
  case h_3 h =>
    have h' : rejectionReason supervisor.live.ingestionPolicy arrival.1.event = .ok none := h
    simp only [mark, h', if_pos, Mark.trips]
    constructor
    · intro hraises
      obtain ⟨message, hraised⟩ := hraises
      exact absurd hraised
        (((supervisor.receive.popStale arrival.1.event).admitted_decides call arrival).2 message)
    · intro hfalse
      cases hfalse

/-- Whatever the state, the requests and the handler do, what the ingestion policy keeps is a
function of the events that arrive: each rejection is counted under its key and warned of at the
notable counts of that key, and a stream is recycled by the stale events that complete a row, since
the last event of their kind and instrument that the policy took. -/
theorem rejections_follow_arrivals (call : EventHandler settings H) (live : RecycleSettings)
    (state : UnifiedState settings) (handler : H) (arrivals : List Arrival) :
    let after := run (LiveSupervisor.step call) (start live state handler) arrivals
    let rejected := arrivals.filterMap fun arrival =>
      rejectedAs live.ingestionPolicy arrival.1.event
    (∀ key, after.rejections.counts key = rejected.count key ∧
      after.rejections.reportsOf key = (List.range' 1 (rejected.count key)).filter isNotable ∧
      (after.rejections.reportsOf key).length ≤ 3 + rejected.count key / 1000) ∧
    after.stats.eventsRejectedSourceAge + after.stats.eventsRejectedFutureSkew =
      rejected.length ∧
    after.rejections.reported.length + after.rejections.suppressed = rejected.length ∧
    ∀ arrival : Arrival,
      (∃ message, (after.processEvent call arrival.1 arrival.2).2 =
          .error (.staleStreamBacklog message)) ↔
        mark live.ingestionPolicy (staleKey arrival.1.event) arrival = .hit ∧
        live.staleStreamRecycleThreshold ∣ Mark.row ((arrivals ++ [arrival]).map
          (mark live.ingestionPolicy (staleKey arrival.1.event))) := by
  intro after rejected
  have h : Follows live arrivals after := follows_run live state handler arrivals
  refine ⟨fun key => ?_, h.rejected, ?_, fun arrival => ?_⟩
  · have hcounts : after.rejections.counts key = rejected.count key := by
      rw [h.rejections, Tally.run_counts]
      exact Nat.zero_add _
    have hreports : after.rejections.reportsOf key =
        (List.range' 1 (rejected.count key)).filter isNotable := by
      rw [← hcounts, h.rejections]
      exact Tally.reporting_empty.run rejected key
    refine ⟨hcounts, hreports, ?_⟩
    rw [hreports]
    exact length_filter_isNotable _
  · rw [h.rejections, Tally.run_total]
    exact Nat.zero_add _
  · have hpos : 0 < live.staleStreamRecycleThreshold := by
      have := live.threshold_ge
      omega
    rw [staleStreamBacklog_iff, h.live_eq, h.stale, Mark.trips_row hpos, List.map_append,
      List.map_singleton]

end Runs

end LiveSupervisor

end ChainQuantStudio.Signals
