import ChainQuantStudio.Signals.Engine
import ChainQuantStudio.State.CandleDelivery
import ChainQuantStudio.State.MarketFrames

/-!
# Live events and their replay

Two drivers hand normalized events to a market state and a signal engine: `process_event` of the
supervisor, which fetches a new book where a delta does not connect, and `SignalReplay.run`, which
has no such branch. What the engine reads of the state and what the definitions return are
parameters; a definition may depend on everything the engine was called with so far.
-/

namespace ChainQuantStudio.Signals

open Data Run State.Candles State.Market State.OrderBook State.Supervisor

variable {settings : UnifiedSettings}

/-- An event that the engine is called with, and the state it finds. -/
abbrev Call (settings : UnifiedSettings) := MarketEvent × UnifiedState settings

/-- How the engine sees the state, and the definitions. -/
structure Surroundings (settings : UnifiedSettings) where
  view : UnifiedState settings → MarketStateView
  evaluate : SignalDefinition → List (Call settings) → Evaluation

structure Session (settings : UnifiedSettings) where
  state : UnifiedState settings
  engine : SignalEngine
  calls : List (Call settings) := []
  accepted : List Signal := []

namespace Session

def new (settings : UnifiedSettings) (registry : SignalRegistry) (policy : SignalPolicy) :
    Session settings where
  state := .new settings
  engine := .new registry policy

variable (session : Session settings) (surroundings : Surroundings settings)

/-- `evaluate_event` at a clock reading, and whether an exception leaves it. -/
def evaluateEvent (event : MarketEvent) (now : Instant) : Session settings × Bool :=
  let calls := session.calls ++ [(event, session.state)]
  let evaluated := session.engine.evaluateEvent (surroundings.view session.state) event now
    fun definition => surroundings.evaluate definition calls
  ({ session with
      engine := evaluated.engine
      calls
      accepted := session.accepted ++ evaluated.accepted },
    evaluated.escaped)

end Session

inductive Failure
  | supervisor (escaped : Escaped)
  | market (raised : Raised)
  | clock (message : String)
  | evaluation
  deriving DecidableEq, Repr

def rejectionReason (policy : IngestionPolicy) :
    MarketEvent → Except Raised (Option IngestionRejection)
  | .candle candle => candleRejectionReason policy candle
  | event => .ok (policy.rejectionReason event.metadata)

/-- An event with what the adapter returns to the requests it causes, absent where they fail. -/
structure Received where
  event : MarketEvent
  candles : Option (List Candle) := none
  book : Option OrderBookSnapshot := none

structure LiveSettings where
  ingestionPolicy : IngestionPolicy
  requiresStreamOrderBookBootstrap : Instrument → Bool

namespace Session

variable (session : Session settings) (surroundings : Surroundings settings)

def applyMany (state : UnifiedState settings) (events : List MarketEvent) : UnifiedState settings :=
  events.foldl (fun state event => (state.apply event).1) state

def backfillCandleGap (state : UnifiedState settings) (event : Candle)
    (fetched : Option (List Candle)) : Except Failure (UnifiedState settings) :=
  match state.candles.latest event.key with
  | none => .ok state
  | some previous =>
    match intervalDuration event.interval with
    | none => .error (.market (unsupportedInterval event.interval))
    | some duration =>
      if event.openTime ≤ previous.openTime + duration then .ok state
      else
        match fetched with
        | none => .error (.supervisor .fetchFailed)
        | some candles => .ok (applyMany state (candles.map .candle))

def handleEvent (event : MarketEvent) : Session settings × Except Failure Unit :=
  let (session, escaped) := session.evaluateEvent surroundings event event.metadata.receivedAt
  (session, if escaped then .error .evaluation else .ok ())

def resyncOrderBook (live : LiveSettings) (instrument : Instrument)
    (fetched : Option OrderBookSnapshot) : Session settings × Except Failure Unit :=
  match fetched with
  | none => (session, .error (.supervisor .fetchFailed))
  | some snapshot =>
    let bridge := live.requiresStreamOrderBookBootstrap instrument
    let (state, outcome) := session.state.applyOrderBookSnapshot snapshot bridge
    let session := { session with state }
    match outcome with
    | .error raised => (session, .error (.market raised))
    | .ok _ =>
      if bridge then (session, .ok ())
      else session.handleEvent surroundings (.snapshot snapshot)

/-- The part of `process_event` behind the backfill. -/
def deliver (live : LiveSettings) (received : Received) : Session settings × Except Failure Unit :=
  let (state, outcome) := session.state.apply received.event
  let session := { session with state }
  match outcome, received.event with
  | .error (.orderBookOutOfSync _), .delta delta =>
    session.resyncOrderBook surroundings live delta.metadata.instrument received.book
  | .error raised, _ => (session, .error (.market raised))
  | .ok true, event => session.handleEvent surroundings event
  | .ok false, _ => (session, .ok ())

/-- `process_event` without stream recycling. -/
def processEvent (live : LiveSettings) (received : Received) :
    Session settings × Except Failure Unit :=
  match rejectionReason live.ingestionPolicy received.event with
  | .error raised => (session, .error (.market raised))
  | .ok (some _) => (session, .ok ())
  | .ok none =>
    match received.event with
    | .candle candle =>
      match backfillCandleGap session.state candle received.candles with
      | .error failure => (session, .error failure)
      | .ok state => { session with state }.deliver surroundings live received
    | _ => session.deliver surroundings live received

/-- The feed goes on behind an event that raises. -/
def liveStep (live : LiveSettings) (session : Session settings) (received : Received) :
    Session settings :=
  (session.processEvent surroundings live received).1

/-- The snapshot that `_resync_order_book` fetches at an event, if it is called. -/
def resyncSnapshot (received : Received) : List MarketEvent :=
  match (session.state.apply received.event).2, received.event with
  | .error (.orderBookOutOfSync _), .delta _ => (received.book.map .snapshot).toList
  | _, _ => []

/-- The events of the live run, each snapshot behind the delta that caused it. -/
def recorded (live : LiveSettings) (session : Session settings) :
    List Received → List MarketEvent
  | [] => []
  | received :: rest =>
    received.event :: session.resyncSnapshot received ++
      recorded live (session.liveStep surroundings live received) rest

end Session

structure ReplayResult where
  eventsSeen : ℕ
  eventsApplied : ℕ
  eventsIgnored : ℕ
  signals : List Signal
  deriving DecidableEq, Repr

def advanceTo (now : Option Instant) (value : Instant) : Except Failure (Option Instant) :=
  if now.any (value < ·) then .error (.clock "Replay clock cannot move backwards")
  else .ok (some value)

structure SignalReplay (settings : UnifiedSettings) where
  session : Session settings
  clock : Option Instant := none
  seen : ℕ := 0
  applied : ℕ := 0
  ignored : ℕ := 0

namespace SignalReplay

variable (surroundings : Surroundings settings)

def step (replay : SignalReplay settings) (event : MarketEvent) :
    Except Failure (SignalReplay settings) := do
  let clock ← advanceTo replay.clock event.metadata.receivedAt
  let (state, outcome) := replay.session.state.apply event
  let session := { replay.session with state }
  let seen := replay.seen + 1
  match outcome with
  | .error raised => .error (.market raised)
  | .ok false => .ok { replay with session, clock, seen, ignored := replay.ignored + 1 }
  | .ok true =>
    let (session, escaped) := session.evaluateEvent surroundings event event.metadata.receivedAt
    if escaped then .error .evaluation
    else .ok { replay with session, clock, seen, applied := replay.applied + 1 }

def run (replay : SignalReplay settings) (events : List MarketEvent) :
    Except Failure ReplayResult := do
  let replay ← events.foldlM (step surroundings) replay
  return ⟨replay.seen, replay.applied, replay.ignored, replay.session.accepted⟩

end SignalReplay

end ChainQuantStudio.Signals
