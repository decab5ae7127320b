import ChainQuantStudio.Signals.Deduplication
import ChainQuantStudio.State.UnifiedMarket

/-!
# The signal engine

`evaluate_event` asks the definitions that an event triggers, in the order of the registry, and
submits what they return to one deduplicator. What a coroutine of a definition does is an input of
the event: it returns values, fails in one of the ways the engine expects, or lets an exception out
of the event.
-/

namespace ChainQuantStudio.Signals

open BoundedDeque Data Run State.Candles State.Market State.OrderBook State.Supervisor

structure SignalRequirements where
  triggerKinds : List DataKind := [.ticker, .candle, .trade, .orderBook, .funding, .openInterest]
  freshData : List DataKind := [.ticker]
  candleHistory : List (String × ℕ) := []
  minimumVenues : ℕ := 1
  triggerCandleIntervals : List String := []
  trigger_nonempty : triggerKinds ≠ [] := by decide
  venues_pos : 0 < minimumVenues := by decide
  history_pos : ∀ entry ∈ candleHistory, 0 < entry.2 := by decide

theorem SignalRequirements.default_history_pos :
    ∀ entry ∈ ([] : List (String × ℕ)), 0 < entry.2 := by
  decide

structure SignalDefinition where
  name : String
  version : String
  requirements : SignalRequirements

/-- The definitions in the order in which they were registered. -/
structure SignalRegistry where
  definitions : List SignalDefinition
  named : ∀ definition ∈ definitions, definition.name ≠ "" ∧ definition.version ≠ ""
  unique : (definitions.map SignalDefinition.name).Nodup

/-- What the engine reads of a `VenueSnapshot`. -/
structure VenueSnapshot where
  instrument : Instrument
  freshness : DataKind → Bool

/-- What the engine asks a `MarketStateView`. -/
structure MarketStateView where
  snapshot : String → Instant → Except Raised (List VenueSnapshot)
  getCandles : Instrument → String → List Candle
  isFresh : Instrument → DataKind → Instant → Bool
  isCandleFresh : Instrument → String → Instant → Except Raised Bool

inductive Value
  | signal (signal : Signal) (expiresAt : Option Instant)
  | other
  deriving DecidableEq, Repr

inductive Evaluation
  | returned (values : List Value)
  | timedOut
  /-- The definition raises an `Exception`. -/
  | failed
  | notSequence
  /-- The returned sequence raises when it is read on. -/
  | broken (values : List Value)
  /-- The definition raises a `BaseException` that is no `Exception`. -/
  | escaped
  deriving DecidableEq, Repr

namespace Evaluation

def values : Evaluation → List Value
  | .returned values | .broken values => values
  | .timedOut | .failed | .notSequence | .escaped => []

/-- An exception leaves `evaluate_event`. -/
def escapes : Evaluation → Bool
  | .broken _ | .escaped => true
  | .returned _ | .timedOut | .failed | .notSequence => false

end Evaluation

structure SignalPolicy where
  cooldownSeconds : ℚ := 0
  maxSignalAgeSeconds : ℚ := 30
  historySize : ℕ := 1000
  cooldown_nonneg : 0 ≤ cooldownSeconds
  age_pos : 0 < maxSignalAgeSeconds
  history_pos : 0 < historySize

namespace SignalPolicy

theorem default_cooldown_nonneg : (0 : ℚ) ≤ 0 := le_rfl

theorem default_age_pos : (0 : ℚ) < 30 := by norm_num

theorem default_history_pos : 0 < 1000 := by decide

end SignalPolicy

structure SignalEngine where
  registry : SignalRegistry
  policy : SignalPolicy
  deduplicator : SignalDeduplicator
  history : List Signal := []

structure Evaluated where
  engine : SignalEngine
  accepted : List Signal
  escaped : Bool

namespace SignalEngine

def new (registry : SignalRegistry) (policy : SignalPolicy) : SignalEngine where
  registry
  policy
  deduplicator := .new policy.cooldownSeconds policy.historySize policy.cooldown_nonneg
    policy.history_pos

def readyVenue (requirements : SignalRequirements) (view : MarketStateView) (now : Instant)
    (venue : VenueSnapshot) : Except Raised Bool :=
  if !requirements.freshData.all venue.freshness then .ok false
  else requirements.candleHistory.allM fun entry =>
    if entry.2 ≤ (view.getCandles venue.instrument entry.1).length then
      view.isCandleFresh venue.instrument entry.1 now
    else .ok false

def isReady (requirements : SignalRequirements) (view : MarketStateView) (event : MarketEvent)
    (now : Instant) : Except Raised Bool :=
  let instrument := event.metadata.instrument
  if !requirements.triggerKinds.contains event.kind then .ok false
  else if !view.isFresh instrument event.kind now then .ok false
  else do
    let venues ← view.snapshot instrument.canonicalSymbol now
    let ready ← venues.filterM (readyVenue requirements view now)
    let readyExchanges := (ready.map fun venue => venue.instrument.exchange).dedup
    return requirements.minimumVenues ≤ readyExchanges.length

/-- A signal that passes, or the text of the `SignalValidationError`. -/
def validateSignal (policy : SignalPolicy) (definition : SignalDefinition) (event : MarketEvent)
    (now : Instant) : Value → Except String Signal
  | .other => .error "Strategy returned a non-Signal value"
  | .signal signal expiresAt =>
    let ageSeconds := totalSeconds (now - signal.occurredAt)
    if signal.strategyName ≠ definition.name ∨ signal.strategyVersion ≠ definition.version then
      .error "Signal strategy identity does not match evaluator"
    else if signal.canonicalSymbol ≠ event.metadata.instrument.canonicalSymbol then
      .error "Signal symbol does not match triggering event"
    else if policy.maxSignalAgeSeconds < ageSeconds then
      .error "Signal is older than the maximum allowed age"
    else if ageSeconds < -5 then .error "Signal occurrence time is too far in the future"
    else if expiresAt.any (· ≤ now) then .error "Signal has expired"
    else .ok signal

def consider (definition : SignalDefinition) (event : MarketEvent) (now : Instant)
    (engine : SignalEngine) : List Value → SignalEngine × List Signal
  | [] => (engine, [])
  | value :: rest =>
    match validateSignal engine.policy definition event now value with
    | .error _ => consider definition event now engine rest
    | .ok signal =>
      let (deduplicator, fresh) := engine.deduplicator.accept signal now
      if fresh then
        let history := pushBack engine.policy.historySize engine.history signal
        let (engine, accepted) :=
          consider definition event now { engine with deduplicator, history } rest
        (engine, signal :: accepted)
      else consider definition event now { engine with deduplicator } rest

def evaluateDefinition (engine : SignalEngine) (view : MarketStateView) (event : MarketEvent)
    (now : Instant) (definition : SignalDefinition) (evaluation : Evaluation) : Evaluated :=
  match isReady definition.requirements view event now with
  | .error _ => ⟨engine, [], true⟩
  | .ok false => ⟨engine, [], false⟩
  | .ok true =>
    let (engine, accepted) := engine.consider definition event now evaluation.values
    ⟨engine, accepted, evaluation.escapes⟩

def evaluateAll (view : MarketStateView) (event : MarketEvent) (now : Instant)
    (evaluate : SignalDefinition → Evaluation) (engine : SignalEngine) :
    List SignalDefinition → Evaluated
  | [] => ⟨engine, [], false⟩
  | definition :: rest =>
    let first := engine.evaluateDefinition view event now definition (evaluate definition)
    if first.escaped then first
    else
      let later := evaluateAll view event now evaluate first.engine rest
      { later with accepted := first.accepted ++ later.accepted }

def triggered (registry : SignalRegistry) (event : MarketEvent) : List SignalDefinition :=
  let definitions := registry.definitions.filter fun definition =>
    definition.requirements.triggerKinds.contains event.kind
  match event with
  | .candle candle =>
    if !candle.isClosed then []
    else definitions.filter fun definition =>
      definition.requirements.triggerCandleIntervals.isEmpty ||
        definition.requirements.triggerCandleIntervals.contains candle.interval
  | _ => definitions

theorem triggered_sublist (registry : SignalRegistry) (event : MarketEvent) :
    (triggered registry event).Sublist registry.definitions := by
  unfold triggered
  cases event with
  | candle candle =>
    dsimp only
    split
    · exact List.nil_sublist _
    · exact List.filter_sublist.trans List.filter_sublist
  | _ => exact List.filter_sublist

def evaluateEvent (engine : SignalEngine) (view : MarketStateView) (event : MarketEvent)
    (now : Instant) (evaluate : SignalDefinition → Evaluation) : Evaluated :=
  evaluateAll view event now evaluate engine (triggered engine.registry event)

end SignalEngine

namespace SignalDeduplicator

/-- The memories after a list of calls. -/
def after (deduplicator : SignalDeduplicator) (submissions : List Submission) :
    SignalDeduplicator :=
  run (fun deduplicator submission => (deduplicator.accept submission.1 submission.2).1)
    deduplicator submissions

@[simp] theorem after_nil (deduplicator : SignalDeduplicator) :
    deduplicator.after [] = deduplicator := rfl

@[simp] theorem after_cons (deduplicator : SignalDeduplicator) (submission : Submission)
    (rest : List Submission) : deduplicator.after (submission :: rest) =
      (deduplicator.accept submission.1 submission.2).1.after rest := rfl

/-- The signals of the calls that are answered with `True`. -/
def acceptedSignals (deduplicator : SignalDeduplicator) (submissions : List Submission) :
    List Signal :=
  ((deduplicator.answers submissions).filter fun answer => answer.2).map fun answer => answer.1.1

@[simp] theorem acceptedSignals_nil (deduplicator : SignalDeduplicator) :
    deduplicator.acceptedSignals [] = [] := rfl

theorem acceptedSignals_cons (deduplicator : SignalDeduplicator) (submission : Submission)
    (rest : List Submission) : deduplicator.acceptedSignals (submission :: rest) =
      (if (deduplicator.accept submission.1 submission.2).2 then [submission.1] else []) ++
        (deduplicator.accept submission.1 submission.2).1.acceptedSignals rest := by
  cases h : (deduplicator.accept submission.1 submission.2).2 <;>
    simp [acceptedSignals, answers, h]

theorem after_append (deduplicator : SignalDeduplicator) (first second : List Submission) :
    deduplicator.after (first ++ second) = (deduplicator.after first).after second :=
  run_append ..

theorem acceptedSignals_append (deduplicator : SignalDeduplicator)
    (first second : List Submission) : deduplicator.acceptedSignals (first ++ second) =
      deduplicator.acceptedSignals first ++ (deduplicator.after first).acceptedSignals second := by
  induction first generalizing deduplicator with
  | nil => rfl
  | cons submission rest ih =>
    rw [List.cons_append, acceptedSignals_cons, acceptedSignals_cons, after_cons, ih,
      List.append_assoc]

end SignalDeduplicator

namespace SignalEngine

variable (engine : SignalEngine) (view : MarketStateView) (event : MarketEvent) (now : Instant)

def validSubmissions (policy : SignalPolicy) (definition : SignalDefinition) (event : MarketEvent)
    (now : Instant) (values : List Value) : List Submission :=
  values.filterMap fun value =>
    match validateSignal policy definition event now value with
    | .ok signal => some (signal, now)
    | .error _ => none

def submitted (policy : SignalPolicy) (view : MarketStateView) (event : MarketEvent)
    (now : Instant) (evaluate : SignalDefinition → Evaluation) :
    List SignalDefinition → List Submission
  | [] => []
  | definition :: rest =>
    match isReady definition.requirements view event now with
    | .error _ => []
    | .ok false => submitted policy view event now evaluate rest
    | .ok true =>
      validSubmissions policy definition event now (evaluate definition).values ++
        if (evaluate definition).escapes then []
        else submitted policy view event now evaluate rest

/-- The engine has accepted what its deduplicator answers to the submissions. -/
structure Answers (submissions : List Submission) (accepted : List Signal)
    (after : SignalEngine) : Prop where
  registry : after.registry = engine.registry
  policy : after.policy = engine.policy
  deduplicator : after.deduplicator = engine.deduplicator.after submissions
  accepted : accepted = engine.deduplicator.acceptedSignals submissions

theorem Answers.refl : engine.Answers [] [] engine := ⟨rfl, rfl, rfl, rfl⟩

variable {engine view event now}

theorem Answers.append {first second : List Submission} {accepted accepted' : List Signal}
    {middle after : SignalEngine} (h : engine.Answers first accepted middle)
    (h' : middle.Answers second accepted' after) :
    engine.Answers (first ++ second) (accepted ++ accepted') after where
  registry := h'.registry.trans h.registry
  policy := h'.policy.trans h.policy
  deduplicator := by
    rw [h'.deduplicator, h.deduplicator, SignalDeduplicator.after_append]
  accepted := by
    rw [h'.accepted, h.accepted, h.deduplicator, SignalDeduplicator.acceptedSignals_append]

theorem validSubmissions_cons_error {policy : SignalPolicy} {definition : SignalDefinition}
    {value : Value} {message : String} (rest : List Value)
    (h : validateSignal policy definition event now value = .error message) :
    validSubmissions policy definition event now (value :: rest) =
      validSubmissions policy definition event now rest := by
  simp [validSubmissions, h]

theorem validSubmissions_cons_ok {policy : SignalPolicy} {definition : SignalDefinition}
    {value : Value} {signal : Signal} (rest : List Value)
    (h : validateSignal policy definition event now value = .ok signal) :
    validSubmissions policy definition event now (value :: rest) =
      (signal, now) :: validSubmissions policy definition event now rest := by
  simp [validSubmissions, h]

theorem consider_answers (engine : SignalEngine) (definition : SignalDefinition)
    (event : MarketEvent) (now : Instant) (values : List Value) :
    engine.Answers (validSubmissions engine.policy definition event now values)
      (engine.consider definition event now values).2
      (engine.consider definition event now values).1 := by
  induction values generalizing engine with
  | nil => exact .refl engine
  | cons value rest ih =>
    cases hvalid : validateSignal engine.policy definition event now value with
    | error message =>
      rw [validSubmissions_cons_error rest hvalid, consider, hvalid]
      exact ih engine
    | ok signal =>
      rw [validSubmissions_cons_ok rest hvalid, consider, hvalid]
      rcases haccept : engine.deduplicator.accept signal now with ⟨deduplicator, fresh⟩
      cases fresh with
      | false =>
        have hfirst : engine.Answers [(signal, now)] [] { engine with deduplicator } :=
          ⟨rfl, rfl, by simp [haccept],
            by simp [SignalDeduplicator.acceptedSignals_cons, haccept]⟩
        simpa [haccept] using hfirst.append (ih { engine with deduplicator })
      | true =>
        set history := pushBack engine.policy.historySize engine.history signal
        have hfirst : engine.Answers [(signal, now)] [signal]
            { engine with deduplicator, history } :=
          ⟨rfl, rfl, by simp [haccept],
            by simp [SignalDeduplicator.acceptedSignals_cons, haccept]⟩
        simpa [haccept] using hfirst.append (ih { engine with deduplicator, history })

theorem evaluateAll_answers (engine : SignalEngine) (evaluate : SignalDefinition → Evaluation)
    (definitions : List SignalDefinition) :
    engine.Answers (submitted engine.policy view event now evaluate definitions)
      (evaluateAll view event now evaluate engine definitions).accepted
      (evaluateAll view event now evaluate engine definitions).engine := by
  induction definitions generalizing engine with
  | nil => exact .refl engine
  | cons definition rest ih =>
    rw [submitted, evaluateAll, evaluateDefinition]
    cases hready : isReady definition.requirements view event now with
    | error raised => exact .refl engine
    | ok ready =>
      cases ready with
      | false =>
        have hrest := ih engine
        simpa using hrest
      | true =>
        have hfirst := engine.consider_answers definition event now (evaluate definition).values
        dsimp only
        split
        case isTrue hescapes => simpa [hescapes] using hfirst
        case isFalse hescapes =>
          have hrest := ih (engine.consider definition event now (evaluate definition).values).1
          rw [hfirst.policy] at hrest
          simpa [hescapes] using hfirst.append hrest

theorem evaluateEvent_answers (engine : SignalEngine) (evaluate : SignalDefinition → Evaluation) :
    engine.Answers
      (submitted engine.policy view event now evaluate (triggered engine.registry event))
      (engine.evaluateEvent view event now evaluate).accepted
      (engine.evaluateEvent view event now evaluate).engine :=
  evaluateAll_answers engine evaluate _

end SignalEngine

end ChainQuantStudio.Signals
