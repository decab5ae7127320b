import ChainQuantStudio.Signals.Replay

/-!
# What a replay reproduces

A replay goes through exactly the runs in which every delta connects to the book it finds and no
exception leaves an evaluation, and there its signals are those of the live engine. A recorded gap
ends it, whatever the snapshot behind the gap.
-/

namespace ChainQuantStudio.State

open Data Market OrderBook

def OrderBook.LocalOrderBook.connects (book : LocalOrderBook) (delta : OrderBookDelta) : Bool :=
  match book.sequenceId, delta.metadata.sequenceId with
  | some current, some finalSequence =>
    (book.isSynchronized || book.firstDeltaAfterSnapshot) &&
      match book.continuity delta current finalSequence with
      | .gap _ => false
      | .follows | .stale => true
  | _, _ => false

theorem OrderBook.LocalOrderBook.applyDelta_ok_iff {book : LocalOrderBook} {delta : OrderBookDelta}
    (hinstrument : delta.metadata.instrument = book.instrument) :
    (∃ applied, (book.applyDelta delta).2 = .ok applied) ↔ book.connects delta = true := by
  unfold LocalOrderBook.applyDelta LocalOrderBook.connects
  rw [if_neg (not_not.mpr hinstrument)]
  cases book.sequenceId with
  | none => simp
  | some current =>
    cases delta.metadata.sequenceId with
    | none => cases book.isSynchronized <;> cases book.firstDeltaAfterSnapshot <;> simp
    | some finalSequence =>
      cases book.isSynchronized <;> cases book.firstDeltaAfterSnapshot <;>
        cases hcontinuity : book.continuity delta current finalSequence <;> simp [hcontinuity]

theorem Market.MarketState.applyDelta_outcome (state : MarketState) (delta : OrderBookDelta) :
    (state.applyDelta delta).2 =
      ((state.depth.book delta.metadata.instrument).applyDelta delta).2 := by
  rcases h : (state.depth.book delta.metadata.instrument).applyDelta delta with ⟨book, outcome⟩
  rcases outcome with (message | message) | applied
  · simp [MarketState.applyDelta, h]
  · simp [MarketState.applyDelta, h]
  · cases applied <;> simp [MarketState.applyDelta, h]

namespace Market.UnifiedState

variable {settings : UnifiedSettings}

theorem apply_delta_outcome (state : UnifiedState settings) (delta : OrderBookDelta) :
    (state.apply (.delta delta)).2 =
      ((state.books.depth.book delta.metadata.instrument).applyDelta delta).2 := by
  rw [← MarketState.applyDelta_outcome]
  rcases h : state.books.applyDelta delta with ⟨books, (message | message) | applied⟩ <;>
    simp [apply, applyDelta, register, h]

def Connects (state : UnifiedState settings) : MarketEvent → Prop
  | .delta delta => (state.books.depth.book delta.metadata.instrument).connects delta = true
  | _ => True

theorem apply_ok_iff (state : UnifiedState settings) (event : MarketEvent) :
    (∃ applied, (state.apply event).2 = .ok applied) ↔ state.Connects event := by
  cases event with
  | delta delta =>
    rw [apply_delta_outcome]
    exact LocalOrderBook.applyDelta_ok_iff (state.books.depth.book_instrument _).symm
  | snapshot snapshot =>
    refine ⟨fun _ => trivial, fun _ => ?_⟩
    obtain hcall | ⟨hcall, -⟩ := state.books.applySnapshot_cases snapshot
    · exact ⟨false, by simp [apply, applyOrderBookSnapshot, register, hcall]⟩
    · rcases hbooks : state.books.applyOrderBookSnapshot snapshot false with ⟨books, outcome⟩
      rw [hbooks] at hcall
      exact ⟨true, by simp_all [apply, applyOrderBookSnapshot, register]⟩
  | ticker => exact ⟨fun _ => trivial, fun _ => ⟨_, rfl⟩⟩
  | candle => exact ⟨fun _ => trivial, fun _ => ⟨_, rfl⟩⟩
  | trade => exact ⟨fun _ => trivial, fun _ => ⟨_, rfl⟩⟩
  | funding => exact ⟨fun _ => trivial, fun _ => ⟨_, rfl⟩⟩
  | openInterest => exact ⟨fun _ => trivial, fun _ => ⟨_, rfl⟩⟩

end Market.UnifiedState

end ChainQuantStudio.State

namespace ChainQuantStudio.Signals

open Data Run State.Candles State.Market State.OrderBook State.Supervisor

namespace SignalEngine

variable (view : MarketStateView) (event : MarketEvent) (now : Instant)
  (evaluate : SignalDefinition → Evaluation)

def Quiet (definition : SignalDefinition) : Prop :=
  ∃ ready, isReady definition.requirements view event now = .ok ready ∧
    (ready = true → (evaluate definition).escapes = false)

variable {view event now evaluate}

theorem evaluateDefinition_escaped (engine : SignalEngine) (definition : SignalDefinition) :
    (engine.evaluateDefinition view event now definition (evaluate definition)).escaped = false ↔
      Quiet view event now evaluate definition := by
  unfold evaluateDefinition Quiet
  rcases isReady definition.requirements view event now with raised | ready
  · simp
  · cases ready <;> simp

theorem evaluateAll_escaped (engine : SignalEngine) (definitions : List SignalDefinition) :
    (evaluateAll view event now evaluate engine definitions).escaped = false ↔
      ∀ definition ∈ definitions, Quiet view event now evaluate definition := by
  induction definitions generalizing engine with
  | nil => simp [evaluateAll]
  | cons definition rest ih =>
    have hfirst := @evaluateDefinition_escaped view event now evaluate engine definition
    rw [List.forall_mem_cons, ← hfirst, evaluateAll]
    split
    case isTrue hescaped => simp [hescaped]
    case isFalse hescaped => simp [hescaped, ih]

end SignalEngine

variable {settings : UnifiedSettings}

namespace Session

variable (surroundings : Surroundings settings) (live : LiveSettings)

/-- `_backfill_candle_gap` finds none. -/
def NoCandleGap (session : Session settings) (received : Received) : Prop :=
  match received.event with
  | .candle candle => ∀ previous, session.state.candles.latest candle.key = some previous →
      ∃ duration, intervalDuration candle.interval = some duration ∧
        candle.openTime ≤ previous.openTime + duration
  | _ => True

/-- The event connects to the state it finds, and the engine evaluates it without an exception. -/
structure Unbroken (session : Session settings) (received : Received) : Prop where
  connects : session.state.Connects received.event
  quiet : (session.state.apply received.event).2 = .ok true →
    let state := (session.state.apply received.event).1
    ∀ definition ∈ SignalEngine.triggered session.engine.registry received.event,
      SignalEngine.Quiet (surroundings.view state) received.event
        received.event.metadata.receivedAt
        (fun definition => surroundings.evaluate definition
          (session.calls ++ [(received.event, state)])) definition

variable {surroundings live} {session : Session settings} {received : Received}

theorem processEvent_eq_deliver
    (haccepted : rejectionReason live.ingestionPolicy received.event = .ok none)
    (hnogap : session.NoCandleGap received) :
    session.processEvent surroundings live received =
      session.deliver surroundings live received := by
  unfold processEvent
  rw [haccepted]
  unfold NoCandleGap at hnogap
  cases hevent : received.event with
  | candle candle =>
    rw [hevent] at hnogap
    have hbackfill : backfillCandleGap session.state candle received.candles =
        .ok session.state := by
      unfold backfillCandleGap
      cases hlatest : session.state.candles.latest candle.key with
      | none => rfl
      | some previous =>
        obtain ⟨duration, hduration, hnext⟩ := hnogap previous hlatest
        simp [hduration, hnext]
    simp [hbackfill]
  | _ => rfl

theorem evaluateEvent_escaped (session : Session settings) (event : MarketEvent) (now : Instant) :
    (session.evaluateEvent surroundings event now).2 = false ↔
      ∀ definition ∈ SignalEngine.triggered session.engine.registry event,
        SignalEngine.Quiet (surroundings.view session.state) event now
          (fun definition => surroundings.evaluate definition
            (session.calls ++ [(event, session.state)])) definition :=
  session.engine.evaluateAll_escaped _

theorem handleEvent_registry (session : Session settings) (event : MarketEvent) :
    (session.handleEvent surroundings event).1.engine.registry = session.engine.registry :=
  (session.engine.evaluateEvent_answers _).registry

theorem deliver_registry (session : Session settings) (received : Received) :
    (session.deliver surroundings live received).1.engine.registry = session.engine.registry := by
  unfold deliver
  dsimp only
  split
  · unfold resyncOrderBook
    split
    · rfl
    · dsimp only
      split
      · rfl
      · split
        · rfl
        · exact handleEvent_registry ..
  · rfl
  · exact handleEvent_registry ..
  · rfl

theorem liveStep_registry (session : Session settings) (received : Received) :
    (session.liveStep surroundings live received).engine.registry = session.engine.registry := by
  unfold liveStep processEvent
  split
  · rfl
  · rfl
  · split
    · split
      · rfl
      · exact deliver_registry ..
    · exact deliver_registry ..

theorem resyncSnapshot_of_connects (h : session.state.Connects received.event) :
    session.resyncSnapshot received = [] := by
  obtain ⟨applied, hok⟩ := (session.state.apply_ok_iff received.event).mpr h
  unfold resyncSnapshot
  rw [hok]

end Session

namespace SignalReplay

variable {surroundings : Surroundings settings} {live : LiveSettings}
  {replay : SignalReplay settings} {received : Received}

theorem advanceTo_of_le {clock : Option Instant} {value : Instant}
    (h : ∀ now ∈ clock, now ≤ value) : advanceTo clock value = .ok (some value) := by
  unfold advanceTo
  cases clock with
  | none => rfl
  | some now => simp [h now rfl]

theorem step_of_unbroken (hclock : ∀ now ∈ replay.clock, now ≤ received.event.metadata.receivedAt)
    (hunbroken : replay.session.Unbroken surroundings received) :
    ∃ after, replay.step surroundings received.event = .ok after ∧
      after.session = (replay.session.deliver surroundings live received).1 ∧
      after.clock = some received.event.metadata.receivedAt ∧ after.seen = replay.seen + 1 := by
  obtain ⟨applied, hok⟩ := (replay.session.state.apply_ok_iff received.event).mpr hunbroken.connects
  unfold step
  rw [advanceTo_of_le hclock]
  rcases happly : replay.session.state.apply received.event with ⟨state, outcome⟩
  rw [happly] at hok
  obtain rfl : outcome = .ok applied := hok
  cases applied with
  | false =>
    refine ⟨_, rfl, ?_, rfl, rfl⟩
    simp [Session.deliver, happly]
  | true =>
    have hquiet := hunbroken.quiet (by rw [happly])
    rw [happly] at hquiet
    have hescaped := (Session.evaluateEvent_escaped { replay.session with state } received.event
      received.event.metadata.receivedAt).mpr hquiet
    rcases hevaluate : Session.evaluateEvent { replay.session with state } surroundings
      received.event received.event.metadata.receivedAt with ⟨session, escaped⟩
    rw [hevaluate] at hescaped
    obtain rfl : escaped = false := hescaped
    refine ⟨{ replay with
      session
      clock := some received.event.metadata.receivedAt
      seen := replay.seen + 1
      applied := replay.applied + 1 }, ?_, ?_, rfl, rfl⟩
    · simp [hevaluate, bind, Except.bind]
    · simp [Session.deliver, Session.handleEvent, happly, hevaluate]

theorem unbroken_of_step {after : SignalReplay settings}
    (h : replay.step surroundings received.event = .ok after) :
    replay.session.Unbroken surroundings received := by
  unfold step at h
  cases hclock : advanceTo replay.clock received.event.metadata.receivedAt with
  | error failure =>
    rw [hclock] at h
    cases h
  | ok clock =>
    rw [hclock] at h
    rcases happly : replay.session.state.apply received.event with ⟨state, raised | applied⟩
    · simp [happly, bind, Except.bind] at h
    refine ⟨(replay.session.state.apply_ok_iff received.event).mp ⟨applied, by rw [happly]⟩, ?_⟩
    intro htrue
    rw [happly] at htrue
    obtain rfl : applied = true := Except.ok.inj htrue
    rw [happly]
    apply (Session.evaluateEvent_escaped { replay.session with state } received.event
      received.event.metadata.receivedAt).mp
    rcases hevaluate : Session.evaluateEvent { replay.session with state } surroundings
      received.event received.event.metadata.receivedAt with ⟨session, escaped⟩
    cases escaped with
    | false => rfl
    | true => simp [happly, hevaluate, bind, Except.bind] at h

end SignalReplay

section Runs

variable {surroundings : Surroundings settings} {live : LiveSettings}

theorem replay_iff {session : Session settings} {items : List Received}
    {replay : SignalReplay settings} (hsession : replay.session = session)
    (hclock : ∀ received ∈ items, ∀ now ∈ replay.clock, now ≤ received.event.metadata.receivedAt)
    (hsorted : items.Pairwise fun first second =>
      first.event.metadata.receivedAt ≤ second.event.metadata.receivedAt)
    (haccepted : ∀ received ∈ items,
      rejectionReason live.ingestionPolicy received.event = .ok none)
    (hnogap : Guarded (Session.liveStep surroundings live) Session.NoCandleGap session items) :
    (∃ final, (session.recorded surroundings live items).foldlM
          (SignalReplay.step surroundings) replay = .ok final ∧
        final.seen = replay.seen + (session.recorded surroundings live items).length ∧
        final.session.accepted =
          (run (Session.liveStep surroundings live) session items).accepted) ↔
      Guarded (Session.liveStep surroundings live) (Session.Unbroken surroundings) session
        items := by
  induction items generalizing session replay with
  | nil =>
    subst hsession
    simp [Session.recorded, pure, Except.pure]
  | cons received rest ih =>
    subst hsession
    obtain ⟨hearlier, hsorted⟩ := List.pairwise_cons.mp hsorted
    obtain ⟨hnogap, hrestgap⟩ := hnogap
    rw [guarded_cons, run_cons, Session.recorded, List.cons_append, List.foldlM_cons]
    by_cases hunbroken : replay.session.Unbroken surroundings received
    · obtain ⟨after, hstep, hafter, hnow, hcount⟩ :=
        @SignalReplay.step_of_unbroken _ surroundings live replay received
          (hclock received List.mem_cons_self) hunbroken
      have hlive : after.session = replay.session.liveStep surroundings live received := by
        rw [hafter, Session.liveStep, Session.processEvent_eq_deliver
          (haccepted received List.mem_cons_self) hnogap]
      have hlater : ∀ other ∈ rest, ∀ now ∈ after.clock,
          now ≤ other.event.metadata.receivedAt := by
        intro other hother now hmem
        rw [hnow] at hmem
        obtain rfl := Option.some.inj hmem
        exact hearlier other hother
      have hrest := ih hlive hlater hsorted
        (fun other hother => haccepted other (List.mem_cons_of_mem _ hother)) hrestgap
      have hlength : ∀ length, replay.seen + (length + 1) = after.seen + length := by omega
      rw [and_iff_right hunbroken, ← hrest, Session.resyncSnapshot_of_connects hunbroken.connects,
        hstep, List.nil_append, List.length_cons, hlength]
      rfl
    · constructor
      · rintro ⟨final, hfold, -⟩
        cases hstep : replay.step surroundings received.event with
        | error failure =>
          rw [hstep] at hfold
          cases hfold
        | ok after => exact absurd (SignalReplay.unbroken_of_step hstep) hunbroken
      · intro h
        exact absurd h.1 hunbroken

/-- The replay of the recorded run goes through and returns the signals that the live engine
accepted. -/
def Reproduces (surroundings : Surroundings settings) (live : LiveSettings)
    (registry : SignalRegistry) (policy : SignalPolicy) (items : List Received) : Prop :=
  let session : Session settings := .new settings registry policy
  let events := session.recorded surroundings live items
  ∃ result, SignalReplay.run surroundings { session } events = .ok result ∧
    result.eventsSeen = events.length ∧
    result.signals = (run (Session.liveStep surroundings live) session items).accepted

/-- A replay reproduces the live run exactly when every delta connects to the book it finds and
nothing escapes an evaluation. -/
theorem replay_reproduces_iff (surroundings : Surroundings settings) (live : LiveSettings)
    (registry : SignalRegistry) (policy : SignalPolicy) (items : List Received)
    (hsorted : items.Pairwise fun first second =>
      first.event.metadata.receivedAt ≤ second.event.metadata.receivedAt)
    (haccepted : ∀ received ∈ items,
      rejectionReason live.ingestionPolicy received.event = .ok none)
    (hnogap : Guarded (Session.liveStep surroundings live) Session.NoCandleGap
      (.new settings registry policy) items) :
    Reproduces surroundings live registry policy items ↔
      Guarded (Session.liveStep surroundings live) (Session.Unbroken surroundings)
        (.new settings registry policy) items := by
  have hreplay := @replay_iff settings surroundings live (.new settings registry policy) items
    { session := .new settings registry policy } rfl (by simp) hsorted haccepted hnogap
  rw [← hreplay, Reproduces]
  constructor
  · rintro ⟨result, hrun, hseen, hsignals⟩
    unfold SignalReplay.run at hrun
    cases hfold : List.foldlM (SignalReplay.step surroundings) _ _ with
    | error failure =>
      rw [hfold] at hrun
      cases hrun
    | ok final =>
      rw [hfold] at hrun
      obtain rfl := Except.ok.inj hrun
      exact ⟨final, rfl, by simpa using hseen, hsignals⟩
  · rintro ⟨final, hfold, hseen, haccepts⟩
    refine ⟨⟨final.seen, final.applied, final.ignored, final.session.accepted⟩, ?_, ?_, haccepts⟩
    · rw [SignalReplay.run, hfold]
      rfl
    · simpa using hseen

end Runs

def defaultSettings : UnifiedSettings where
  books :=
    { depth_pos := DepthState.default_depth_pos
      range_pos := MarketSettings.default_range_pos
      range_lt := MarketSettings.default_range_lt
      size_ge := MarketSettings.default_size_ge
      sample_pos := MarketSettings.default_sample_pos }
  candle_pos := UnifiedSettings.default_candle_pos
  trade_pos := UnifiedSettings.default_trade_pos
  openInterest_ge := MarketSettings.default_size_ge

def defaultLive : LiveSettings where
  ingestionPolicy := { age_pos := by decide +kernel, skew_nonneg := by decide +kernel }
  requiresStreamOrderBookBootstrap := fun _ => false

def bookDefinition : SignalDefinition where
  name := "book"
  version := "1.0.0"
  requirements :=
    { triggerKinds := [.orderBook]
      freshData := [.orderBook]
      venues_pos := Nat.one_pos
      history_pos := SignalRequirements.default_history_pos }

def bookRegistry : SignalRegistry where
  definitions := [bookDefinition]
  named := by decide
  unique := by decide

def bookPolicy : SignalPolicy where
  cooldown_nonneg := SignalPolicy.default_cooldown_nonneg
  age_pos := SignalPolicy.default_age_pos
  history_pos := SignalPolicy.default_history_pos

def bookSignal (instant : Instant) : Signal where
  strategyName := "book"
  strategyVersion := "1.0.0"
  canonicalSymbol := "BTC/USDT"
  occurredAt := instant
  fingerprint := "book"

def bookSurroundings (settings : UnifiedSettings) : Surroundings settings where
  view := fun _ =>
    { snapshot := fun _ _ => .ok [⟨btcUsdt .binance .linearPerpetual, fun _ => true⟩]
      getCandles := fun _ _ => []
      isFresh := fun _ _ _ => true
      isCandleFresh := fun _ _ _ => .ok true }
  evaluate := fun _ calls =>
    .returned (calls.getLast?.toList.map fun call =>
      .signal (bookSignal call.1.metadata.receivedAt) none)

def emptySnapshot (sequenceId : ℤ) (instant : Instant) : OrderBookSnapshot where
  metadata := .numbered (btcUsdt .binance .linearPerpetual) sequenceId instant
  bids := []
  asks := []

def emptyDelta (sequenceId previous : ℤ) (instant : Instant) : OrderBookDelta where
  metadata := .numbered (btcUsdt .binance .linearPerpetual) sequenceId instant
  bids := []
  asks := []
  firstSequenceId := some (previous + 1)
  previousSequenceId := some previous

def gapItems : List Received :=
  [{ event := .snapshot (emptySnapshot 100 0) },
    { event := .delta (emptyDelta 105 103 1), book := some (emptySnapshot 106 2) }]

/-- The live run resynchronizes the book; the replay ends at the delta with what `apply` raises. -/
theorem gap_ends_replay :
    ¬ ∀ (settings : UnifiedSettings) (surroundings : Surroundings settings) (live : LiveSettings)
        (registry : SignalRegistry) (policy : SignalPolicy) (items : List Received),
      (∀ instrument, live.requiresStreamOrderBookBootstrap instrument = false) →
      (items.Pairwise fun first second =>
        first.event.metadata.receivedAt ≤ second.event.metadata.receivedAt) →
      (∀ received ∈ items, rejectionReason live.ingestionPolicy received.event = .ok none) →
      Guarded (Session.liveStep surroundings live) Session.NoCandleGap
        (.new settings registry policy) items →
      Reproduces surroundings live registry policy items := by
  intro h
  have hsorted : gapItems.Pairwise fun first second =>
      first.event.metadata.receivedAt ≤ second.event.metadata.receivedAt := by
    simp [gapItems, MarketEvent.metadata, emptySnapshot, emptyDelta, EventMetadata.numbered]
  have haccepted : ∀ received ∈ gapItems,
      rejectionReason defaultLive.ingestionPolicy received.event = .ok none := by
    intro received hmem
    simp only [gapItems, List.mem_cons, List.not_mem_nil, or_false] at hmem
    rcases hmem with rfl | rfl <;> decide +kernel
  obtain ⟨result, hrun, -⟩ := h defaultSettings (bookSurroundings _) defaultLive bookRegistry
    bookPolicy gapItems (fun _ => rfl) hsorted haccepted ⟨trivial, trivial, trivial⟩
  have hfails : (SignalReplay.run (bookSurroundings defaultSettings)
      { session := .new defaultSettings bookRegistry bookPolicy }
      ((Session.new defaultSettings bookRegistry bookPolicy).recorded (bookSurroundings _)
        defaultLive gapItems)).isOk = false := by
    decide +kernel
  rw [hrun] at hfails
  cases hfails

theorem book_quiet {session : Session defaultSettings} (h : session.engine.registry = bookRegistry)
    {event : MarketEvent} {definition : SignalDefinition}
    (hmem : definition ∈ SignalEngine.triggered session.engine.registry event)
    (state : UnifiedState defaultSettings) (calls : List (Call defaultSettings)) :
    SignalEngine.Quiet ((bookSurroundings defaultSettings).view state) event
      event.metadata.receivedAt
      (fun definition => (bookSurroundings defaultSettings).evaluate definition calls)
      definition := by
  rw [h] at hmem
  obtain rfl := List.mem_singleton.mp ((SignalEngine.triggered_sublist ..).subset hmem)
  cases event <;> exact ⟨_, rfl, fun _ => rfl⟩

def followingItems : List Received :=
  [{ event := .snapshot (emptySnapshot 100 0) }, { event := .delta (emptyDelta 102 99 1) },
    { event := .delta (emptyDelta 102 99 1) }]

theorem replay_reproduces_following :
    Reproduces (bookSurroundings defaultSettings) defaultLive bookRegistry bookPolicy
      followingItems := by
  have haccepted : ∀ received ∈ followingItems,
      rejectionReason defaultLive.ingestionPolicy received.event = .ok none := by
    intro received hmem
    simp only [followingItems, List.mem_cons, List.not_mem_nil, or_false] at hmem
    rcases hmem with rfl | rfl | rfl <;> decide +kernel
  apply (replay_reproduces_iff _ _ _ _ _ ?_ haccepted ⟨trivial, trivial, trivial, trivial⟩).mpr
  · refine ⟨⟨trivial, fun _ definition hmem => book_quiet rfl hmem ..⟩,
      ⟨?_, fun _ definition hmem => book_quiet ?_ hmem ..⟩,
      ⟨?_, fun _ definition hmem => book_quiet ?_ hmem ..⟩, trivial⟩
    · change LocalOrderBook.connects _ _ = true
      decide +kernel
    · rw [Session.liveStep_registry]
      rfl
    · change LocalOrderBook.connects _ _ = true
      decide +kernel
    · rw [Session.liveStep_registry, Session.liveStep_registry]
      rfl
  · simp [followingItems, MarketEvent.metadata, emptySnapshot, emptyDelta, EventMetadata.numbered]

end ChainQuantStudio.Signals
