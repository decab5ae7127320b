import ChainQuantStudio.Signals.LiveSupervisor
import ChainQuantStudio.Signals.ReplayAgreement

/-!
# The parts of `process_event`

The supervisor of depth, the supervisor of candles and the live driver of a session are each what is
left of the whole supervisor when the rest is forgotten: a run of the whole one is a run of the part
over the events that concern it.
-/

namespace ChainQuantStudio.Signals

open Data Exchanges.Depth Run State.Candles State.Market State.OrderBook State.Supervisor

section State

variable {settings : UnifiedSettings} (state : UnifiedState settings)

theorem apply_delta_depth (delta : OrderBookDelta) :
    (state.apply (.delta delta)).2 = (state.books.depth.applyDelta delta).2 ∧
      (state.apply (.delta delta)).1.books.depth = (state.books.depth.applyDelta delta).1 ∧
      (state.apply (.delta delta)).1.candles = state.candles := by
  rcases h : (state.books.depth.book delta.metadata.instrument).applyDelta delta with
    ⟨book, (message | message) | applied⟩
  · simp [UnifiedState.apply, UnifiedState.applyDelta, UnifiedState.register,
      MarketState.applyDelta, MarketState.invalidateOrderBook, DepthState.applyDelta, h]
  · simp [UnifiedState.apply, UnifiedState.applyDelta, UnifiedState.register,
      MarketState.applyDelta, DepthState.applyDelta, h]
  · cases applied with
    | false =>
      simp [UnifiedState.apply, UnifiedState.applyDelta, UnifiedState.register,
        UnifiedState.markIf, MarketState.applyDelta, DepthState.applyDelta, h]
    | true =>
      simp [UnifiedState.apply, UnifiedState.applyDelta, UnifiedState.register,
        UnifiedState.markIf, MarketState.applyDelta, MarketState.recordOrderBook_depth,
        DepthState.applyDelta, h]

theorem applyOrderBookSnapshot_depth (snapshot : OrderBookSnapshot) (bridge : Bool) :
    (state.applyOrderBookSnapshot snapshot bridge).2 =
        (state.books.depth.applyOrderBookSnapshot snapshot bridge).2 ∧
      (state.applyOrderBookSnapshot snapshot bridge).1.books.depth =
        (state.books.depth.applyOrderBookSnapshot snapshot bridge).1 ∧
      (state.applyOrderBookSnapshot snapshot bridge).1.candles = state.candles := by
  rcases h : state.books.depth.applyOrderBookSnapshot snapshot bridge with ⟨depth, raised | applied⟩
  · simp [UnifiedState.applyOrderBookSnapshot, UnifiedState.register,
      MarketState.applyOrderBookSnapshot, h]
  · cases applied with
    | false =>
      simp [UnifiedState.applyOrderBookSnapshot, UnifiedState.register, UnifiedState.markIf,
        MarketState.applyOrderBookSnapshot, h]
    | true =>
      simp [UnifiedState.applyOrderBookSnapshot, UnifiedState.register, UnifiedState.markIf,
        MarketState.applyOrderBookSnapshot, MarketState.recordOrderBook_depth, h]

theorem markIf_parts (event : MarketEvent) (applied : Bool) :
    (state.markIf event applied).books = state.books ∧
      (state.markIf event applied).candles = state.candles := by
  unfold UnifiedState.markIf
  split <;> exact ⟨rfl, rfl⟩

theorem apply_candle_candles (candle : Candle) :
    (state.apply (.candle candle)).2 = .ok (state.candles.upsert candle).2 ∧
      (state.apply (.candle candle)).1.candles = (state.candles.upsert candle).1 ∧
      (state.apply (.candle candle)).1.books = state.books := by
  refine ⟨rfl, ?_, ?_⟩
  · exact (markIf_parts _ _ _).2
  · exact (markIf_parts _ _ _).1

theorem applyMany_candles (candles : List Candle) :
    (Session.applyMany state (candles.map .candle)).candles = state.candles.applyMany candles ∧
      (Session.applyMany state (candles.map .candle)).books = state.books := by
  induction candles generalizing state with
  | nil => exact ⟨rfl, rfl⟩
  | cons candle candles ih =>
    obtain ⟨-, hcandles, hbooks⟩ := apply_candle_candles state candle
    obtain ⟨ihcandles, ihbooks⟩ := ih (state.apply (.candle candle)).1
    refine ⟨?_, ihbooks.trans hbooks⟩
    exact ihcandles.trans (by rw [hcandles]; rfl)

def IsOther : MarketEvent → Prop
  | .candle _ | .snapshot _ | .delta _ => False
  | _ => True

theorem apply_other {event : MarketEvent} (h : IsOther event) :
    (state.apply event).1.books = state.books ∧
      (state.apply event).1.candles = state.candles := by
  cases event with
  | ticker ticker => exact markIf_parts _ _ _
  | trade trade => exact markIf_parts _ _ _
  | funding funding => exact markIf_parts _ _ _
  | openInterest openInterest => exact markIf_parts _ _ _
  | candle candle => exact h.elim
  | snapshot snapshot => exact h.elim
  | delta delta => exact h.elim

end State

namespace LiveSupervisor

variable {settings : UnifiedSettings} {H : Type} (call : EventHandler settings H)
  (supervisor : LiveSupervisor settings H)

def depth : DepthSupervisor where
  ingestionPolicy := supervisor.live.ingestionPolicy
  staleStreamRecycleThreshold := supervisor.live.staleStreamRecycleThreshold
  requiresStreamOrderBookBootstrap := supervisor.live.requiresStreamOrderBookBootstrap
  state := supervisor.state.books.depth
  consecutiveStaleCounts := fun instrument =>
    supervisor.consecutiveStaleCounts (instrument, .orderBookDelta)

def candle? : MarketEvent → Option Candle
  | .candle candle => some candle
  | _ => none

def candles : CandleSupervisor where
  ingestionPolicy := supervisor.live.ingestionPolicy
  candles := supervisor.state.candles
  handled := supervisor.handled.filterMap candle?

/-- An event, what was fetched for it, and how it was received, for the supervisor of depth. -/
def depthInput (arrival : Arrival) : Option DepthSupervisor.Input :=
  match arrival.1.event with
  | .snapshot snapshot => some (.event (.snapshot snapshot) arrival.2 arrival.1.book)
  | .delta delta => some (.event (.delta delta) arrival.2 arrival.1.book)
  | _ => none

def candleInput (arrival : Arrival) : Option (Candle × Option (List Candle)) :=
  (candle? arrival.1.event).map fun candle => (candle, arrival.1.candles)

/-- A snapshot fetched for an event is of its instrument. -/
def Answered (arrival : Arrival) : Prop :=
  ∀ snapshot ∈ arrival.1.book, snapshot.metadata.instrument = arrival.1.event.metadata.instrument

theorem recordOrderBookBridge_parts (instrument : Instrument) :
    (supervisor.recordOrderBookBridge instrument).state = supervisor.state ∧
      (supervisor.recordOrderBookBridge instrument).handled = supervisor.handled := by
  unfold recordOrderBookBridge
  dsimp only
  split_ifs <;> exact ⟨rfl, rfl⟩

theorem applied_parts (event : MarketEvent) (bookWasSynchronized : Bool) :
    (supervisor.applied call event bookWasSynchronized).1.state = supervisor.state ∧
      (supervisor.applied call event bookWasSynchronized).1.handled =
        supervisor.handled ++ [event] := by
  unfold applied
  dsimp only
  split
  · exact ⟨rfl, rfl⟩
  split
  · exact recordOrderBookBridge_parts _ _
  · exact ⟨rfl, rfl⟩

theorem depth_of_kept {after : LiveSupervisor settings H} (h : Kept supervisor after) :
    after.depth = { supervisor.depth with state := after.state.books.depth } := by
  simp only [depth, h.live, h.stale]

theorem resyncOrderBook_depth (instrument : Instrument) (fetched : Option OrderBookSnapshot)
    (hanswered : ∀ snapshot ∈ fetched, snapshot.metadata.instrument = instrument) :
    (supervisor.resyncOrderBook call instrument fetched).1.depth =
      (supervisor.depth.resyncOrderBook fetched).1 := by
  rw [supervisor.depth_of_kept (supervisor.kept_resyncOrderBook call instrument fetched)]
  cases fetched with
  | none => rfl
  | some snapshot =>
    have hinstrument : snapshot.metadata.instrument = instrument := hanswered snapshot rfl
    set bridge := supervisor.live.requiresStreamOrderBookBootstrap instrument with hbridge
    obtain ⟨houtcome, hdepth, -⟩ :=
      applyOrderBookSnapshot_depth supervisor.state snapshot bridge
    have hstate : (supervisor.resyncOrderBook call instrument (some snapshot)).1.state =
        (supervisor.state.applyOrderBookSnapshot snapshot bridge).1 := by
      unfold resyncOrderBook
      dsimp only
      split
      · rfl
      · split <;> rfl
    rw [hstate, hdepth]
    have hpart : supervisor.depth.applyOrderBookSnapshot snapshot =
        ({ supervisor.depth with
            state := (supervisor.state.books.depth.applyOrderBookSnapshot snapshot bridge).1 },
          (supervisor.state.books.depth.applyOrderBookSnapshot snapshot bridge).2) := by
      simp only [DepthSupervisor.applyOrderBookSnapshot, depth, hinstrument, hbridge]
    simp only [DepthSupervisor.resyncOrderBook, hpart]
    split <;> rfl

theorem resyncOrderBook_candles (instrument : Instrument) (fetched : Option OrderBookSnapshot) :
    (supervisor.resyncOrderBook call instrument fetched).1.candles = supervisor.candles := by
  cases fetched with
  | none => rfl
  | some snapshot =>
    obtain ⟨-, -, hcandles⟩ := applyOrderBookSnapshot_depth supervisor.state snapshot
      (supervisor.live.requiresStreamOrderBookBootstrap instrument)
    unfold resyncOrderBook
    dsimp only
    split
    · simp only [candles, hcandles]
    split
    · simp only [candles, hcandles]
    · simp only [candles, handle, hcandles, List.filterMap_append]
      simp [candle?]

theorem deliver_parts (received : Received) (recycle : Bool)
    (hresync : ∀ delta, received.event = .delta delta → ∀ message,
      (supervisor.state.apply received.event).2 ≠ .error (.orderBookOutOfSync message)) :
    (supervisor.deliver call received recycle).1.state =
        (supervisor.state.apply received.event).1 ∧
      (supervisor.deliver call received recycle).1.handled = supervisor.handled ++
        if (supervisor.state.apply received.event).2 = .ok true then [received.event] else [] := by
  unfold deliver
  dsimp only
  split
  case h_1 message delta houtcome hevent => exact absurd houtcome (hresync delta hevent message)
  case h_2 raised houtcome hnot =>
    rw [houtcome, if_neg (fun h => by cases h), List.append_nil]
    exact ⟨rfl, rfl⟩
  case h_3 houtcome =>
    rw [houtcome, if_pos rfl]
    exact applied_parts call _ _ _
  case h_4 houtcome =>
    rw [houtcome, if_neg (fun h => by cases h), List.append_nil]
    exact ⟨rfl, rfl⟩

theorem deliver_delta (received : Received) (recycle : Bool) (delta : OrderBookDelta)
    (hevent : received.event = .delta delta)
    (hanswered : ∀ snapshot ∈ received.book,
      snapshot.metadata.instrument = delta.metadata.instrument) :
    (supervisor.deliver call received recycle).1.depth =
        (match supervisor.state.books.depth.applyDelta delta with
        | (state, .error (.orderBookOutOfSync _)) =>
          if recycle then { supervisor.depth with state }
          else
            (({ supervisor.depth with state } : DepthSupervisor).resyncOrderBook received.book).1
        | (state, _) => { supervisor.depth with state }) ∧
      (supervisor.deliver call received recycle).1.candles = supervisor.candles := by
  obtain ⟨houtcome, hdepth, hcandles⟩ := apply_delta_depth supervisor.state delta
  have hkept := supervisor.kept_deliver call received recycle
  rcases h : supervisor.state.books.depth.applyDelta delta with
    ⟨state, (message | message) | applied⟩
  · rw [h] at houtcome hdepth
    set counted : LiveSupervisor settings H := { supervisor with
      state := (supervisor.state.apply (.delta delta)).1
      stats := { supervisor.stats with orderBookGaps := supervisor.stats.orderBookGaps + 1 } }
      with hcounted
    have hcountedDepth : counted.depth = { supervisor.depth with state } := by
      simp only [depth, hcounted, hdepth]
    have hcountedCandles : counted.candles = supervisor.candles := by
      simp only [candles, hcounted, hcandles]
    have hdeliver : supervisor.deliver call received recycle =
        if recycle then (counted, .error (.orderBookStreamGap delta.metadata.instrument))
        else counted.resyncOrderBook call delta.metadata.instrument received.book := by
      simp only [deliver, hevent, houtcome, MarketEvent.metadata, hcounted]
    rw [hdeliver]
    cases recycle with
    | true => exact ⟨hcountedDepth, hcountedCandles⟩
    | false =>
      refine ⟨?_, (counted.resyncOrderBook_candles call _ _).trans hcountedCandles⟩
      rw [if_neg (by simp), counted.resyncOrderBook_depth call _ _ hanswered, hcountedDepth]
      rfl
  all_goals
    rw [h] at houtcome hdepth
    obtain ⟨hstate, hhandled⟩ := supervisor.deliver_parts call received recycle (by
      intro delta' _ message hraised
      rw [hevent, houtcome] at hraised
      cases hraised)
    rw [hevent] at hstate hhandled
    refine ⟨?_, ?_⟩
    · rw [supervisor.depth_of_kept hkept, hstate, hdepth]
    · simp only [candles, hkept.live, hstate, hcandles, hhandled, List.filterMap_append]
      split <;> simp [candle?]

theorem deliver_snapshot (received : Received) (recycle : Bool) (snapshot : OrderBookSnapshot)
    (hevent : received.event = .snapshot snapshot) :
    (supervisor.deliver call received recycle).1.depth =
        { supervisor.depth with
          state := (supervisor.state.books.depth.applyOrderBookSnapshot snapshot false).1 } ∧
      (supervisor.deliver call received recycle).1.candles = supervisor.candles := by
  obtain ⟨-, hdepth, hcandles⟩ := applyOrderBookSnapshot_depth (supervisor.state.register
    snapshot.metadata.instrument) snapshot false
  have hkept := supervisor.kept_deliver call received recycle
  obtain ⟨hstate, hhandled⟩ := supervisor.deliver_parts call received recycle (by
    intro delta h
    rw [hevent] at h
    cases h)
  have happly : (supervisor.state.apply received.event).1 =
      ((supervisor.state.register snapshot.metadata.instrument).applyOrderBookSnapshot
        snapshot false).1 := by
    rw [hevent]
    rfl
  refine ⟨?_, ?_⟩
  · rw [supervisor.depth_of_kept hkept, hstate, happly, hdepth]
    rfl
  · simp only [candles, hkept.live, hstate, happly, hcandles, hhandled, List.filterMap_append]
    rw [hevent]
    split <;> simp [candle?] <;> rfl

theorem deliver_other (received : Received) (recycle : Bool) (hevent : IsOther received.event) :
    (supervisor.deliver call received recycle).1.depth = supervisor.depth ∧
      (supervisor.deliver call received recycle).1.candles = supervisor.candles := by
  obtain ⟨hbooks, hcandles⟩ := apply_other supervisor.state hevent
  have hkept := supervisor.kept_deliver call received recycle
  obtain ⟨hstate, hhandled⟩ := supervisor.deliver_parts call received recycle (by
    intro delta h
    rw [h] at hevent
    exact hevent.elim)
  have hnone : candle? received.event = none := by
    cases h : received.event with
    | candle candle =>
      rw [h] at hevent
      exact hevent.elim
    | _ => rfl
  refine ⟨?_, ?_⟩
  · rw [supervisor.depth_of_kept hkept, hstate, hbooks]
    rfl
  · simp only [candles, hkept.live, hstate, hcandles, hhandled, List.filterMap_append]
    split <;> simp [hnone]

theorem deliver_candle (received : Received) (recycle : Bool) (candle : Candle)
    (hevent : received.event = .candle candle) :
    (supervisor.deliver call received recycle).1.depth = supervisor.depth ∧
      (supervisor.deliver call received recycle).1.candles =
        { supervisor.candles with
          candles := (supervisor.state.candles.upsert candle).1
          handled := if (supervisor.state.candles.upsert candle).2 then
            supervisor.candles.handled ++ [candle] else supervisor.candles.handled } := by
  obtain ⟨houtcome, hcandles, hbooks⟩ := apply_candle_candles supervisor.state candle
  have hkept := supervisor.kept_deliver call received recycle
  obtain ⟨hstate, hhandled⟩ := supervisor.deliver_parts call received recycle (by
    intro delta h
    rw [hevent] at h
    cases h)
  rw [hevent] at hstate hhandled
  refine ⟨?_, ?_⟩
  · rw [supervisor.depth_of_kept hkept, hstate, hbooks]
    rfl
  · simp only [candles, hkept.live, hstate, hcandles, hhandled, houtcome, List.filterMap_append]
    cases (supervisor.state.candles.upsert candle).2 <;> simp [candle?]

theorem depth_recount (after : LiveSupervisor settings H) (key : StaleKey) (count : ℕ)
    (hlive : after.live = supervisor.live) (hstate : after.state = supervisor.state)
    (hstale : after.consecutiveStaleCounts =
      Function.update supervisor.consecutiveStaleCounts key count) :
    after.depth =
      if key.2 = .orderBookDelta then
        { supervisor.depth with
          consecutiveStaleCounts :=
            Function.update supervisor.depth.consecutiveStaleCounts key.1 count }
      else supervisor.depth := by
  obtain ⟨instrument, type⟩ := key
  simp only [depth, hlive, hstate, hstale]
  split
  case isTrue hdelta =>
    congr 1
    funext other
    simp [hdelta, Function.update_apply]
  case isFalse hother =>
    congr 1
    funext other
    simp [Ne.symm hother]

theorem popStale_depth (event : MarketEvent) :
    (supervisor.popStale event).depth =
      match event with
      | .delta delta => { supervisor.depth with
          consecutiveStaleCounts := Function.update supervisor.depth.consecutiveStaleCounts
            delta.metadata.instrument 0 }
      | _ => supervisor.depth := by
  rw [supervisor.depth_recount (supervisor.popStale event) (staleKey event) 0 rfl rfl rfl]
  cases event <;> rfl

theorem reject_depth (event : MarketEvent) (rejection : IngestionRejection) (recycle : Bool) :
    (supervisor.reject event rejection recycle).1.depth =
      match event with
      | .delta delta => (supervisor.depth.reject (.delta delta) rejection recycle).1
      | _ => supervisor.depth := by
  by_cases hcounts : recycle = true ∧ rejection = .sourceTooOld ∧ isRecyclable event = true
  · set count := supervisor.consecutiveStaleCounts (staleKey event) + 1 with hcount
    have hafter : (supervisor.reject event rejection recycle).1.depth =
        if (staleKey event).2 = .orderBookDelta then
          { supervisor.depth with
            consecutiveStaleCounts :=
              Function.update supervisor.depth.consecutiveStaleCounts (staleKey event).1
                (if supervisor.live.staleStreamRecycleThreshold ≤ count then 0 else count) }
        else supervisor.depth := by
      have hreject : (supervisor.reject event rejection recycle).1.live = supervisor.live ∧
          (supervisor.reject event rejection recycle).1.state = supervisor.state := by
        unfold reject
        dsimp only
        rw [if_pos hcounts]
        split <;> exact ⟨rfl, rfl⟩
      refine supervisor.depth_recount _ _ _ hreject.1 hreject.2 ?_
      unfold reject
      dsimp only
      rw [if_pos hcounts]
      split
      case isTrue hreached =>
        rw [if_pos (show supervisor.live.staleStreamRecycleThreshold ≤ count from hreached)]
        rfl
      case isFalse hbelow =>
        rw [if_neg (show ¬ supervisor.live.staleStreamRecycleThreshold ≤ count from hbelow)]
        rfl
    rw [hafter]
    cases event with
    | delta delta =>
      dsimp only
      rw [if_pos (show (staleKey (.delta delta)).2 = .orderBookDelta from rfl)]
      simp only [DepthSupervisor.reject, if_pos (And.intro hcounts.1 hcounts.2.1)]
      split
      case isTrue hreached =>
        rw [if_pos (show supervisor.depth.staleStreamRecycleThreshold ≤
          supervisor.depth.consecutiveStaleCounts delta.metadata.instrument + 1 from hreached)]
        rfl
      case isFalse hbelow =>
        rw [if_neg (show ¬ supervisor.depth.staleStreamRecycleThreshold ≤
          supervisor.depth.consecutiveStaleCounts delta.metadata.instrument + 1 from hbelow)]
        rfl
    | _ => exact if_neg (fun h => by cases h)
  · have hafter : (supervisor.reject event rejection recycle).1.depth = supervisor.depth := by
      unfold reject
      dsimp only
      rw [if_neg hcounts]
      rfl
    rw [hafter]
    cases event with
    | delta delta =>
      have hnot : ¬(recycle = true ∧ rejection = .sourceTooOld) := fun h =>
        hcounts ⟨h.1, h.2, rfl⟩
      simp only [DepthSupervisor.reject, if_neg hnot]
    | _ => rfl

theorem reject_candles (event : MarketEvent) (rejection : IngestionRejection) (recycle : Bool) :
    (supervisor.reject event rejection recycle).1.candles = supervisor.candles := by
  unfold reject
  dsimp only
  split
  · split <;> rfl
  · rfl

theorem backfillCandleGap_parts (event : Candle) (fetched : Option (List Candle)) :
    (supervisor.backfillCandleGap event fetched).1.depth = supervisor.depth ∧
      match supervisor.candles.backfillCandleGap event fetched with
      | .error escaped => (supervisor.backfillCandleGap event fetched).2 = .error escaped ∧
        (supervisor.backfillCandleGap event fetched).1.candles = supervisor.candles
      | .ok store => (supervisor.backfillCandleGap event fetched).2 = .ok () ∧
        (supervisor.backfillCandleGap event fetched).1.candles =
          { supervisor.candles with candles := store } := by
  have hlatest : supervisor.candles.candles.latest event.key =
    supervisor.state.candles.latest event.key := rfl
  unfold backfillCandleGap CandleSupervisor.backfillCandleGap
  rw [hlatest]
  cases supervisor.state.candles.latest event.key with
  | none => exact ⟨rfl, rfl, rfl⟩
  | some previous =>
    dsimp only
    cases intervalDuration event.interval with
    | none => exact ⟨rfl, rfl, rfl⟩
    | some duration =>
      dsimp only
      by_cases hnext : event.openTime ≤ previous.openTime + duration
      · simp only [if_pos hnext]
        exact ⟨trivial, trivial, trivial⟩
      · simp only [if_neg hnext]
        cases fetched with
        | none => exact ⟨rfl, rfl, rfl⟩
        | some candles =>
          obtain ⟨hcandles, hbooks⟩ := applyMany_candles supervisor.state candles
          refine ⟨?_, rfl, ?_⟩
          · simp only [depth, hbooks]
          · simp only [LiveSupervisor.candles, hcandles]

variable {call supervisor}

theorem processEvent_of_rejected {received : Received} {recycle : Bool}
    {rejection : IngestionRejection}
    (h : rejectionReason supervisor.live.ingestionPolicy received.event = .ok (some rejection)) :
    supervisor.processEvent call received recycle =
      supervisor.receive.reject received.event rejection recycle := by
  unfold processEvent
  dsimp only
  rw [show rejectionReason supervisor.receive.live.ingestionPolicy received.event = _ from h]

theorem processEvent_of_admitted {received : Received} {recycle : Bool}
    (h : rejectionReason supervisor.live.ingestionPolicy received.event = .ok none) :
    supervisor.processEvent call received recycle =
      (supervisor.receive.popStale received.event).admitted call received recycle := by
  unfold processEvent
  dsimp only
  rw [show rejectionReason supervisor.receive.live.ingestionPolicy received.event = _ from h]

theorem admitted_of_noncandle {received : Received} {recycle : Bool}
    (h : candle? received.event = none) :
    supervisor.admitted call received recycle = supervisor.deliver call received recycle := by
  unfold admitted
  split
  case h_1 candle hevent =>
    rw [hevent] at h
    cases h
  case h_2 => rfl

theorem processEvent_delta {received : Received} {recycle : Bool} {delta : OrderBookDelta}
    (hevent : received.event = .delta delta)
    (hanswered : ∀ snapshot ∈ received.book,
      snapshot.metadata.instrument = delta.metadata.instrument) :
    (supervisor.processEvent call received recycle).1.depth =
        (supervisor.depth.processEvent (.delta delta) recycle received.book).1 ∧
      (supervisor.processEvent call received recycle).1.candles = supervisor.candles := by
  have hreason : rejectionReason supervisor.live.ingestionPolicy received.event =
      .ok (supervisor.live.ingestionPolicy.rejectionReason delta.metadata) := by
    rw [hevent]
    rfl
  have hpart : supervisor.depth.ingestionPolicy.rejectionReason (DepthEvent.delta delta).metadata =
    supervisor.live.ingestionPolicy.rejectionReason delta.metadata := rfl
  cases hpolicy : supervisor.live.ingestionPolicy.rejectionReason delta.metadata with
  | some rejection =>
    rw [hpolicy] at hreason hpart
    rw [processEvent_of_rejected hreason, reject_depth, reject_candles, hevent]
    simp only [DepthSupervisor.processEvent, hpart]
    exact ⟨rfl, rfl⟩
  | none =>
    rw [hpolicy] at hreason hpart
    have hnone : candle? received.event = none := by rw [hevent]; rfl
    obtain ⟨hdepth, hcandles⟩ := (supervisor.receive.popStale received.event).deliver_delta call
      received recycle delta hevent hanswered
    rw [processEvent_of_admitted hreason, admitted_of_noncandle hnone, hdepth, hcandles]
    have hpopped := supervisor.receive.popStale_depth received.event
    rw [hevent] at hpopped ⊢
    refine ⟨?_, rfl⟩
    rw [hpopped]
    simp only [DepthSupervisor.processEvent, hpart]
    change (match supervisor.state.books.depth.applyDelta delta with
      | (state, .error (.orderBookOutOfSync _)) => _
      | (state, _) => _) = _
    rcases hcall : supervisor.state.books.depth.applyDelta delta with
      ⟨state, (message | message) | applied⟩
    · have hcall' : supervisor.depth.state.applyDelta delta =
        (state, .error (.orderBookOutOfSync message)) := hcall
      simp only [hcall']
      cases recycle <;> rfl
    · have hcall' : supervisor.depth.state.applyDelta delta =
        (state, .error (.valueError message)) := hcall
      simp only [hcall']
      rfl
    · have hcall' : supervisor.depth.state.applyDelta delta = (state, .ok applied) := hcall
      simp only [hcall']
      rfl

theorem processEvent_snapshot {received : Received} {recycle : Bool}
    {snapshot : OrderBookSnapshot} (hevent : received.event = .snapshot snapshot) :
    (supervisor.processEvent call received recycle).1.depth =
        (supervisor.depth.processEvent (.snapshot snapshot) recycle received.book).1 ∧
      (supervisor.processEvent call received recycle).1.candles = supervisor.candles := by
  have hreason : rejectionReason supervisor.live.ingestionPolicy received.event =
      .ok (supervisor.live.ingestionPolicy.rejectionReason snapshot.metadata) := by
    rw [hevent]
    rfl
  have hpart : supervisor.depth.ingestionPolicy.rejectionReason
      (DepthEvent.snapshot snapshot).metadata =
    supervisor.live.ingestionPolicy.rejectionReason snapshot.metadata := rfl
  cases hpolicy : supervisor.live.ingestionPolicy.rejectionReason snapshot.metadata with
  | some rejection =>
    rw [hpolicy] at hreason hpart
    rw [processEvent_of_rejected hreason, reject_depth, reject_candles, hevent]
    simp only [DepthSupervisor.processEvent, hpart]
    exact ⟨rfl, rfl⟩
  | none =>
    rw [hpolicy] at hreason hpart
    have hnone : candle? received.event = none := by rw [hevent]; rfl
    obtain ⟨hdepth, hcandles⟩ := (supervisor.receive.popStale received.event).deliver_snapshot
      call received recycle snapshot hevent
    rw [processEvent_of_admitted hreason, admitted_of_noncandle hnone, hdepth, hcandles]
    have hpopped := supervisor.receive.popStale_depth received.event
    rw [hevent] at hpopped ⊢
    refine ⟨?_, rfl⟩
    rw [hpopped]
    simp only [DepthSupervisor.processEvent, hpart]
    split <;> rfl

theorem processEvent_candle {received : Received} {recycle : Bool} {candle : Candle}
    (hevent : received.event = .candle candle) :
    (supervisor.processEvent call received recycle).1.depth = supervisor.depth ∧
      (supervisor.processEvent call received recycle).1.candles =
        (supervisor.candles.processEvent candle received.candles).1 := by
  have hreason : rejectionReason supervisor.live.ingestionPolicy received.event =
      candleRejectionReason supervisor.live.ingestionPolicy candle := by
    rw [hevent]
    rfl
  have hpart : candleRejectionReason supervisor.candles.ingestionPolicy candle =
    candleRejectionReason supervisor.live.ingestionPolicy candle := rfl
  rcases hpolicy : candleRejectionReason supervisor.live.ingestionPolicy candle with
    raised | (_ | rejection)
  · rw [hpolicy] at hreason hpart
    unfold processEvent
    dsimp only
    rw [show rejectionReason supervisor.receive.live.ingestionPolicy received.event = _
      from hreason]
    simp only [CandleSupervisor.processEvent, hpart]
    exact ⟨rfl, rfl⟩
  · rw [hpolicy] at hreason hpart
    have hpopped := supervisor.receive.popStale_depth received.event
    set popped := supervisor.receive.popStale received.event with hdef
    have hpoppedCandles : popped.candles = supervisor.candles := rfl
    obtain ⟨hdepth, hbackfill⟩ := popped.backfillCandleGap_parts candle received.candles
    rw [hevent] at hpopped
    rw [processEvent_of_admitted hreason, ← hdef]
    unfold admitted
    simp only [hevent]
    rcases hgap : popped.backfillCandleGap candle received.candles with ⟨after, escaped | done⟩
    · rw [hgap] at hdepth hbackfill
      refine ⟨hdepth.trans hpopped, ?_⟩
      rw [hpoppedCandles] at hbackfill
      simp only [CandleSupervisor.processEvent, hpart]
      cases hpartGap : supervisor.candles.backfillCandleGap candle received.candles with
      | error escaped' =>
        rw [hpartGap] at hbackfill
        exact hbackfill.2
      | ok store =>
        rw [hpartGap] at hbackfill
        cases hbackfill.1
    · rw [hgap] at hdepth hbackfill
      obtain ⟨hdelivered, hcandles⟩ := after.deliver_candle call received recycle candle hevent
      refine ⟨hdelivered.trans (hdepth.trans hpopped), hcandles.trans ?_⟩
      rw [hpoppedCandles] at hbackfill
      simp only [CandleSupervisor.processEvent, hpart]
      cases hpartGap : supervisor.candles.backfillCandleGap candle received.candles with
      | error escaped' =>
        rw [hpartGap] at hbackfill
        cases hbackfill.1
      | ok store =>
        rw [hpartGap] at hbackfill
        have hstore : after.state.candles = store :=
          congrArg CandleSupervisor.candles hbackfill.2
        rw [hbackfill.2, hstore]
  · rw [hpolicy] at hreason hpart
    rw [processEvent_of_rejected hreason, reject_depth, reject_candles, hevent]
    simp only [CandleSupervisor.processEvent, hpart]
    exact ⟨rfl, rfl⟩

theorem processEvent_other {received : Received} {recycle : Bool}
    (hevent : IsOther received.event) :
    (supervisor.processEvent call received recycle).1.depth = supervisor.depth ∧
      (supervisor.processEvent call received recycle).1.candles = supervisor.candles := by
  have hreason : rejectionReason supervisor.live.ingestionPolicy received.event =
      .ok (supervisor.live.ingestionPolicy.rejectionReason received.event.metadata) := by
    cases h : received.event with
    | candle candle =>
      rw [h] at hevent
      exact hevent.elim
    | _ => rfl
  have hnone : candle? received.event = none := by
    cases h : received.event with
    | candle candle =>
      rw [h] at hevent
      exact hevent.elim
    | _ => rfl
  have hreject (rejection : IngestionRejection) :
      (supervisor.receive.reject received.event rejection recycle).1.depth = supervisor.depth := by
    rw [reject_depth]
    cases h : received.event with
    | delta delta =>
      rw [h] at hevent
      exact hevent.elim
    | _ => rfl
  have hpopped : (supervisor.receive.popStale received.event).depth = supervisor.depth := by
    rw [popStale_depth]
    cases h : received.event with
    | delta delta =>
      rw [h] at hevent
      exact hevent.elim
    | _ => rfl
  cases hpolicy : supervisor.live.ingestionPolicy.rejectionReason received.event.metadata with
  | some rejection =>
    rw [hpolicy] at hreason
    rw [processEvent_of_rejected hreason]
    exact ⟨hreject rejection, supervisor.receive.reject_candles _ _ _⟩
  | none =>
    rw [hpolicy] at hreason
    obtain ⟨hdepth, hcandles⟩ :=
      (supervisor.receive.popStale received.event).deliver_other call received recycle hevent
    rw [processEvent_of_admitted hreason, admitted_of_noncandle hnone]
    exact ⟨hdepth.trans hpopped, hcandles⟩

variable (call supervisor)

theorem processEvent_parts {arrival : Arrival} (hanswered : Answered arrival) :
    (supervisor.processEvent call arrival.1 arrival.2).1.depth =
        run DepthSupervisor.step supervisor.depth (depthInput arrival).toList ∧
      (supervisor.processEvent call arrival.1 arrival.2).1.candles =
        run (fun candles input => (candles.processEvent input.1 input.2).1) supervisor.candles
          (candleInput arrival).toList := by
  cases hevent : arrival.1.event with
  | delta delta =>
    simp only [depthInput, candleInput, candle?, hevent]
    refine processEvent_delta hevent fun snapshot hmem => ?_
    have h := hanswered snapshot hmem
    rwa [hevent] at h
  | snapshot snapshot =>
    simp only [depthInput, candleInput, candle?, hevent]
    exact processEvent_snapshot hevent
  | candle candle =>
    simp only [depthInput, candleInput, candle?, hevent]
    exact processEvent_candle hevent
  | _ =>
    simp only [depthInput, candleInput, candle?, hevent]
    exact processEvent_other (by rw [hevent]; trivial)

theorem step_parts (arrival : Arrival) :
    (supervisor.step call arrival).depth =
        (supervisor.processEvent call arrival.1 arrival.2).1.depth ∧
      (supervisor.step call arrival).candles =
        (supervisor.processEvent call arrival.1 arrival.2).1.candles := by
  unfold step
  split
  case h_1 after instrument heq =>
    rw [heq]
    exact ⟨rfl, rfl⟩
  case h_2 after outcome hother heq =>
    rw [heq]
    exact ⟨rfl, rfl⟩

/-- In every run, whatever the handler does and in whatever order events of all kinds arrive, the
books and their stale counts are those of the supervisor of depth over the depth events, and the
windows and the candles handed over are those of the supervisor of candles over the candles. -/
theorem run_projects (call : EventHandler settings H) (supervisor : LiveSupervisor settings H)
    (arrivals : List Arrival) (hanswered : ∀ arrival ∈ arrivals, Answered arrival) :
    (run (step call) supervisor arrivals).depth =
        run DepthSupervisor.step supervisor.depth (arrivals.filterMap depthInput) ∧
      (run (step call) supervisor arrivals).candles =
        run (fun candles input => (candles.processEvent input.1 input.2).1) supervisor.candles
          (arrivals.filterMap candleInput) := by
  induction arrivals generalizing supervisor with
  | nil => exact ⟨rfl, rfl⟩
  | cons arrival arrivals ih =>
    obtain ⟨hdepth, hcandles⟩ := step_parts call supervisor arrival
    obtain ⟨hpartDepth, hpartCandles⟩ :=
      processEvent_parts call supervisor (hanswered arrival List.mem_cons_self)
    obtain ⟨ihdepth, ihcandles⟩ := ih (supervisor.step call arrival) fun later hmem =>
      hanswered later (List.mem_cons_of_mem _ hmem)
    simp only [List.filterMap_eq_flatMap_toList, List.flatMap_cons] at ihdepth ihcandles ⊢
    rw [run_cons, run_append, run_append, ← hpartDepth, ← hpartCandles, ← hdepth,
      ← hcandles]
    exact ⟨ihdepth, ihcandles⟩

theorem default_threshold_ge : 10 ≤ 100 := by decide

def defaultSupervisor : LiveSupervisor defaultSettings Unit :=
  start { defaultLive with threshold_ge := default_threshold_ge } (.new defaultSettings) ()

def ignoring : EventHandler defaultSettings Unit := fun _ _ _ => ((), false)

/-- A gap is resynchronized, and the handler is given both snapshots. -/
theorem run_projects_of_gapItems :
    let arrivals := gapItems.map fun received => (received, false)
    let after := run (step ignoring) defaultSupervisor arrivals
    after.depth = run DepthSupervisor.step defaultSupervisor.depth (arrivals.filterMap depthInput) ∧
    after.candles =
      run (fun candles input => (candles.processEvent input.1 input.2).1) defaultSupervisor.candles
        (arrivals.filterMap candleInput) ∧
    after.stats.orderBookResyncs = 1 ∧ after.handled.length = 2 := by
  intro arrivals after
  obtain ⟨hdepth, hcandles⟩ := run_projects ignoring defaultSupervisor arrivals (by
    intro arrival hmem snapshot hsnapshot
    simp only [arrivals, gapItems, List.map_cons, List.map_nil, List.mem_cons, List.not_mem_nil,
      or_false] at hmem
    rcases hmem with rfl | rfl
    · cases hsnapshot
    · obtain rfl := Option.mem_some_iff.mp hsnapshot
      rfl)
  exact ⟨hdepth, hcandles, by decide +kernel, by decide +kernel⟩

variable (surroundings : Surroundings settings)

/-- The handler that evaluates the definitions of a session. -/
def evaluating : EventHandler settings (Session settings) := fun session state event =>
  ({ session with state } : Session settings).evaluateEvent surroundings event
    event.metadata.receivedAt

def session (supervisor : LiveSupervisor settings (Session settings)) : Session settings :=
  { supervisor.handler with state := supervisor.state }

variable {surroundings} {supervisor : LiveSupervisor settings (Session settings)}

theorem applied_session (event : MarketEvent) (bookWasSynchronized : Bool) :
    (supervisor.applied (evaluating surroundings) event bookWasSynchronized).1.session =
      (supervisor.session.handleEvent surroundings event).1 := by
  have hbridge (after : LiveSupervisor settings (Session settings)) (instrument : Instrument) :
      (after.recordOrderBookBridge instrument).session = after.session := by
    unfold recordOrderBookBridge
    dsimp only
    split_ifs <;> rfl
  unfold applied
  dsimp only
  split
  · rfl
  split
  · exact hbridge _ _
  · rfl

theorem resyncOrderBook_session (instrument : Instrument) (fetched : Option OrderBookSnapshot) :
    (supervisor.resyncOrderBook (evaluating surroundings) instrument fetched).1.session =
      (supervisor.session.resyncOrderBook surroundings supervisor.live.toLiveSettings instrument
        fetched).1 := by
  cases fetched with
  | none => rfl
  | some snapshot =>
    unfold resyncOrderBook Session.resyncOrderBook
    dsimp only [session]
    rcases supervisor.state.applyOrderBookSnapshot snapshot
      (supervisor.live.requiresStreamOrderBookBootstrap instrument) with ⟨state, raised | applied⟩
    · rfl
    · cases supervisor.live.requiresStreamOrderBookBootstrap instrument <;> rfl

theorem deliver_session (received : Received) :
    (supervisor.deliver (evaluating surroundings) received false).1.session =
      (supervisor.session.deliver surroundings supervisor.live.toLiveSettings received).1 := by
  unfold deliver Session.deliver
  dsimp only [session]
  rcases supervisor.state.apply received.event with ⟨state, raised | taken⟩
  · cases raised with
    | orderBookOutOfSync message =>
      cases hevent : received.event with
      | delta delta => exact resyncOrderBook_session _ _
      | _ => rfl
    | valueError message => cases received.event <;> rfl
  · cases taken with
    | false => cases received.event <;> rfl
    | true => exact applied_session _ _

theorem backfillCandleGap_session (supervisor : LiveSupervisor settings (Session settings))
    (event : Candle) (fetched : Option (List Candle)) :
    match Session.backfillCandleGap supervisor.state event fetched with
    | .error _ => (∃ escaped, (supervisor.backfillCandleGap event fetched).2 = .error escaped) ∧
      (supervisor.backfillCandleGap event fetched).1.session = supervisor.session
    | .ok state => (supervisor.backfillCandleGap event fetched).2 = .ok () ∧
      (supervisor.backfillCandleGap event fetched).1.live = supervisor.live ∧
      (supervisor.backfillCandleGap event fetched).1.session =
        { supervisor.session with state } := by
  unfold backfillCandleGap Session.backfillCandleGap
  cases supervisor.state.candles.latest event.key with
  | none => exact ⟨rfl, rfl, rfl⟩
  | some previous =>
    dsimp only
    cases intervalDuration event.interval with
    | none => exact ⟨⟨_, rfl⟩, rfl⟩
    | some duration =>
      dsimp only
      by_cases hnext : event.openTime ≤ previous.openTime + duration
      · simp only [if_pos hnext]
        exact ⟨trivial, trivial, rfl⟩
      · simp only [if_neg hnext]
        cases fetched with
        | none => exact ⟨⟨_, rfl⟩, rfl⟩
        | some candles => exact ⟨rfl, rfl, rfl⟩

theorem processEvent_session (received : Received) :
    (supervisor.processEvent (evaluating surroundings) received false).1.session =
      supervisor.session.liveStep surroundings supervisor.live.toLiveSettings received := by
  have hreject (rejection : IngestionRejection) :
      (supervisor.receive.reject received.event rejection false).1.session =
        supervisor.session := by
    unfold reject
    dsimp only
    rw [if_neg (by simp)]
    rfl
  unfold Session.liveStep Session.processEvent
  rcases hpolicy : rejectionReason supervisor.live.ingestionPolicy received.event with
    raised | (_ | rejection)
  · unfold processEvent
    dsimp only
    rw [show rejectionReason supervisor.receive.live.ingestionPolicy received.event = _
      from hpolicy]
    rfl
  · rw [processEvent_of_admitted hpolicy]
    set popped := supervisor.receive.popStale received.event with hdef
    have hpopped : popped.session = supervisor.session := rfl
    have hlive : popped.live = supervisor.live := rfl
    cases hevent : received.event with
    | candle candle =>
      have hbackfill := popped.backfillCandleGap_session candle received.candles
      have hstate : popped.state = supervisor.session.state := rfl
      rw [hstate] at hbackfill
      unfold admitted
      simp only [hevent]
      rcases hgap : popped.backfillCandleGap candle received.candles with ⟨after, escaped | done⟩
      · rw [hgap] at hbackfill
        cases hpart : Session.backfillCandleGap supervisor.session.state candle
            received.candles with
        | error failure =>
          rw [hpart] at hbackfill
          exact hbackfill.2
        | ok state =>
          rw [hpart] at hbackfill
          cases hbackfill.1
      · rw [hgap] at hbackfill
        cases hpart : Session.backfillCandleGap supervisor.session.state candle
            received.candles with
        | error failure =>
          rw [hpart] at hbackfill
          obtain ⟨⟨escaped, hescaped⟩, -⟩ := hbackfill
          cases hescaped
        | ok state =>
          rw [hpart] at hbackfill
          obtain ⟨-, hafter, hsession⟩ := hbackfill
          dsimp only
          rw [deliver_session, hafter, hsession]
          rfl
    | _ =>
      rw [admitted_of_noncandle (by rw [hevent]; rfl), deliver_session]
      rfl
  · rw [processEvent_of_rejected hpolicy, hreject]

/-- A run without recycling is a run of the live driver, with its engine as the handler. -/
theorem run_session (surroundings : Surroundings settings)
    (supervisor : LiveSupervisor settings (Session settings)) (items : List Received) :
    (run (step (evaluating surroundings)) supervisor
        (items.map fun received => (received, false))).session =
      run (Session.liveStep surroundings supervisor.live.toLiveSettings) supervisor.session
        items := by
  induction items generalizing supervisor with
  | nil => rfl
  | cons received items ih =>
    have hlive := (supervisor.policed_step (evaluating surroundings) (received, false)).live
    have hstep : (supervisor.step (evaluating surroundings) (received, false)).session =
        supervisor.session.liveStep surroundings supervisor.live.toLiveSettings received := by
      rw [← processEvent_session]
      unfold step
      split
      case h_1 after instrument heq =>
        rw [heq]
        rfl
      case h_2 after outcome hother heq =>
        rw [heq]
    rw [List.map_cons, run_cons, run_cons, ih, hlive, hstep]

end LiveSupervisor

end ChainQuantStudio.Signals
