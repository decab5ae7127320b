import ChainQuantStudio.State.DepthStream
import Mathlib.Algebra.Order.Field.Rat
import Mathlib.Tactic.NormNum

/-!
# Depth messages through the supervisor

The part of the supervisor that handles depth: the ingestion policy, the order books of the market
state, and `process_event` with the resynchronization it starts when a delta does not connect. A
snapshot fetched over REST is an input of the step, absent where the request fails.
-/

namespace ChainQuantStudio.State.Supervisor

open Data Exchanges.Depth OrderBook Run

inductive IngestionRejection
  | sourceTooOld
  | sourceInFuture
  deriving DecidableEq, Repr

structure IngestionPolicy where
  maxSourceAgeSeconds : ℚ := 120
  maxFutureSkewSeconds : ℚ := 5
  age_pos : 0 < maxSourceAgeSeconds
  skew_nonneg : 0 ≤ maxFutureSkewSeconds

theorem IngestionPolicy.default_age_pos : (0 : ℚ) < 120 := by norm_num

theorem IngestionPolicy.default_skew_nonneg : (0 : ℚ) ≤ 5 := by norm_num

def totalSeconds (microseconds : ℤ) : ℚ := microseconds / 1000000

/-- `rejection_reason` of an event that is no candle. -/
def IngestionPolicy.rejectionReason (policy : IngestionPolicy) (metadata : EventMetadata) :
    Option IngestionRejection :=
  if metadata.timestampQuality = .receiveOnly then none
  else
    let sourceAge := totalSeconds (metadata.receivedAt - metadata.exchangeTimestamp)
    let allowedAge :=
      if metadata.timestampQuality = .estimated then policy.maxSourceAgeSeconds * 2
      else policy.maxSourceAgeSeconds
    if allowedAge < sourceAge then some .sourceTooOld
    else if sourceAge < -policy.maxFutureSkewSeconds then some .sourceInFuture
    else none

structure DepthState where
  orderBookDepth : ℕ
  orderBooks : Instrument → Option LocalOrderBook
  depth_pos : 0 < orderBookDepth
  keyed : ∀ instrument book, orderBooks instrument = some book → book.instrument = instrument

namespace DepthState

theorem default_depth_pos : 0 < 100 := by decide

theorem keyed_none (instrument : Instrument) (book : LocalOrderBook) (h : none = some book) :
    book.instrument = instrument := by
  cases h

/-- `setdefault(instrument, LocalOrderBook(instrument, depth))`. -/
def book (state : DepthState) (instrument : Instrument) : LocalOrderBook :=
  (state.orderBooks instrument).getD (.new instrument state.orderBookDepth state.depth_pos)

def withBook (state : DepthState) (book : LocalOrderBook) : DepthState :=
  { state with
    orderBooks := Function.update state.orderBooks book.instrument (some book)
    keyed := by
      intro instrument other h
      by_cases hi : instrument = book.instrument
      · subst hi
        simp only [Function.update_self, Option.some.injEq] at h
        rw [h]
      · rw [Function.update_of_ne hi] at h
        exact state.keyed instrument other h }

def invalidateOrderBook (state : DepthState) (instrument : Instrument) : DepthState :=
  match state.orderBooks instrument with
  | some book => state.withBook book.invalidate
  | none => state

def applyOrderBookSnapshot (state : DepthState) (snapshot : OrderBookSnapshot)
    (requireDeltaBridge : Bool) : DepthState × Except Raised Bool :=
  let (book, outcome) :=
    (state.book snapshot.metadata.instrument).applySnapshot snapshot requireDeltaBridge
  (state.withBook book, outcome)

/-- The `OrderBookDelta` branch of `apply`. -/
def applyDelta (state : DepthState) (delta : OrderBookDelta) : DepthState × Except Raised Bool :=
  let (book, outcome) := (state.book delta.metadata.instrument).applyDelta delta
  match outcome with
  | .error (.orderBookOutOfSync message) =>
    ((state.withBook book).invalidateOrderBook delta.metadata.instrument,
      .error (.orderBookOutOfSync message))
  | _ => (state.withBook book, outcome)

theorem book_instrument (state : DepthState) (instrument : Instrument) :
    (state.book instrument).instrument = instrument := by
  unfold book
  cases h : state.orderBooks instrument with
  | none => rfl
  | some book => exact state.keyed instrument book h

theorem book_withBook (state : DepthState) (book : LocalOrderBook) (instrument : Instrument) :
    (state.withBook book).book instrument =
      if instrument = book.instrument then book else state.book instrument := by
  by_cases hi : instrument = book.instrument
  · subst hi; simp [DepthState.book, withBook]
  · simp [DepthState.book, withBook, hi]

theorem book_invalidateOrderBook (state : DepthState) (instrument other : Instrument) :
    (state.invalidateOrderBook instrument).book other =
      if other = instrument then (state.book instrument).invalidate else state.book other := by
  unfold invalidateOrderBook
  cases h : state.orderBooks instrument with
  | none =>
    by_cases ho : other = instrument
    · subst ho; simp [book, h, LocalOrderBook.new, LocalOrderBook.invalidate]
    · simp [ho]
  | some current =>
    have hkey := state.keyed instrument current h
    simp only [book_withBook, LocalOrderBook.invalidate_instrument, hkey]
    simp [book, h]

theorem applyOrderBookSnapshot_book (state : DepthState) (snapshot : OrderBookSnapshot)
    (bridge : Bool) (instrument : Instrument) :
    (state.applyOrderBookSnapshot snapshot bridge).1.book instrument =
      if instrument = snapshot.metadata.instrument then
        (state.book instrument).step (.snapshot snapshot bridge)
      else state.book instrument := by
  set book := (state.book snapshot.metadata.instrument).step (.snapshot snapshot bridge) with hbook
  have hkey : book.instrument = snapshot.metadata.instrument := by
    rw [hbook, LocalOrderBook.step_instrument, book_instrument]
  change (state.withBook book).book instrument = _
  rw [book_withBook, hkey]
  by_cases hi : instrument = snapshot.metadata.instrument
  · rw [if_pos hi, if_pos hi, hbook, hi]
  · rw [if_neg hi, if_neg hi]

def deltaCalls (book : LocalOrderBook) (delta : OrderBookDelta) : List BookOp :=
  match (book.applyDelta delta).2 with
  | .error (.orderBookOutOfSync _) => [.delta delta, .invalidate]
  | _ => [.delta delta]

theorem applyDelta_outcome (state : DepthState) (delta : OrderBookDelta) :
    (state.applyDelta delta).2 = ((state.book delta.metadata.instrument).applyDelta delta).2 := by
  rcases h : (state.book delta.metadata.instrument).applyDelta delta with ⟨book, outcome⟩
  rcases outcome with e | b
  · cases e <;> simp [applyDelta, h]
  · simp [applyDelta, h]

theorem applyDelta_book (state : DepthState) (delta : OrderBookDelta) (instrument : Instrument) :
    (state.applyDelta delta).1.book instrument =
      if instrument = delta.metadata.instrument then
        run LocalOrderBook.step (state.book instrument) (deltaCalls (state.book instrument) delta)
      else state.book instrument := by
  rcases h : (state.book delta.metadata.instrument).applyDelta delta with ⟨book, outcome⟩
  have hkey : book.instrument = delta.metadata.instrument := by
    have hstep := LocalOrderBook.step_instrument (state.book delta.metadata.instrument)
      (.delta delta)
    rw [book_instrument] at hstep
    simpa [LocalOrderBook.step, LocalOrderBook.call, h] using hstep
  by_cases hi : instrument = delta.metadata.instrument
  · rw [if_pos hi, hi]
    rcases outcome with (m | m) | b
    · simp [applyDelta, deltaCalls, h, book_invalidateOrderBook, book_withBook, hkey,
        LocalOrderBook.step, LocalOrderBook.call]
    · simp [applyDelta, deltaCalls, h, book_withBook, hkey, LocalOrderBook.step,
        LocalOrderBook.call]
    · simp [applyDelta, deltaCalls, h, book_withBook, hkey, LocalOrderBook.step,
        LocalOrderBook.call]
  · rw [if_neg hi]
    rcases outcome with (m | m) | b <;>
      simp [applyDelta, h, book_invalidateOrderBook, book_withBook, hkey, hi]

end DepthState

structure DepthSupervisor where
  ingestionPolicy : IngestionPolicy
  staleStreamRecycleThreshold : ℕ
  requiresStreamOrderBookBootstrap : Instrument → Bool
  state : DepthState
  consecutiveStaleCounts : Instrument → ℕ

/-- What leaves `process_event` as an exception. -/
inductive Escaped
  | staleStreamBacklog (message : String)
  | orderBookStreamGap (instrument : Instrument)
  | fetchFailed
  | raised (raised : Raised)
  deriving DecidableEq, Repr

namespace DepthSupervisor

def applyOrderBookSnapshot (supervisor : DepthSupervisor) (snapshot : OrderBookSnapshot) :
    DepthSupervisor × Except Raised Bool :=
  let (state, outcome) := supervisor.state.applyOrderBookSnapshot snapshot
    (supervisor.requiresStreamOrderBookBootstrap snapshot.metadata.instrument)
  ({ supervisor with state }, outcome)

def resyncOrderBook (supervisor : DepthSupervisor) (fetched : Option OrderBookSnapshot) :
    DepthSupervisor × Except Escaped Unit :=
  match fetched with
  | none => (supervisor, .error .fetchFailed)
  | some snapshot =>
    let (supervisor, outcome) := supervisor.applyOrderBookSnapshot snapshot
    match outcome with
    | .error e => (supervisor, .error (.raised e))
    | .ok _ => (supervisor, .ok ())

def reject (supervisor : DepthSupervisor) (event : DepthEvent) (rejection : IngestionRejection)
    (recycleUnhealthyStream : Bool) : DepthSupervisor × Except Escaped Unit :=
  match event with
  | .snapshot _ => (supervisor, .ok ())
  | .delta delta =>
    if recycleUnhealthyStream ∧ rejection = .sourceTooOld then
      let instrument := delta.metadata.instrument
      let staleCount := supervisor.consecutiveStaleCounts instrument + 1
      let threshold := supervisor.staleStreamRecycleThreshold
      let recount (count : ℕ) : DepthSupervisor :=
        { supervisor with
          consecutiveStaleCounts :=
            Function.update supervisor.consecutiveStaleCounts instrument count }
      if threshold ≤ staleCount then
        (recount 0, .error (.staleStreamBacklog
          s!"Stale OrderBookDelta backlog reached {threshold} events"))
      else (recount staleCount, .ok ())
    else (supervisor, .ok ())

def processEvent (supervisor : DepthSupervisor) (event : DepthEvent)
    (recycleUnhealthyStream : Bool) (fetched : Option OrderBookSnapshot) :
    DepthSupervisor × Except Escaped Unit :=
  match supervisor.ingestionPolicy.rejectionReason event.metadata with
  | some rejection => supervisor.reject event rejection recycleUnhealthyStream
  | none =>
    match event with
    | .snapshot snapshot =>
      let (state, outcome) := supervisor.state.applyOrderBookSnapshot snapshot false
      match outcome with
      | .error e => ({ supervisor with state }, .error (.raised e))
      | .ok _ => ({ supervisor with state }, .ok ())
    | .delta delta =>
      let (state, outcome) := supervisor.state.applyDelta delta
      let supervisor :=
        { supervisor with
          state
          consecutiveStaleCounts :=
            Function.update supervisor.consecutiveStaleCounts delta.metadata.instrument 0 }
      match outcome with
      | .error (.orderBookOutOfSync _) =>
        if recycleUnhealthyStream then
          (supervisor, .error (.orderBookStreamGap delta.metadata.instrument))
        else supervisor.resyncOrderBook fetched
      | .error e => (supervisor, .error (.raised e))
      | .ok _ => (supervisor, .ok ())

/-- What reaches the supervisor: a depth message, a snapshot that a bootstrap or a recovery
fetched, or the invalidation of an instrument's books on a disconnect. -/
inductive Input
  | event (event : DepthEvent) (recycle : Bool) (fetched : Option OrderBookSnapshot)
  | bootstrap (snapshot : OrderBookSnapshot)
  | disconnect (instrument : Instrument)
  deriving DecidableEq, Repr

def step (supervisor : DepthSupervisor) : Input → DepthSupervisor
  | .event event recycle fetched => (supervisor.processEvent event recycle fetched).1
  | .bootstrap snapshot => (supervisor.applyOrderBookSnapshot snapshot).1
  | .disconnect instrument =>
    { supervisor with state := supervisor.state.invalidateOrderBook instrument }

/-- An input that names the updates of one instrument by their place in its stream and says where
a snapshot stands in it, or an input about other instruments. -/
inductive Delivery
  | delta (index : ℕ) (recycle : Bool) (fetched : Option (ℕ × OrderBookSnapshot))
  | snapshot (position : ℕ) (snapshot : OrderBookSnapshot) (recycle : Bool)
  | bootstrap (position : ℕ) (snapshot : OrderBookSnapshot)
  | disconnect
  | other (input : Input)
  deriving DecidableEq, Repr

def Delivery.input (instrument : Instrument) (deltas : ℕ → OrderBookDelta) : Delivery → Input
  | .delta index recycle fetched => .event (.delta (deltas index)) recycle (fetched.map Prod.snd)
  | .snapshot _ event recycle => .event (.snapshot event) recycle none
  | .bootstrap _ event => .bootstrap event
  | .disconnect => .disconnect instrument
  | .other input => input

/-- The calls on the instrument's book that a delivery makes. -/
def calls (supervisor : DepthSupervisor) (instrument : Instrument) (deltas : ℕ → OrderBookDelta) :
    Delivery → List StreamCall
  | .delta index recycle fetched =>
    match supervisor.ingestionPolicy.rejectionReason (deltas index).metadata with
    | some _ => []
    | none =>
      match ((supervisor.state.book instrument).applyDelta (deltas index)).2 with
      | .error (.orderBookOutOfSync _) =>
        match recycle, fetched with
        | false, some (position, event) =>
          [.delta index, .invalidate, .snapshot position event
            (supervisor.requiresStreamOrderBookBootstrap instrument)]
        | _, _ => [.delta index, .invalidate]
      | _ => [.delta index]
  | .snapshot position event _ =>
    match supervisor.ingestionPolicy.rejectionReason event.metadata with
    | some _ => []
    | none => [.snapshot position event false]
  | .bootstrap position event =>
    [.snapshot position event (supervisor.requiresStreamOrderBookBootstrap instrument)]
  | .disconnect => [.invalidate]
  | .other _ => []

/-- Snapshots of the instrument stand where the delivery says, and other inputs are about other
instruments. -/
def DeliveryTrue (instrument : Instrument) (deltas : ℕ → OrderBookDelta) : Delivery → Prop
  | .delta _ _ fetched => ∀ position snapshot, fetched = some (position, snapshot) →
    snapshot.metadata.instrument = instrument ∧
      CallTrue instrument deltas (.snapshot position snapshot false)
  | .snapshot position event _ | .bootstrap position event =>
    event.metadata.instrument = instrument ∧
      CallTrue instrument deltas (.snapshot position event false)
  | .disconnect => True
  | .other (.event event _ fetched) => event.metadata.instrument ≠ instrument ∧
    ∀ snapshot, fetched = some snapshot → snapshot.metadata.instrument ≠ instrument
  | .other (.bootstrap event) => event.metadata.instrument ≠ instrument
  | .other (.disconnect other) => other ≠ instrument

theorem reject_book (supervisor : DepthSupervisor) (event : DepthEvent)
    (rejection : IngestionRejection) (recycle : Bool) :
    (supervisor.reject event rejection recycle).1.state = supervisor.state := by
  cases event with
  | snapshot event => rfl
  | delta delta =>
    simp only [reject]
    split_ifs <;> rfl

theorem resyncOrderBook_state (supervisor : DepthSupervisor)
    (fetched : Option OrderBookSnapshot) :
    (supervisor.resyncOrderBook fetched).1.state =
      match fetched with
      | none => supervisor.state
      | some snapshot => (supervisor.applyOrderBookSnapshot snapshot).1.state := by
  cases fetched with
  | none => rfl
  | some snapshot =>
    rcases h : supervisor.applyOrderBookSnapshot snapshot with ⟨after, outcome⟩
    cases outcome <;> simp [resyncOrderBook, h]

theorem processEvent_snapshot_state (supervisor : DepthSupervisor) (event : OrderBookSnapshot)
    (recycle : Bool) (fetched : Option OrderBookSnapshot) :
    (supervisor.processEvent (.snapshot event) recycle fetched).1.state =
      match supervisor.ingestionPolicy.rejectionReason event.metadata with
      | some _ => supervisor.state
      | none => (supervisor.state.applyOrderBookSnapshot event false).1 := by
  simp only [processEvent, DepthEvent.metadata]
  cases supervisor.ingestionPolicy.rejectionReason event.metadata with
  | some rejection => exact reject_book supervisor _ rejection recycle
  | none =>
    rcases h : supervisor.state.applyOrderBookSnapshot event false with ⟨state, outcome⟩
    cases outcome <;> rfl

theorem processEvent_delta_state (supervisor : DepthSupervisor) (delta : OrderBookDelta)
    (recycle : Bool) (fetched : Option OrderBookSnapshot) :
    (supervisor.processEvent (.delta delta) recycle fetched).1.state =
      match supervisor.ingestionPolicy.rejectionReason delta.metadata with
      | some _ => supervisor.state
      | none =>
        match supervisor.state.applyDelta delta, recycle, fetched with
        | (state, .error (.orderBookOutOfSync _)), false, some snapshot =>
          (state.applyOrderBookSnapshot snapshot
            (supervisor.requiresStreamOrderBookBootstrap snapshot.metadata.instrument)).1
        | (state, _), _, _ => state := by
  simp only [processEvent, DepthEvent.metadata]
  cases supervisor.ingestionPolicy.rejectionReason delta.metadata with
  | some rejection => exact reject_book supervisor _ rejection recycle
  | none =>
    rcases supervisor.state.applyDelta delta with ⟨state, (m | m) | b⟩
    · cases recycle with
      | true => rfl
      | false =>
        change (resyncOrderBook _ fetched).1.state = _
        rw [resyncOrderBook_state]
        cases fetched <;> rfl
    · rfl
    · rfl

theorem step_other {instrument : Instrument} {deltas : ℕ → OrderBookDelta}
    {supervisor : DepthSupervisor} {input : Input}
    (h : DeliveryTrue instrument deltas (.other input)) :
    (supervisor.step input).state.book instrument = supervisor.state.book instrument := by
  cases input with
  | event event recycle fetched =>
    cases event with
    | snapshot event =>
      have hi : event.metadata.instrument ≠ instrument := h.1
      simp only [step, processEvent_snapshot_state]
      cases supervisor.ingestionPolicy.rejectionReason event.metadata with
      | some rejection => rfl
      | none => simp [DepthState.applyOrderBookSnapshot_book, hi.symm]
    | delta delta =>
      have hi : delta.metadata.instrument ≠ instrument := h.1
      have hbook := supervisor.state.applyDelta_book delta instrument
      rw [if_neg hi.symm] at hbook
      simp only [step, processEvent_delta_state]
      cases supervisor.ingestionPolicy.rejectionReason delta.metadata with
      | some rejection => rfl
      | none =>
        rcases happly : supervisor.state.applyDelta delta with ⟨state, (m | m) | b⟩
        · rw [happly] at hbook
          cases recycle with
          | true => exact hbook
          | false =>
            cases fetched with
            | none => exact hbook
            | some snapshot =>
              have hs := h.2 snapshot rfl
              simpa [DepthState.applyOrderBookSnapshot_book, hs.symm] using hbook
        · rw [happly] at hbook
          exact hbook
        · rw [happly] at hbook
          exact hbook
  | bootstrap event =>
    have hi : event.metadata.instrument ≠ instrument := h
    simp [step, applyOrderBookSnapshot, DepthState.applyOrderBookSnapshot_book, hi.symm]
  | disconnect other =>
    have hi : other ≠ instrument := h
    simp [step, DepthState.book_invalidateOrderBook, hi.symm]

theorem step_book {instrument : Instrument} {deltas : ℕ → OrderBookDelta}
    (hkey : ∀ i, (deltas i).metadata.instrument = instrument) (supervisor : DepthSupervisor)
    {delivery : Delivery} (h : DeliveryTrue instrument deltas delivery) :
    (supervisor.step (delivery.input instrument deltas)).state.book instrument =
      run LocalOrderBook.step (supervisor.state.book instrument)
        ((supervisor.calls instrument deltas delivery).map (StreamCall.op deltas)) := by
  cases delivery with
  | delta index recycle fetched =>
    have hbook := supervisor.state.applyDelta_book (deltas index) instrument
    have houtcome := supervisor.state.applyDelta_outcome (deltas index)
    rw [if_pos (hkey index).symm, DepthState.deltaCalls] at hbook
    rw [hkey index] at houtcome
    simp only [Delivery.input, step, processEvent_delta_state, calls]
    cases supervisor.ingestionPolicy.rejectionReason (deltas index).metadata with
    | some rejection => rfl
    | none =>
      rcases happly : supervisor.state.applyDelta (deltas index) with ⟨state, (m | m) | b⟩
      · rw [happly] at houtcome hbook
        rw [← houtcome] at hbook ⊢
        cases recycle with
        | true => exact hbook
        | false =>
          cases fetched with
          | none => exact hbook
          | some fetched =>
            obtain ⟨position, event⟩ := fetched
            have hi : event.metadata.instrument = instrument := (h position event rfl).1
            change (state.applyOrderBookSnapshot event _).1.book instrument = _
            rw [DepthState.applyOrderBookSnapshot_book, if_pos hi.symm, hi]
            have hbook : state.book instrument = _ := hbook
            rw [hbook]
            rfl
      · rw [happly] at houtcome hbook
        rw [← houtcome] at hbook ⊢
        exact hbook
      · rw [happly] at houtcome hbook
        rw [← houtcome] at hbook ⊢
        exact hbook
  | snapshot position event recycle =>
    have hi : event.metadata.instrument = instrument := h.1
    simp only [Delivery.input, step, processEvent_snapshot_state, calls]
    cases supervisor.ingestionPolicy.rejectionReason event.metadata with
    | some rejection => rfl
    | none =>
      simp [DepthState.applyOrderBookSnapshot_book, hi, StreamCall.op]
  | bootstrap position event =>
    have hi : event.metadata.instrument = instrument := h.1
    simp [Delivery.input, step, applyOrderBookSnapshot, calls, StreamCall.op,
      DepthState.applyOrderBookSnapshot_book, hi]
  | disconnect =>
    simp [Delivery.input, step, calls, StreamCall.op, DepthState.book_invalidateOrderBook,
      LocalOrderBook.step, LocalOrderBook.call]
  | other input => exact step_other h

end DepthSupervisor

structure Followed where
  supervisor : DepthSupervisor
  tracked : Tracked

namespace Followed

open DepthSupervisor

variable (instrument : Instrument) (deltas : ℕ → OrderBookDelta)

def start (supervisor : DepthSupervisor) : Followed where
  supervisor := supervisor
  tracked := .new (supervisor.state.book instrument)

def step (followed : Followed) (delivery : Delivery) : Followed where
  supervisor := followed.supervisor.step (delivery.input instrument deltas)
  tracked := run (Tracked.step deltas) followed.tracked
    (followed.supervisor.calls instrument deltas delivery)

/-- Where a venue's deltas declare nothing, one that the policy lets through to a book taking
deltas is an old one or the next in line. -/
def InLine (followed : Followed) : Delivery → Prop
  | .delta index _ _ =>
    followed.supervisor.ingestionPolicy.rejectionReason (deltas index).metadata = none →
    declaresPrevious instrument.exchange = false →
    (followed.supervisor.state.book instrument).Receptive → index ≤ followed.tracked.next
  | _ => True

/-- When the book is synchronized, every update since its last accepted snapshot was applied. -/
def SkipsNone (followed : Followed) : Prop :=
  (followed.supervisor.state.book instrument).isSynchronized = true →
    followed.tracked.NoneMissed deltas

structure Keeps (followed : Followed) : Prop where
  book_eq : followed.tracked.book = followed.supervisor.state.book instrument
  follows : followed.tracked.Follows instrument deltas

variable {instrument deltas} {final : ℕ → ℤ}

theorem run_tracked_book (tracked : Tracked) (calls : List StreamCall) :
    (run (Tracked.step deltas) tracked calls).book =
      run LocalOrderBook.step tracked.book (calls.map (StreamCall.op deltas)) := by
  induction calls generalizing tracked with
  | nil => rfl
  | cons call calls ih => rw [run_cons, ih, Tracked.step_book]; rfl

theorem keeps_start {supervisor : DepthSupervisor}
    (hnew : supervisor.state.orderBooks instrument = none) :
    Keeps instrument deltas (start instrument supervisor) := by
  refine ⟨rfl, ?_⟩
  simp only [start, DepthState.book, hnew, Option.getD_none]
  exact Tracked.follows_new instrument deltas _ _

theorem calls_true {supervisor : DepthSupervisor} {delivery : Delivery}
    (h : DeliveryTrue instrument deltas delivery) :
    ∀ call ∈ supervisor.calls instrument deltas delivery, CallTrue instrument deltas call := by
  cases delivery with
  | delta index recycle fetched =>
    intro call hcall
    simp only [calls] at hcall
    split at hcall
    · simp at hcall
    · split at hcall
      · split at hcall
        · rename_i position event
          simp only [List.mem_cons, List.not_mem_nil, or_false] at hcall
          rcases hcall with rfl | rfl | rfl
          · trivial
          · trivial
          · exact (h position event rfl).2
        · simp only [List.mem_cons, List.not_mem_nil, or_false] at hcall
          rcases hcall with rfl | rfl <;> trivial
      · simp only [List.mem_cons, List.not_mem_nil, or_false] at hcall
        rw [hcall]
        trivial
  | snapshot position event recycle =>
    intro call hcall
    simp only [calls] at hcall
    split at hcall
    · simp at hcall
    · rw [List.mem_singleton.mp hcall]
      exact h.2
  | bootstrap position event =>
    intro call hcall
    rw [List.mem_singleton.mp hcall]
    exact h.2
  | disconnect =>
    intro call hcall
    rw [List.mem_singleton.mp hcall]
    trivial
  | other input => simp [calls]

theorem calls_inLine {followed : Followed} (hk : Keeps instrument deltas followed)
    {delivery : Delivery} (h : followed.InLine instrument deltas delivery) :
    Guarded (Tracked.step deltas) Tracked.NextInLine followed.tracked
      (followed.supervisor.calls instrument deltas delivery) := by
  cases delivery with
  | delta index recycle fetched =>
    simp only [calls]
    split
    · trivial
    · rename_i hnone
      have hline : followed.tracked.NextInLine (.delta index) := by
        intro hv hr
        rw [hk.follows.instrument_eq] at hv
        rw [hk.book_eq] at hr
        exact h hnone hv hr
      split
      · split
        · exact ⟨hline, trivial, trivial, trivial⟩
        · exact ⟨hline, trivial, trivial⟩
      · exact ⟨hline, trivial⟩
  | snapshot position event recycle =>
    simp only [calls]
    split <;> trivial
  | bootstrap position event => exact ⟨trivial, trivial⟩
  | disconnect => exact ⟨trivial, trivial⟩
  | other input => trivial

theorem Keeps.step (hn : NumberedBy instrument deltas final) {followed : Followed}
    (hk : Keeps instrument deltas followed) {delivery : Delivery}
    (htrue : DeliveryTrue instrument deltas delivery)
    (hline : followed.InLine instrument deltas delivery) :
    Keeps instrument deltas (followed.step instrument deltas delivery) := by
  constructor
  · simp only [Followed.step]
    rw [run_tracked_book, step_book hn.instrument_eq _ htrue, hk.book_eq]
  · exact Tracked.follows_run hn hk.follows (calls_true htrue) (calls_inLine hk hline)

theorem skips_of_not_inLine (hn : NumberedBy instrument deltas final) {followed : Followed}
    (hk : Keeps instrument deltas followed) {delivery : Delivery}
    (htrue : DeliveryTrue instrument deltas delivery)
    (hline : ¬ followed.InLine instrument deltas delivery) :
    ¬ SkipsNone instrument deltas (followed.step instrument deltas delivery) := by
  cases delivery with
  | delta index recycle fetched =>
    simp only [InLine, Classical.not_imp, not_le] at hline
    obtain ⟨hnone, hv, hr, hlt⟩ := hline
    rw [← hk.book_eq] at hr
    obtain ⟨hsync, hmissed⟩ := Tracked.missed_of_ahead hn hv hk.follows hr hlt
    have hcalls : followed.supervisor.calls instrument deltas (.delta index recycle fetched) =
        [.delta index] := by
      simp only [calls, hnone, ← hk.book_eq, Tracked.applies_ahead hn hv hk.follows hr hlt]
    intro hskips
    refine hmissed ?_
    have hbook := step_book hn.instrument_eq followed.supervisor htrue
    simp only [SkipsNone, Followed.step, hcalls, run_cons, run_nil] at hskips
    apply hskips
    rw [hbook, hcalls, ← hk.book_eq]
    rw [Tracked.step_book] at hsync
    exact hsync
  | snapshot position event recycle => exact absurd trivial hline
  | bootstrap position event => exact absurd trivial hline
  | disconnect => exact absurd trivial hline
  | other input => exact absurd trivial hline

/-- All along a run a synchronized book has skipped over no update exactly when, on a venue whose
deltas declare nothing, no delta gets to a book taking deltas ahead of the next in line. -/
theorem synchronized_skips_none_iff_inLine (instrument : Instrument)
    (messages : ℕ → DepthMessage) (received : ℕ → Instant) (deltas : ℕ → OrderBookDelta)
    (hdecodes : Decodes instrument messages received deltas) (supervisor : DepthSupervisor)
    (hnew : supervisor.state.orderBooks instrument = none) (deliveries : List Delivery)
    (htrue : ∀ delivery ∈ deliveries, DeliveryTrue instrument deltas delivery) :
    (∀ before, before <+: deliveries →
      SkipsNone instrument deltas
        (run (step instrument deltas) (start instrument supervisor) before)) ↔
      Guarded (step instrument deltas) (InLine instrument deltas) (start instrument supervisor)
        deliveries := by
  obtain ⟨final, hn⟩ := hdecodes.numberedBy
  exact always_iff_guarded (DeliveryTrue instrument deltas) (Keeps instrument deltas)
    (SkipsNone instrument deltas)
    (fun _ hk _ => hk.follows.noneMissed) (fun _ _ hk ht hl => hk.step hn ht hl)
    (fun _ _ hk ht hl => skips_of_not_inLine hn hk ht hl) (keeps_start hnew) htrue

/-! A Bybit stream whose first delta arrives two minutes late and is rejected. The second one is
applied over the hole. -/

def lateRows (i : ℕ) : BybitOrderBookRow where
  ts := 0
  u := i + 2
  seq := some (10 * i + 10)
  b := []
  a := []

def lateReceived (i : ℕ) : Instant := if i = 0 then 121000000 else 1

def bybitPerpetual : Instrument := btcUsdt .bybit .linearPerpetual

def lateDeltas (i : ℕ) : OrderBookDelta := bybitDelta bybitPerpetual (lateReceived i) (lateRows i)

theorem late_decodes :
    Decodes bybitPerpetual (fun i => .bybitOrderBook false (lateRows i)) lateReceived
      lateDeltas := by
  refine ⟨.bybit lateRows rfl (fun i => ?_) (fun i => ?_) ?_, fun i => ?_⟩
  · simp only [lateRows]; omega
  · simp only [lateRows]; omega
  · intro i j hij
    simp only [lateRows, BybitOrderBookRow.sequence, Option.getD_some]
    omega
  · have hu : (lateRows i).u ≠ 1 := by simp only [lateRows]; omega
    simp [parseDepth, hu, lateDeltas]

def emptySupervisor : DepthSupervisor where
  ingestionPolicy := { age_pos := by norm_num, skew_nonneg := by norm_num }
  staleStreamRecycleThreshold := 20
  requiresStreamOrderBookBootstrap := fun _ => false
  state :=
    { orderBookDepth := 100
      orderBooks := fun _ => none
      depth_pos := by norm_num
      keyed := by simp }
  consecutiveStaleCounts := fun _ => 0

def lateDeliveries : List Delivery :=
  [.snapshot 0 { metadata := .numbered bybitPerpetual 5 0, bids := [], asks := [] } true,
    .delta 0 true none, .delta 1 true none]

theorem lateDeliveries_true :
    ∀ delivery ∈ lateDeliveries, DeliveryTrue bybitPerpetual lateDeltas delivery := by
  intro delivery hd
  simp only [lateDeliveries, List.mem_cons, List.not_mem_nil, or_false] at hd
  rcases hd with rfl | rfl | rfl
  · refine ⟨rfl, fun _ n hn => ?_⟩
    obtain rfl : 5 = n := Option.some.inj hn
    intro i final hfinal
    obtain rfl : (lateRows i).sequence = final := Option.some.inj hfinal
    simp only [lateRows, BybitOrderBookRow.sequence, Option.getD_some]
    omega
  · simp [DeliveryTrue]
  · simp [DeliveryTrue]

theorem synchronized_skips_none_iff_inLine_of_late :
    (∀ before, before <+: lateDeliveries →
      SkipsNone bybitPerpetual lateDeltas
        (run (step bybitPerpetual lateDeltas) (start bybitPerpetual emptySupervisor) before)) ↔
      Guarded (step bybitPerpetual lateDeltas) (InLine bybitPerpetual lateDeltas)
        (start bybitPerpetual emptySupervisor) lateDeliveries :=
  synchronized_skips_none_iff_inLine bybitPerpetual _ lateReceived lateDeltas late_decodes
    emptySupervisor rfl lateDeliveries lateDeliveries_true

theorem rejected_delta_skipped_over :
    ¬ ∀ (instrument : Instrument) (messages : ℕ → DepthMessage) (received : ℕ → Instant)
      (deltas : ℕ → OrderBookDelta) (supervisor : DepthSupervisor) (deliveries : List Delivery),
      Decodes instrument messages received deltas →
      supervisor.state.orderBooks instrument = none →
      (∀ delivery ∈ deliveries, DeliveryTrue instrument deltas delivery) →
      SkipsNone instrument deltas
        (run (step instrument deltas) (start instrument supervisor) deliveries) := by
  intro h
  have hskips := h bybitPerpetual _ lateReceived lateDeltas emptySupervisor lateDeliveries
    late_decodes rfl lateDeliveries_true
  have hupdates : Updates (lateDeltas 0) := by simp [Updates, lateDeltas, bybitDelta, bybitMetadata]
  have hmem := hskips (by decide +kernel) 0 (by decide +kernel) (by decide +kernel) hupdates
  exact absurd hmem (by decide +kernel)

end Followed

end ChainQuantStudio.State.Supervisor
