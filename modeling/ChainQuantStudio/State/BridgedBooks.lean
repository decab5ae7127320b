import ChainQuantStudio.State.MarketHistories

/-!
# Books that need a bridge

Every way in which the supervisor touches a book is one of three calls of the market state: a
snapshot, a delta or an invalidation. The calls of a step are read off the state it starts from.
Along the calls of a run `CountedBooks` counts the deltas each book has taken since the snapshot it
was built from; a book whose venue needs a stream bridge should only be synchronized by one.
-/

namespace ChainQuantStudio.State.Supervisor

open Data Exchanges.Depth Market OrderBook Run

structure CountedBooks where
  books : DepthState
  deltas : Instrument → ℕ

namespace CountedBooks

variable (counted : CountedBooks)

def step : MarketOp → CountedBooks
  | .snapshot snapshot bridge =>
    let (books, outcome) := counted.books.applyOrderBookSnapshot snapshot bridge
    match outcome with
    | .ok true =>
      { books, deltas := Function.update counted.deltas snapshot.metadata.instrument 0 }
    | _ => { counted with books }
  | .delta delta =>
    let instrument := delta.metadata.instrument
    let (books, outcome) := counted.books.applyDelta delta
    match outcome with
    | .ok true =>
      { books
        deltas := Function.update counted.deltas instrument (counted.deltas instrument + 1) }
    | _ => { counted with books }
  | .invalidate instrument =>
    { counted with books := counted.books.invalidateOrderBook instrument }

def called (books : DepthState) : MarketOp → DepthState
  | .snapshot snapshot bridge => (books.applyOrderBookSnapshot snapshot bridge).1
  | .delta delta => (books.applyDelta delta).1
  | .invalidate instrument => books.invalidateOrderBook instrument

theorem step_books (op : MarketOp) : (counted.step op).books = called counted.books op := by
  cases op with
  | snapshot snapshot bridge =>
    rcases h : counted.books.applyOrderBookSnapshot snapshot bridge with ⟨books, e | b⟩
    · simp [step, called, h]
    · cases b <;> simp [step, called, h]
  | delta delta =>
    rcases h : counted.books.applyDelta delta with ⟨books, e | b⟩
    · simp [step, called, h]
    · cases b <;> simp [step, called, h]
  | invalidate instrument => rfl

/-- A synchronized book of the instruments has taken a delta since its snapshot. -/
def Bridged (needs : Instrument → Bool) : Prop :=
  ∀ instrument, needs instrument = true →
    (counted.books.book instrument).isSynchronized = true → 0 < counted.deltas instrument

def WaitsForBridge (needs : Instrument → Bool) : MarketOp → Prop
  | .snapshot snapshot false => needs snapshot.metadata.instrument = true →
      snapshot.metadata.sequenceId ≠ none →
      (counted.books.book snapshot.metadata.instrument).snapshotIsStale snapshot = true
  | _ => True

variable {counted} {needs : Instrument → Bool}

theorem Bridged.of_book {after : CountedBooks} (h : counted.Bridged needs)
    (instrument : Instrument)
    (hother : ∀ other, other ≠ instrument →
      after.books.book other = counted.books.book other ∧ after.deltas other = counted.deltas other)
    (hself : needs instrument = true → (after.books.book instrument).isSynchronized = true →
      0 < after.deltas instrument) : after.Bridged needs := by
  intro other hneeds hsync
  by_cases ho : other = instrument
  · subst ho
    exact hself hneeds hsync
  · obtain ⟨hbook, hdeltas⟩ := hother other ho
    rw [hdeltas]
    rw [hbook] at hsync
    exact h other hneeds hsync

theorem bridged_snapshot (h : counted.Bridged needs) {snapshot : OrderBookSnapshot} {bridge : Bool}
    (hwaits : counted.WaitsForBridge needs (.snapshot snapshot bridge)) :
    (counted.step (.snapshot snapshot bridge)).Bridged needs := by
  set instrument := snapshot.metadata.instrument with hinstrument
  have hkey := counted.books.book_instrument instrument
  have hbook := counted.books.applyOrderBookSnapshot_book snapshot bridge
  by_cases hstale : (counted.books.book instrument).snapshotIsStale snapshot = true
  · have hcall : (counted.books.book instrument).applySnapshot snapshot bridge =
        (counted.books.book instrument, .ok false) := by
      simp [LocalOrderBook.applySnapshot, ← hinstrument, hkey, hstale]
    have hstep : counted.step (.snapshot snapshot bridge) =
        { counted with books := (counted.books.applyOrderBookSnapshot snapshot bridge).1 } := by
      simp [step, DepthState.applyOrderBookSnapshot, ← hinstrument, hcall]
    rw [hstep]
    intro other hneeds hsync
    dsimp only at hsync
    rw [hbook other] at hsync
    split at hsync
    case isTrue ho =>
      rw [ho, LocalOrderBook.step, LocalOrderBook.call, ← hinstrument, hcall] at hsync
      exact h other hneeds (ho ▸ hsync)
    case isFalse => exact h other hneeds hsync
  · have hcall : (counted.books.book instrument).applySnapshot snapshot bridge =
        ((counted.books.book instrument).load snapshot bridge, .ok true) := by
      simp [LocalOrderBook.applySnapshot, ← hinstrument, hkey, hstale]
    have hstep : counted.step (.snapshot snapshot bridge) =
        { books := (counted.books.applyOrderBookSnapshot snapshot bridge).1
          deltas := Function.update counted.deltas instrument 0 } := by
      simp [step, DepthState.applyOrderBookSnapshot, ← hinstrument, hcall]
    rw [hstep]
    apply h.of_book instrument
    · intro other ho
      exact ⟨by rw [hbook other, if_neg ho], Function.update_of_ne ho _ _⟩
    · intro hneeds hsync
      exfalso
      dsimp only at hsync
      rw [hbook instrument, if_pos hinstrument, LocalOrderBook.step, LocalOrderBook.call, hcall]
        at hsync
      simp only [LocalOrderBook.load, Bool.and_eq_true, Bool.not_eq_true'] at hsync
      obtain ⟨hnumbered, rfl⟩ := hsync
      exact hstale (hwaits hneeds (Option.isSome_iff_ne_none.mp hnumbered))

theorem synchronized_of_deltaCalls {book : LocalOrderBook} {delta : OrderBookDelta}
    (houtcome : (book.applyDelta delta).2 ≠ .ok true)
    (hsync : (run LocalOrderBook.step book (DepthState.deltaCalls book delta)).isSynchronized =
      true) : book.isSynchronized = true := by
  obtain ⟨e, hdelta, -⟩ | ⟨message, hdelta, -⟩ | ⟨_, final, -, -, -, -, ⟨-, hdelta⟩ | ⟨-, hdelta⟩⟩ :=
    book.applyDelta_cases delta
  · cases e with
    | orderBookOutOfSync message =>
      simp [DepthState.deltaCalls, hdelta, LocalOrderBook.step, LocalOrderBook.call] at hsync
    | valueError message =>
      simpa [DepthState.deltaCalls, hdelta, LocalOrderBook.step, LocalOrderBook.call] using hsync
  · simp [DepthState.deltaCalls, hdelta, LocalOrderBook.step, LocalOrderBook.call] at hsync
  · simpa [DepthState.deltaCalls, hdelta, LocalOrderBook.step, LocalOrderBook.call] using hsync
  · exact absurd (by rw [hdelta]) houtcome

theorem bridged_delta (h : counted.Bridged needs) (delta : OrderBookDelta) :
    (counted.step (.delta delta)).Bridged needs := by
  set instrument := delta.metadata.instrument with hinstrument
  have hbook := counted.books.applyDelta_book delta
  have houtcome := counted.books.applyDelta_outcome delta
  rcases hcall : counted.books.applyDelta delta with ⟨books, outcome⟩
  rw [hcall] at hbook houtcome
  by_cases happlied : outcome = .ok true
  · have hstep : counted.step (.delta delta) =
        { books
          deltas := Function.update counted.deltas instrument (counted.deltas instrument + 1) } := by
      simp [step, hcall, happlied, hinstrument]
    rw [hstep]
    apply h.of_book instrument
    · intro other ho
      exact ⟨by rw [hbook other, if_neg ho], Function.update_of_ne ho _ _⟩
    · intro _ _
      simp
  · have hstep : counted.step (.delta delta) = { counted with books } := by
      rcases outcome with e | applied
      · simp [step, hcall]
      · cases applied with
        | true => exact absurd rfl happlied
        | false => simp [step, hcall]
    rw [hstep]
    intro other hneeds hsync
    dsimp only at hsync
    rw [hbook other] at hsync
    split at hsync
    case isTrue ho =>
      subst ho
      exact h _ hneeds (synchronized_of_deltaCalls (houtcome ▸ happlied) hsync)
    case isFalse => exact h other hneeds hsync

theorem bridged_invalidate (h : counted.Bridged needs) (instrument : Instrument) :
    (counted.step (.invalidate instrument)).Bridged needs := by
  intro other hneeds hsync
  dsimp only [step] at hsync
  rw [DepthState.book_invalidateOrderBook] at hsync
  split at hsync
  case isTrue => cases hsync
  case isFalse => exact h other hneeds hsync

theorem bridged_step {op : MarketOp} (h : counted.Bridged needs)
    (hwaits : counted.WaitsForBridge needs op) : (counted.step op).Bridged needs := by
  cases op with
  | snapshot snapshot bridge => exact bridged_snapshot h hwaits
  | delta delta => exact bridged_delta h delta
  | invalidate instrument => exact bridged_invalidate h instrument

theorem not_bridged_of_not_waits {op : MarketOp} (hwaits : ¬ counted.WaitsForBridge needs op) :
    ¬ (counted.step op).Bridged needs := by
  cases op with
  | delta delta => exact absurd trivial hwaits
  | invalidate instrument => exact absurd trivial hwaits
  | snapshot snapshot bridge =>
    cases bridge with
    | true => exact absurd trivial hwaits
    | false =>
      simp only [WaitsForBridge, Classical.not_imp, Bool.not_eq_true] at hwaits
      obtain ⟨hneeds, hnumbered, hstale⟩ := hwaits
      have hkey := counted.books.book_instrument snapshot.metadata.instrument
      have hcall : (counted.books.book snapshot.metadata.instrument).applySnapshot snapshot false =
          ((counted.books.book snapshot.metadata.instrument).load snapshot false, .ok true) := by
        simp [LocalOrderBook.applySnapshot, hkey, hstale]
      have hstep : counted.step (.snapshot snapshot false) =
          { books := (counted.books.applyOrderBookSnapshot snapshot false).1
            deltas := Function.update counted.deltas snapshot.metadata.instrument 0 } := by
        simp [step, DepthState.applyOrderBookSnapshot, hcall]
      intro h
      have hpos := h snapshot.metadata.instrument hneeds
      rw [hstep, DepthState.applyOrderBookSnapshot_book, if_pos rfl, LocalOrderBook.step,
        LocalOrderBook.call, hcall] at hpos
      simp [LocalOrderBook.load, Option.isSome_iff_ne_none.mpr hnumbered] at hpos

end CountedBooks

namespace DepthSupervisor

variable (supervisor : DepthSupervisor)

/-- `_apply_order_book_snapshot`. -/
def snapshotCall (snapshot : OrderBookSnapshot) : MarketOp :=
  .snapshot snapshot (supervisor.requiresStreamOrderBookBootstrap snapshot.metadata.instrument)

def marketCalls : Input → List MarketOp
  | .event event recycle fetched =>
    match supervisor.ingestionPolicy.rejectionReason event.metadata with
    | some _ => []
    | none =>
      match event with
      | .snapshot snapshot => [.snapshot snapshot false]
      | .delta delta =>
        match (supervisor.state.applyDelta delta).2, recycle with
        | .error (.orderBookOutOfSync _), false =>
          .delta delta :: (fetched.map supervisor.snapshotCall).toList
        | _, _ => [.delta delta]
  | .bootstrap snapshot => [supervisor.snapshotCall snapshot]
  | .disconnect instrument => [.invalidate instrument]

theorem step_state (input : Input) {counted : CountedBooks} (h : counted.books = supervisor.state) :
    (supervisor.step input).state =
      (run CountedBooks.step counted (supervisor.marketCalls input)).books := by
  cases input with
  | event event recycle fetched =>
    cases event with
    | snapshot snapshot =>
      simp only [step, processEvent_snapshot_state, marketCalls, DepthEvent.metadata]
      cases supervisor.ingestionPolicy.rejectionReason snapshot.metadata with
      | some rejection => exact h.symm
      | none =>
        simp only [run_cons, run_nil]
        rw [CountedBooks.step_books, h]
        rfl
    | delta delta =>
      simp only [step, processEvent_delta_state, marketCalls, DepthEvent.metadata]
      cases supervisor.ingestionPolicy.rejectionReason delta.metadata with
      | some rejection => exact h.symm
      | none =>
        have hcalled : (counted.step (.delta delta)).books =
            (supervisor.state.applyDelta delta).1 := by
          rw [CountedBooks.step_books, h]
          rfl
        rcases hcall : supervisor.state.applyDelta delta with ⟨books, (m | m) | b⟩
        · cases recycle with
          | true => simp only [run_cons, run_nil, hcalled, hcall]
          | false =>
            cases fetched with
            | none => simp [hcalled, hcall]
            | some snapshot =>
              simp only [Option.map_some, Option.toList_some, run_cons, run_nil, snapshotCall,
                CountedBooks.step_books _ (.snapshot _ _), hcalled, hcall]
              rfl
        · simp only [run_cons, run_nil, hcalled, hcall]
        · simp only [run_cons, run_nil, hcalled, hcall]
  | bootstrap snapshot =>
    simp only [marketCalls, run_cons, run_nil]
    rw [CountedBooks.step_books, h]
    rfl
  | disconnect instrument =>
    simp only [marketCalls, run_cons, run_nil]
    rw [CountedBooks.step_books, h]
    rfl

theorem processEvent_requires (event : DepthEvent) (recycle : Bool)
    (fetched : Option OrderBookSnapshot) :
    (supervisor.processEvent event recycle fetched).1.requiresStreamOrderBookBootstrap =
      supervisor.requiresStreamOrderBookBootstrap := by
  unfold processEvent
  split
  · cases event with
    | snapshot snapshot => rfl
    | delta delta =>
      simp only [reject]
      split_ifs <;> rfl
  · cases event with
    | snapshot snapshot =>
      dsimp only
      split <;> rfl
    | delta delta =>
      dsimp only
      split
      · split
        · rfl
        · cases fetched with
          | none => rfl
          | some snapshot =>
            simp only [resyncOrderBook, applyOrderBookSnapshot]
            split <;> rfl
      · rfl
      · rfl

end DepthSupervisor

structure Adapter where
  hasRealtimeContext : Bool
  instrumentForSymbol : Option (String → Instrument)

structure Fetches where
  candles : ℕ → Instrument → Bool
  book : ℕ → Instrument → Option OrderBookSnapshot

structure MarketDataSupervisor where
  depth : DepthSupervisor
  adapters : List Adapter
  candidateScope : Bool
  candidateSymbols : List String := []
  /-- The deltas each book has taken since the snapshot it was built from. -/
  deltas : Instrument → ℕ := fun _ => 0

/-- What a coroutine of the supervisor does to the books between two awaits. -/
inductive Action
  /-- `_warm_instrument` and the two bootstrap loops apply a snapshot they fetched. -/
  | apply (snapshot : OrderBookSnapshot)
  /-- A stream delivers a depth event. -/
  | event (event : DepthEvent) (recycle : Bool) (fetched : Option OrderBookSnapshot)
  /-- `_recover_adapter` refetches the book of an instrument. -/
  | recover (instrument : Instrument) (fetched : Option OrderBookSnapshot)
  /-- A consumer restarts and invalidates what its stream brought. -/
  | disconnect (instrument : Instrument)
  | reconcile (target : List String) (fetches : Fetches) (subscribed : Bool)

namespace MarketDataSupervisor

variable (supervisor : MarketDataSupervisor)

def counted : CountedBooks := ⟨supervisor.depth.state, supervisor.deltas⟩

def needsBridge : Instrument → Bool := supervisor.depth.requiresStreamOrderBookBootstrap

/-- The requests for one symbol at one adapter: `none` where one of them raises. -/
def prepare (fetches : Fetches) (adapter : Adapter × ℕ) (symbol : String) :
    Option (Option OrderBookSnapshot) :=
  match adapter.1.instrumentForSymbol with
  | none => none
  | some instrumentFactory =>
    let instrument := instrumentFactory symbol
    if !fetches.candles adapter.2 instrument then none
    else if adapter.1.hasRealtimeContext then (fetches.book adapter.2 instrument).map some
    else some none

def added (target : List String) : List String :=
  target.dedup.filter fun symbol => !supervisor.candidateSymbols.contains symbol

def removed (target : List String) : List String :=
  supervisor.candidateSymbols.filter fun symbol => !target.contains symbol

/-- The books that a reconciliation applies; `none` where it retains its subscriptions. -/
def preparedBooks (target : List String) (fetches : Fetches) : Option (List OrderBookSnapshot) :=
  if !supervisor.candidateScope then none
  else if (supervisor.added target).isEmpty && (supervisor.removed target).isEmpty then none
  else
    let requests := supervisor.adapters.zipIdx.flatMap fun adapter =>
      (supervisor.added target).map fun symbol => prepare fetches adapter symbol
    (requests.mapM id).map fun prepared => prepared.filterMap id

/-- The calls on the market state that an action makes. -/
def calls : Action → List MarketOp
  | .apply snapshot => supervisor.depth.marketCalls (.bootstrap snapshot)
  | .event event recycle fetched => supervisor.depth.marketCalls (.event event recycle fetched)
  | .recover instrument fetched =>
    if supervisor.needsBridge instrument then []
    else (fetched.map supervisor.depth.snapshotCall).toList
  | .disconnect instrument => supervisor.depth.marketCalls (.disconnect instrument)
  | .reconcile target fetches _ =>
    ((supervisor.preparedBooks target fetches).getD []).map fun book => .snapshot book false

def withCalls (depth : DepthSupervisor) (action : Action) : MarketDataSupervisor :=
  { supervisor with
    depth
    deltas := (run CountedBooks.step supervisor.counted (supervisor.calls action)).deltas }

def step (action : Action) : MarketDataSupervisor :=
  match action with
  | .apply snapshot => supervisor.withCalls (supervisor.depth.step (.bootstrap snapshot)) action
  | .event event recycle fetched =>
    supervisor.withCalls (supervisor.depth.step (.event event recycle fetched)) action
  | .recover instrument fetched =>
    if supervisor.needsBridge instrument then supervisor
    else supervisor.withCalls (supervisor.depth.resyncOrderBook fetched).1 action
  | .disconnect instrument =>
    supervisor.withCalls (supervisor.depth.step (.disconnect instrument)) action
  | .reconcile target fetches subscribed =>
    match supervisor.preparedBooks target fetches with
    | none => supervisor
    | some books =>
      let state := books.foldl (fun state book => (state.applyOrderBookSnapshot book false).1)
        supervisor.depth.state
      let after := supervisor.withCalls { supervisor.depth with state } action
      if subscribed then { after with candidateSymbols := target.dedup.mergeSort } else after

variable {supervisor}

theorem step_needsBridge (action : Action) :
    (supervisor.step action).needsBridge = supervisor.needsBridge := by
  cases action with
  | apply snapshot => rfl
  | event event recycle fetched => exact supervisor.depth.processEvent_requires event recycle fetched
  | recover instrument fetched =>
    simp only [step]
    split
    · rfl
    · cases fetched with
      | none => rfl
      | some snapshot =>
        simp only [needsBridge, withCalls, DepthSupervisor.resyncOrderBook,
          DepthSupervisor.applyOrderBookSnapshot]
        split <;> rfl
  | disconnect instrument => rfl
  | reconcile target fetches subscribed =>
    simp only [step]
    split
    · rfl
    · split <;> rfl

theorem run_snapshots (counted : CountedBooks) (books : List OrderBookSnapshot) :
    (run CountedBooks.step counted (books.map fun book => .snapshot book false)).books =
      books.foldl (fun state book => (state.applyOrderBookSnapshot book false).1) counted.books := by
  induction books generalizing counted with
  | nil => rfl
  | cons book books ih =>
    rw [List.map_cons, run_cons, ih, CountedBooks.step_books]
    rfl

theorem step_counted (action : Action) :
    (supervisor.step action).counted =
      run CountedBooks.step supervisor.counted (supervisor.calls action) := by
  have hcounted : ∀ depth : DepthSupervisor,
      depth.state = (run CountedBooks.step supervisor.counted (supervisor.calls action)).books →
      (supervisor.withCalls depth action).counted =
        run CountedBooks.step supervisor.counted (supervisor.calls action) := by
    intro depth h
    simp only [counted, withCalls, h]
  cases action with
  | apply snapshot => exact hcounted _ (supervisor.depth.step_state _ rfl)
  | event event recycle fetched => exact hcounted _ (supervisor.depth.step_state _ rfl)
  | recover instrument fetched =>
    simp only [step]
    split
    case isTrue hneeds => simp [calls, hneeds]
    case isFalse hneeds =>
      apply hcounted
      rw [DepthSupervisor.resyncOrderBook_state]
      cases fetched with
      | none => simp [calls, hneeds, counted]
      | some snapshot =>
        simp only [calls, if_neg hneeds, Option.map_some, Option.toList_some, run_cons, run_nil,
          CountedBooks.step_books]
        rfl
  | disconnect instrument => exact hcounted _ (supervisor.depth.step_state _ rfl)
  | reconcile target fetches subscribed =>
    simp only [step]
    split
    case h_1 hnone => simp [calls, hnone]
    case h_2 books hbooks =>
      have hstate := hcounted
        { supervisor.depth with
          state := books.foldl (fun state book => (state.applyOrderBookSnapshot book false).1)
            supervisor.depth.state }
        (by simp only [calls, hbooks, Option.getD_some, run_snapshots, counted])
      split
      · exact hstate
      · exact hstate

/-- The calls on the market state of a run. -/
def callsOf : MarketDataSupervisor → List Action → List MarketOp
  | _, [] => []
  | supervisor, action :: actions =>
    supervisor.calls action ++ callsOf (supervisor.step action) actions

/-- The action applies no numbered snapshot, other than a stale one, directly to a book that needs
a bridge. -/
def Bridges (supervisor : MarketDataSupervisor) : Action → Prop
  | .event (.snapshot snapshot) _ _ =>
    supervisor.depth.ingestionPolicy.rejectionReason snapshot.metadata = none →
      supervisor.counted.WaitsForBridge supervisor.needsBridge (.snapshot snapshot false)
  | .reconcile target fetches _ =>
    Guarded CountedBooks.step (fun counted => counted.WaitsForBridge supervisor.needsBridge)
      supervisor.counted
      (((supervisor.preparedBooks target fetches).getD []).map fun book => .snapshot book false)
  | _ => True

theorem waits_snapshotCall (counted : CountedBooks) (snapshot : OrderBookSnapshot) :
    counted.WaitsForBridge supervisor.needsBridge (supervisor.depth.snapshotCall snapshot) := by
  unfold DepthSupervisor.snapshotCall
  cases h : supervisor.depth.requiresStreamOrderBookBootstrap snapshot.metadata.instrument with
  | true => trivial
  | false =>
    intro hneeds
    rw [needsBridge, h] at hneeds
    cases hneeds

theorem guarded_calls_iff (action : Action) :
    Guarded CountedBooks.step (fun counted => counted.WaitsForBridge supervisor.needsBridge)
      supervisor.counted (supervisor.calls action) ↔ supervisor.Bridges action := by
  cases action with
  | apply snapshot => exact iff_of_true ⟨waits_snapshotCall _ snapshot, trivial⟩ trivial
  | event event recycle fetched =>
    cases event with
    | snapshot snapshot =>
      unfold calls DepthSupervisor.marketCalls Bridges
      simp only [DepthEvent.metadata]
      cases supervisor.depth.ingestionPolicy.rejectionReason snapshot.metadata with
      | some rejection => simp
      | none => simp
    | delta delta =>
      refine iff_of_true ?_ trivial
      unfold calls DepthSupervisor.marketCalls
      dsimp only
      split
      · trivial
      · split
        · refine ⟨trivial, ?_⟩
          cases fetched with
          | none => trivial
          | some snapshot => exact ⟨waits_snapshotCall _ snapshot, trivial⟩
        · exact ⟨trivial, trivial⟩
  | recover instrument fetched =>
    refine iff_of_true ?_ trivial
    simp only [calls]
    split
    · trivial
    · cases fetched with
      | none => trivial
      | some snapshot => exact ⟨waits_snapshotCall _ snapshot, trivial⟩
  | disconnect instrument => exact iff_of_true ⟨trivial, trivial⟩ trivial
  | reconcile target fetches subscribed => exact Iff.rfl

theorem guarded_callsOf_iff (actions : List Action) :
    Guarded CountedBooks.step (fun counted => counted.WaitsForBridge supervisor.needsBridge)
      supervisor.counted (callsOf supervisor actions) ↔ Guarded step Bridges supervisor actions := by
  induction actions generalizing supervisor with
  | nil => exact Iff.rfl
  | cons action actions ih =>
    have hrest := @ih (supervisor.step action)
    rw [step_needsBridge, step_counted] at hrest
    rw [callsOf, guarded_append, guarded_calls_iff, guarded_cons, hrest]

end MarketDataSupervisor

structure SupervisorSettings where
  ingestionPolicy : IngestionPolicy
  staleStreamRecycleThreshold : ℕ := 100
  requiresStreamOrderBookBootstrap : Instrument → Bool
  orderBookDepth : ℕ := 100
  adapters : List Adapter
  candidateScope : Bool
  depth_pos : 0 < orderBookDepth

def SupervisorSettings.new (settings : SupervisorSettings) : MarketDataSupervisor where
  depth :=
    { ingestionPolicy := settings.ingestionPolicy
      staleStreamRecycleThreshold := settings.staleStreamRecycleThreshold
      requiresStreamOrderBookBootstrap := settings.requiresStreamOrderBookBootstrap
      state :=
        { orderBookDepth := settings.orderBookDepth
          orderBooks := fun _ => none
          depth_pos := settings.depth_pos
          keyed := DepthState.keyed_none }
      consecutiveStaleCounts := fun _ => 0 }
  adapters := settings.adapters
  candidateScope := settings.candidateScope

namespace MarketDataSupervisor

/-- After every call of a run each synchronized book that needs a bridge has taken a delta, exactly
when no action applies a snapshot directly to such a book. -/
theorem bridged_always_iff (settings : SupervisorSettings) (actions : List Action) :
    (∀ before, before <+: callsOf settings.new actions →
      (run CountedBooks.step settings.new.counted before).Bridged settings.new.needsBridge) ↔
        Guarded step Bridges settings.new actions := by
  rw [← guarded_callsOf_iff]
  apply always_iff_guarded (fun _ => True)
    (fun counted : CountedBooks => counted.Bridged settings.new.needsBridge)
    (fun counted : CountedBooks => counted.Bridged settings.new.needsBridge)
  · exact fun _ h => h
  · exact fun _ _ h _ hwaits => CountedBooks.bridged_step h hwaits
  · exact fun _ _ _ _ hwaits => CountedBooks.not_bridged_of_not_waits hwaits
  · intro _ _ hsync
    cases hsync
  · exact fun _ _ => trivial

/-! A candidate supervisor of Binance perpetuals takes up ETH/USDT. -/

def binanceInstrument (canonicalSymbol : String) : Instrument where
  exchange := .binance
  marketType := .linearPerpetual
  exchangeSymbol := "ETHUSDT"
  canonicalSymbol := canonicalSymbol
  baseAsset := "ETH"
  quoteAsset := "USDT"
  settlementAsset := "USDT"

def candidateSettings : SupervisorSettings where
  ingestionPolicy :=
    { age_pos := IngestionPolicy.default_age_pos
      skew_nonneg := IngestionPolicy.default_skew_nonneg }
  requiresStreamOrderBookBootstrap := fun instrument => instrument.exchange = .binance
  adapters := [{ hasRealtimeContext := true, instrumentForSymbol := some binanceInstrument }]
  candidateScope := true
  depth_pos := DepthState.default_depth_pos

def reconcileEth : Action :=
  .reconcile ["ETH/USDT"]
    { candles := fun _ _ => true
      book := fun _ instrument =>
        some { metadata := .numbered instrument 100 0, bids := [], asks := [] } } true

theorem reconciled_book_not_bridged :
    ¬ (run CountedBooks.step candidateSettings.new.counted
      (callsOf candidateSettings.new [reconcileEth])).Bridged candidateSettings.new.needsBridge := by
  intro h
  exact absurd (h (binanceInstrument "ETH/USDT") (by decide) (by decide +kernel))
    (by decide +kernel)

end MarketDataSupervisor

end ChainQuantStudio.State.Supervisor
