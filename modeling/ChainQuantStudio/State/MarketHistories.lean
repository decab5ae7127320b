import ChainQuantStudio.Library.BoundedDeque
import ChainQuantStudio.State.DepthSupervisor

/-!
# The order-book histories of the market state

The market state samples what its synchronized books show into two bounded histories and answers
queries from the samples of the current generation. A kept observation carries the number of calls
that went before the one that recorded it, so that a result can be compared with the moments at
which the book was not synchronized.
-/

namespace ChainQuantStudio.State.Market

open BoundedDeque Data OrderBook Run Supervisor

structure OrderBookObservation where
  instrument : Instrument
  observedAt : Instant
  bidNotional : ℚ
  askNotional : ℚ
  rangePercent : ℚ := 1
  midPrice : Option ℚ := none
  spreadBps : Option ℚ := none
  generation : ℕ := 0
  deriving DecidableEq, Repr

structure BestLevelObservation where
  observedAt : Instant
  bidNotional : ℚ
  askNotional : ℚ
  generation : ℕ
  deriving DecidableEq, Repr

structure Recorded (α : Type) where
  observation : α
  call : ℕ
  deriving DecidableEq, Repr

structure MarketSettings where
  orderBookDepth : ℕ := 100
  orderBookRangePercent : ℚ := 1
  orderBookHistorySize : ℕ := 1000
  orderBookSampleSeconds : ℚ := 5
  /-- `freshness.policy.order_book_seconds`. -/
  orderBookSeconds : ℚ := 5
  depth_pos : 0 < orderBookDepth
  range_pos : 0 < orderBookRangePercent
  range_lt : orderBookRangePercent < 100
  size_ge : 2 ≤ orderBookHistorySize
  sample_pos : 0 < orderBookSampleSeconds

namespace MarketSettings

theorem default_range_pos : (0 : ℚ) < 1 := by norm_num

theorem default_range_lt : (1 : ℚ) < 100 := by norm_num

theorem default_size_ge : 2 ≤ 1000 := by decide

theorem default_sample_pos : (0 : ℚ) < 5 := by norm_num

end MarketSettings

structure MarketState where
  settings : MarketSettings
  depth : DepthState
  orderBookHistory : Instrument → List (Recorded OrderBookObservation) := fun _ => []
  bestLevelHistory : Instrument → List (Recorded BestLevelObservation) := fun _ => []
  calls : ℕ := 0

/-- A call of the market state that touches its books. -/
inductive MarketOp
  | snapshot (snapshot : OrderBookSnapshot) (requireDeltaBridge : Bool)
  | delta (delta : OrderBookDelta)
  | invalidate (instrument : Instrument)
  deriving DecidableEq, Repr

namespace MarketState

def new (settings : MarketSettings) : MarketState where
  settings := settings
  depth :=
    { orderBookDepth := settings.orderBookDepth
      orderBooks := fun _ => none
      depth_pos := settings.depth_pos
      keyed := DepthState.keyed_none }

variable (state : MarketState)

def getOrderBookHistory (instrument : Instrument) : List (Recorded OrderBookObservation) :=
  match state.depth.orderBooks instrument with
  | none => []
  | some book => (state.orderBookHistory instrument).filter fun item =>
      item.observation.generation == book.generation

/-- The loop of `best_level_at` over the history from its end. -/
def newestLevel (generation : ℕ) (limit : ℚ) (boundary : Instant) :
    List (Recorded BestLevelObservation) → Option (Recorded BestLevelObservation)
  | [] => none
  | item :: older =>
    if item.observation.generation ≠ generation then none
    else if item.observation.observedAt ≤ boundary then
      if totalSeconds (boundary - item.observation.observedAt) ≤ limit then some item else none
    else newestLevel generation limit boundary older

def bestLevelAt (instrument : Instrument) (boundary : Instant) :
    Option (Recorded BestLevelObservation) :=
  match state.depth.orderBooks instrument with
  | none => none
  | some book =>
    if !book.isSynchronized then none
    else newestLevel book.generation state.settings.orderBookSeconds boundary
      (state.bestLevelHistory instrument).reverse

def recordBestLevel (view : OrderBookView) (instrument : Instrument) (observedAt : Instant) :
    MarketState :=
  match view.isSynchronized, view.bestBid, view.bestAsk with
  | true, some bestBid, some bestAsk =>
    let history := state.bestLevelHistory instrument
    let current := if history.getLast?.any fun last =>
        last.observation.generation != view.generation then [] else history
    let observation : BestLevelObservation :=
      { observedAt
        bidNotional := bestBid.price * bestBid.quantity
        askNotional := bestAsk.price * bestAsk.quantity
        generation := view.generation }
    { state with
      bestLevelHistory := Function.update state.bestLevelHistory instrument
        (pushBack state.settings.orderBookHistorySize current ⟨observation, state.calls⟩) }
  | _, _, _ => state

def spreadBps (view : OrderBookView) (midPrice : Option ℚ) : Option ℚ :=
  match view.bestBid, view.bestAsk, midPrice with
  | some bestBid, some bestAsk, some midPrice =>
    if 0 < midPrice then some ((bestAsk.price - bestBid.price) / midPrice * 10000) else none
  | _, _, _ => none

def recordRange (view : OrderBookView) (instrument : Instrument) (observedAt : Instant) :
    MarketState :=
  let history := state.orderBookHistory instrument
  if history.getLast?.any fun last =>
      totalSeconds (observedAt - last.observation.observedAt) <
        state.settings.orderBookSampleSeconds then state
  else if !view.isSynchronized then state
  else
    match view.notionalWithinRange state.settings.orderBookRangePercent with
    | .error _ => state  -- the range lies between 0 and 100
    | .ok ranged =>
      if !ranged.isFullyCovered then
        { state with orderBookHistory := Function.update state.orderBookHistory instrument [] }
      else
        let observation : OrderBookObservation :=
          { instrument
            observedAt
            bidNotional := ranged.bidNotional
            askNotional := ranged.askNotional
            rangePercent := ranged.rangePercent
            midPrice := ranged.midPrice
            spreadBps := spreadBps view ranged.midPrice
            generation := view.generation }
        { state with
          orderBookHistory := Function.update state.orderBookHistory instrument
            (pushBack state.settings.orderBookHistorySize history ⟨observation, state.calls⟩) }

def recordOrderBook (instrument : Instrument) (observedAt : Instant) : MarketState :=
  let view := (state.depth.book instrument).view
  (state.recordBestLevel view instrument observedAt).recordRange view instrument observedAt

def invalidateOrderBook (instrument : Instrument) : MarketState :=
  { state with
    depth := state.depth.invalidateOrderBook instrument
    orderBookHistory := Function.update state.orderBookHistory instrument []
    bestLevelHistory := Function.update state.bestLevelHistory instrument [] }

def applyOrderBookSnapshot (snapshot : OrderBookSnapshot) (requireDeltaBridge : Bool) :
    MarketState × Except Raised Bool :=
  let (depth, outcome) := state.depth.applyOrderBookSnapshot snapshot requireDeltaBridge
  let state := { state with depth }
  match outcome with
  | .ok true =>
    (state.recordOrderBook snapshot.metadata.instrument snapshot.metadata.receivedAt, .ok true)
  | _ => (state, outcome)

/-- The `OrderBookDelta` branch of `apply`. -/
def applyDelta (delta : OrderBookDelta) : MarketState × Except Raised Bool :=
  let instrument := delta.metadata.instrument
  let (book, outcome) := (state.depth.book instrument).applyDelta delta
  let state := { state with depth := state.depth.withBook book }
  match outcome with
  | .error (.orderBookOutOfSync message) =>
    (state.invalidateOrderBook instrument, .error (.orderBookOutOfSync message))
  | .ok true => (state.recordOrderBook instrument delta.metadata.receivedAt, .ok true)
  | _ => (state, outcome)

def call : MarketOp → MarketState
  | .snapshot snapshot bridge => (state.applyOrderBookSnapshot snapshot bridge).1
  | .delta delta => (state.applyDelta delta).1
  | .invalidate instrument => state.invalidateOrderBook instrument

/-- One call of a run in which what the calls raise is caught. -/
def step (op : MarketOp) : MarketState := { state.call op with calls := state.calls + 1 }

def retained (instrument : Instrument) : List (ℕ × ℕ) :=
  ((state.orderBookHistory instrument).map fun item =>
      (item.observation.generation, item.call)) ++
    (state.bestLevelHistory instrument).map fun item => (item.observation.generation, item.call)

variable {state}

theorem mem_retained {instrument : Instrument} {p : ℕ × ℕ} :
    p ∈ state.retained instrument ↔
      (∃ item ∈ state.orderBookHistory instrument, (item.observation.generation, item.call) = p) ∨
      ∃ item ∈ state.bestLevelHistory instrument, (item.observation.generation, item.call) = p := by
  simp [retained]

def Records (state state' : MarketState) (view : OrderBookView) (instrument : Instrument) : Prop :=
  state'.depth = state.depth ∧ state'.calls = state.calls ∧
  (∀ other, other ≠ instrument → state'.retained other = state.retained other) ∧
  ∀ p ∈ state'.retained instrument, p ∈ state.retained instrument ∨
    (p = (view.generation, state.calls) ∧ view.isSynchronized = true)

theorem Records.refl (view : OrderBookView) (instrument : Instrument) :
    Records state state view instrument :=
  ⟨rfl, rfl, fun _ _ => rfl, fun _ hp => Or.inl hp⟩

theorem Records.trans {state' state'' : MarketState} {view : OrderBookView}
    {instrument : Instrument} (h : Records state state' view instrument)
    (h' : Records state' state'' view instrument) : Records state state'' view instrument := by
  obtain ⟨hdepth, hcalls, hother, hmem⟩ := h
  obtain ⟨hdepth', hcalls', hother', hmem'⟩ := h'
  refine ⟨hdepth'.trans hdepth, hcalls'.trans hcalls, fun other ho => ?_, fun p hp => ?_⟩
  · rw [hother' other ho, hother other ho]
  · rcases hmem' p hp with hp | hp
    · exact hmem p hp
    · exact Or.inr (hcalls ▸ hp)

theorem recordBestLevel_records (view : OrderBookView) (instrument : Instrument)
    (observedAt : Instant) :
    Records state (state.recordBestLevel view instrument observedAt) view instrument := by
  unfold recordBestLevel
  split
  case h_1 bestBid bestAsk hsync _ _ =>
    refine ⟨rfl, rfl, fun other ho => ?_, fun p hp => ?_⟩
    · simp [retained, Function.update_of_ne ho]
    · rcases mem_retained.mp hp with hitem | ⟨item, hitem, rfl⟩
      · exact Or.inl (mem_retained.mpr (Or.inl hitem))
      · simp only [Function.update_self] at hitem
        rcases mem_of_mem_pushBack hitem with hold | rfl
        · left
          apply mem_retained.mpr
          right
          split at hold
          · simp at hold
          · exact ⟨item, hold, rfl⟩
        · exact Or.inr ⟨rfl, hsync⟩
  case h_2 => exact .refl view instrument

theorem recordRange_records (view : OrderBookView) (instrument : Instrument)
    (observedAt : Instant) :
    Records state (state.recordRange view instrument observedAt) view instrument := by
  unfold recordRange
  dsimp only
  split
  · exact .refl view instrument
  split
  · exact .refl view instrument
  rename_i hsync
  split
  · exact .refl view instrument
  split
  · refine ⟨rfl, rfl, fun other ho => ?_, fun p hp => ?_⟩
    · simp [retained, Function.update_of_ne ho]
    · rcases mem_retained.mp hp with ⟨item, hitem, _⟩ | hitem
      · simp at hitem
      · exact Or.inl (mem_retained.mpr (Or.inr hitem))
  · refine ⟨rfl, rfl, fun other ho => ?_, fun p hp => ?_⟩
    · simp [retained, Function.update_of_ne ho]
    · rcases mem_retained.mp hp with ⟨item, hitem, rfl⟩ | hitem
      · simp only [Function.update_self] at hitem
        rcases mem_of_mem_pushBack hitem with hold | rfl
        · exact Or.inl (mem_retained.mpr (Or.inl ⟨item, hold, rfl⟩))
        · exact Or.inr ⟨rfl, by simpa using hsync⟩
      · exact Or.inl (mem_retained.mpr (Or.inr hitem))

theorem recordOrderBook_records (state : MarketState) (instrument : Instrument) (observedAt : Instant) :
    Records state (state.recordOrderBook instrument observedAt)
      (state.depth.book instrument).view instrument :=
  (recordBestLevel_records _ _ _).trans (recordRange_records _ _ _)

/-- A snapshot takes the book out of synchronization only while no observation of the book's
generation is kept. A snapshot does so when a delta must bridge it or it has no number. -/
def DesynchronizesEmpty (state : MarketState) : MarketOp → Prop
  | .snapshot snapshot bridge =>
    let book := state.depth.book snapshot.metadata.instrument
    book.isSynchronized = true → book.snapshotIsStale snapshot = false →
      (bridge = true ∨ snapshot.metadata.sequenceId = none) →
      ∀ p ∈ state.retained snapshot.metadata.instrument, p.1 ≠ book.generation
  | _ => True

structure Evolves (known : Prop) (state state' : MarketState) (instrument : Instrument) :
    Prop where
  generation_le :
    (state.depth.book instrument).generation ≤ (state'.depth.book instrument).generation
  recorded : ∀ p ∈ state'.retained instrument, p ∈ state.retained instrument ∨
    (p = ((state'.depth.book instrument).generation, state.calls) ∧
      (state'.depth.book instrument).isSynchronized = true)
  dropped : known → (state'.depth.book instrument).isSynchronized = false →
    ((state.depth.book instrument).isSynchronized = false ∧
      (state'.depth.book instrument).generation = (state.depth.book instrument).generation) ∨
    ∀ p ∈ state.retained instrument, p ∈ state'.retained instrument →
      p.1 ≠ (state'.depth.book instrument).generation

variable {known : Prop}

theorem Evolves.of_same {state' : MarketState} {instrument : Instrument}
    (hbook : state'.depth.book instrument = state.depth.book instrument)
    (hretained : state'.retained instrument = state.retained instrument) :
    Evolves known state state' instrument := by
  refine ⟨by rw [hbook], fun p hp => Or.inl (hretained ▸ hp), fun _ hsync => Or.inl ?_⟩
  rw [hbook] at hsync ⊢
  exact ⟨hsync, rfl⟩

theorem generation_le_invalidate (book : LocalOrderBook) :
    book.generation ≤ book.invalidate.generation := by
  unfold LocalOrderBook.invalidate
  dsimp only
  split <;> omega

theorem retained_invalidateOrderBook (instrument other : Instrument) :
    (state.invalidateOrderBook instrument).retained other =
      if other = instrument then [] else state.retained other := by
  by_cases ho : other = instrument
  · subst ho; simp [retained, invalidateOrderBook]
  · simp [retained, invalidateOrderBook, ho]

theorem Evolves.of_cleared {state' : MarketState} {instrument : Instrument}
    (hle : (state.depth.book instrument).generation ≤ (state'.depth.book instrument).generation)
    (hretained : state'.retained instrument = []) : Evolves known state state' instrument :=
  ⟨hle, fun p hp => by simp [hretained] at hp, fun _ _ => Or.inr fun p _ hp => by
    simp [hretained] at hp⟩

theorem invalidateOrderBook_evolves (known : Prop) (state : MarketState)
    (instrument other : Instrument) :
    Evolves known state (state.invalidateOrderBook instrument) other := by
  have hbook : (state.invalidateOrderBook instrument).depth.book other = _ :=
    state.depth.book_invalidateOrderBook instrument other
  by_cases ho : other = instrument
  · apply Evolves.of_cleared
    · rw [hbook, if_pos ho, ho]
      exact generation_le_invalidate _
    · rw [retained_invalidateOrderBook, if_pos ho]
  · apply Evolves.of_same
    · rw [hbook, if_neg ho]
    · rw [retained_invalidateOrderBook, if_neg ho]

theorem recorded_evolves {depth : DepthState} {instrument : Instrument} (observedAt : Instant)
    (hother : ∀ other, other ≠ instrument → depth.book other = state.depth.book other)
    (hle : (state.depth.book instrument).generation ≤ (depth.book instrument).generation)
    (hdropped : known → (depth.book instrument).isSynchronized = false →
      ((state.depth.book instrument).isSynchronized = false ∧
        (depth.book instrument).generation = (state.depth.book instrument).generation) ∨
      ∀ p ∈ state.retained instrument, p.1 ≠ (depth.book instrument).generation)
    (other : Instrument) :
    Evolves known state ({ state with depth }.recordOrderBook instrument observedAt) other := by
  obtain ⟨hdepth, -, hsame, hmem⟩ :=
    recordOrderBook_records { state with depth } instrument observedAt
  by_cases ho : other = instrument
  · subst ho
    refine ⟨?_, fun p hp => ?_, fun hknown hsync => ?_⟩
    · rw [hdepth]
      exact hle
    · rw [hdepth]
      exact hmem p hp
    · rw [hdepth] at hsync ⊢
      rcases hdropped hknown hsync with h | h
      · exact Or.inl h
      · exact Or.inr fun p hp _ => h p hp
  · apply Evolves.of_same
    · rw [hdepth]
      exact hother other ho
    · exact hsame other ho

theorem book_withBook_self (depth : DepthState) (instrument other : Instrument) :
    (depth.withBook (depth.book instrument)).book other = depth.book other := by
  rw [DepthState.book_withBook, DepthState.book_instrument]
  split
  case isTrue ho => rw [ho]
  case isFalse => rfl

theorem applyOrderBookSnapshot_evolves (snapshot : OrderBookSnapshot) (bridge : Bool)
    (other : Instrument) :
    Evolves (state.DesynchronizesEmpty (.snapshot snapshot bridge)) state
      (state.applyOrderBookSnapshot snapshot bridge).1 other := by
  set instrument := snapshot.metadata.instrument with hinstrument
  have hkey := state.depth.book_instrument instrument
  by_cases hstale : (state.depth.book instrument).snapshotIsStale snapshot = true
  · -- the book refuses the snapshot and stays as it is
    have hcall : state.depth.applyOrderBookSnapshot snapshot bridge =
        (state.depth.withBook (state.depth.book instrument), .ok false) := by
      simp [DepthState.applyOrderBookSnapshot, LocalOrderBook.applySnapshot, ← hinstrument, hkey,
        hstale]
    simp only [applyOrderBookSnapshot, hcall]
    exact Evolves.of_same (book_withBook_self state.depth instrument other) rfl
  · have hcall : state.depth.applyOrderBookSnapshot snapshot bridge =
        (state.depth.withBook ((state.depth.book instrument).load snapshot bridge), .ok true) := by
      simp [DepthState.applyOrderBookSnapshot, LocalOrderBook.applySnapshot, ← hinstrument, hkey,
        hstale]
    have hload : ((state.depth.book instrument).load snapshot bridge).instrument = instrument :=
      hkey
    simp only [applyOrderBookSnapshot, hcall]
    apply recorded_evolves
    · intro j hj
      rw [DepthState.book_withBook, hload, if_neg hj]
    · rw [DepthState.book_withBook, hload, if_pos rfl]
      exact le_rfl
    · rw [DepthState.book_withBook, hload, if_pos rfl]
      intro hempty hsync
      by_cases hbefore : (state.depth.book instrument).isSynchronized = true
      · right
        apply hempty hbefore (by simpa using hstale)
        simp only [LocalOrderBook.load, Bool.and_eq_false_iff, Option.isSome_eq_false_iff,
          Option.isNone_iff_eq_none, Bool.not_eq_false'] at hsync
        exact hsync.symm
      · exact Or.inl ⟨by simpa using hbefore, rfl⟩

theorem applyDelta_evolves (delta : OrderBookDelta) (other : Instrument) :
    Evolves known state (state.applyDelta delta).1 other := by
  set instrument := delta.metadata.instrument with hinstrument
  have hkey := state.depth.book_instrument instrument
  obtain ⟨e, hcall, -⟩ | ⟨message, hcall, -⟩ | ⟨_, final, -, -, -, -, hplaced⟩ :=
    (state.depth.book instrument).applyDelta_cases delta
  · have hsame := book_withBook_self state.depth instrument
    cases e with
    | orderBookOutOfSync message =>
      simp only [applyDelta, ← hinstrument, hcall]
      have hinv := invalidateOrderBook_evolves known
        { state with depth := state.depth.withBook (state.depth.book instrument) } instrument other
      obtain ⟨hle, hrecorded, hdropped⟩ := hinv
      simp only [hsame] at hle hdropped
      exact ⟨hle, hrecorded, hdropped⟩
    | valueError message =>
      simp only [applyDelta, ← hinstrument, hcall]
      exact Evolves.of_same (hsame other) rfl
  · simp only [applyDelta, ← hinstrument, hcall]
    have hbook : ∀ j, ((state.depth.withBook (state.depth.book instrument).invalidate
        ).invalidateOrderBook instrument).book j = if j = instrument then
          (state.depth.book instrument).invalidate.invalidate else state.depth.book j := by
      intro j
      rw [DepthState.book_invalidateOrderBook]
      simp only [DepthState.book_withBook, LocalOrderBook.invalidate_instrument, hkey, if_true]
      split <;> rfl
    by_cases ho : other = instrument
    · apply Evolves.of_cleared
      · change _ ≤ (((state.depth.withBook _).invalidateOrderBook instrument).book other).generation
        rw [hbook, if_pos ho, ho]
        exact (generation_le_invalidate _).trans (generation_le_invalidate _)
      · rw [retained_invalidateOrderBook, if_pos ho]
    · apply Evolves.of_same
      · exact (hbook other).trans (if_neg ho)
      · rw [retained_invalidateOrderBook, if_neg ho]
        rfl
  · rcases hplaced with ⟨-, hcall⟩ | ⟨-, hcall⟩
    · simp only [applyDelta, ← hinstrument, hcall]
      exact Evolves.of_same (book_withBook_self state.depth instrument other) rfl
    · simp only [applyDelta, ← hinstrument, hcall]
      have hadvance : ((state.depth.book instrument).advance delta final).instrument =
          instrument := hkey
      apply recorded_evolves
      · intro j hj
        rw [DepthState.book_withBook, hadvance, if_neg hj]
      · rw [DepthState.book_withBook, hadvance, if_pos rfl]
        exact le_rfl
      · rw [DepthState.book_withBook, hadvance, if_pos rfl]
        intro _ hsync
        cases hsync

theorem step_evolves (op : MarketOp) (instrument : Instrument) :
    Evolves (state.DesynchronizesEmpty op) state (state.step op) instrument := by
  have hcall : Evolves (state.DesynchronizesEmpty op) state (state.call op) instrument := by
    cases op with
    | snapshot snapshot bridge => exact applyOrderBookSnapshot_evolves snapshot bridge instrument
    | delta delta => exact applyDelta_evolves delta instrument
    | invalidate other => exact invalidateOrderBook_evolves _ _ other instrument
  exact ⟨hcall.generation_le, hcall.recorded, hcall.dropped⟩

end MarketState

end ChainQuantStudio.State.Market
