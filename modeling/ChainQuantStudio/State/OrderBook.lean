import ChainQuantStudio.Data.Models
import ChainQuantStudio.Library.VersionedMap
import Mathlib.Data.List.AList
import Mathlib.Data.List.Sort
import Mathlib.Tactic.SplitIfs

/-!
# Top-of-book reconstruction with venue-aware sequence validation

`LocalOrderBook` is the mutable book as explicit state: an operation returns the book it leaves
together with what the call returned or raised, because `apply_delta` invalidates the book before
it raises. A side of the book carries the positivity of its prices and quantities.
-/

namespace ChainQuantStudio.State.OrderBook

open Data VersionedMap

inductive Raised
  | orderBookOutOfSync (message : String)
  | valueError (message : String)
  deriving DecidableEq, Repr

/-- The patch that a list of levels is. -/
def entries (levels : List BookLevel) : List (ℚ × ℚ) :=
  levels.map fun level => (level.price, level.quantity)

abbrev LevelMap := AList fun _ : ℚ => ℚ

structure BookSide where
  levels : LevelMap
  positive : ∀ price quantity, quantity ∈ levels.lookup price → 0 < price ∧ 0 < quantity

namespace BookSide

def empty : BookSide := ⟨∅, by simp⟩

def quantityAt (side : BookSide) (price : ℚ) : ℚ := (side.levels.lookup price).getD 0

/-- One turn of the loop of `_apply_levels`. -/
def put (side : BookSide) (level : BookLevel) : BookSide :=
  if hq : level.quantity = 0 then
    ⟨side.levels.erase level.price, by
      intro price quantity h
      by_cases hp : price = level.price
      · subst hp; simp [AList.lookup_erase] at h
      · rw [AList.lookup_erase_ne hp] at h
        exact side.positive price quantity h⟩
  else
    ⟨side.levels.insert level.price level.quantity, by
      intro price quantity h
      by_cases hp : price = level.price
      · subst hp
        simp only [AList.lookup_insert, Option.mem_def, Option.some.injEq] at h
        subst h
        exact ⟨level.price_pos, lt_of_le_of_ne level.quantity_nonneg (Ne.symm hq)⟩
      · rw [AList.lookup_insert_ne hp] at h
        exact side.positive price quantity h⟩

def applyLevels (side : BookSide) (levels : List BookLevel) : BookSide := levels.foldl put side

def ofSnapshot (levels : List BookLevel) : BookSide :=
  empty.applyLevels (levels.filter fun level => 0 < level.quantity)

/-- The items of the dictionary. -/
def items (side : BookSide) : List BookLevel :=
  side.levels.entries.pmap
    (fun entry h => ⟨entry.1, entry.2, (side.positive _ _ h).1, (side.positive _ _ h).2.le⟩)
    (fun _ h => AList.mem_lookup_iff.mpr h)

/-- `sorted(items, reverse=True)`: by price, since no two items share one. -/
def descending (side : BookSide) : List BookLevel :=
  side.items.insertionSort fun a b => b.price ≤ a.price

def ascending (side : BookSide) : List BookLevel :=
  side.items.insertionSort fun a b => a.price ≤ b.price

@[simp] theorem quantityAt_empty (price : ℚ) : empty.quantityAt price = 0 := by
  simp [empty, quantityAt]

theorem quantityAt_nonneg (side : BookSide) (price : ℚ) : 0 ≤ side.quantityAt price := by
  unfold quantityAt
  cases h : side.levels.lookup price with
  | none => simp
  | some quantity => exact (side.positive price quantity h).2.le

theorem quantityAt_ne_zero_iff {side : BookSide} {price : ℚ} :
    side.quantityAt price ≠ 0 ↔ ∃ quantity, side.levels.lookup price = some quantity := by
  unfold quantityAt
  cases h : side.levels.lookup price with
  | none => simp
  | some quantity => simpa using (side.positive price quantity h).2.ne'

theorem lookup_eq_of_quantityAt {a b : BookSide} {price : ℚ}
    (h : a.quantityAt price = b.quantityAt price) :
    a.levels.lookup price = b.levels.lookup price := by
  unfold quantityAt at h
  cases ha : a.levels.lookup price with
  | none =>
    cases hb : b.levels.lookup price with
    | none => rfl
    | some quantity =>
      have hq := (b.positive price quantity hb).2
      simp only [ha, hb, Option.getD_none, Option.getD_some] at h
      exact absurd h hq.ne
  | some quantity =>
    have hq := (a.positive price quantity ha).2
    cases hb : b.levels.lookup price with
    | none =>
      simp only [ha, hb, Option.getD_none, Option.getD_some] at h
      exact absurd h hq.ne'
    | some other => simpa [ha, hb] using h

theorem quantityAt_put (side : BookSide) (level : BookLevel) (price : ℚ) :
    (side.put level).quantityAt price =
      if price = level.price then level.quantity else side.quantityAt price := by
  unfold put quantityAt
  by_cases hq : level.quantity = 0
  · by_cases hp : price = level.price
    · subst hp; simp [hq]
    · simp [hq, hp, AList.lookup_erase_ne hp]
  · by_cases hp : price = level.price
    · subst hp; simp [hq]
    · simp [hq, hp, AList.lookup_insert_ne hp]

theorem quantityAt_applyLevels (side : BookSide) (levels : List BookLevel) :
    (side.applyLevels levels).quantityAt = write side.quantityAt (entries levels) := by
  induction levels generalizing side with
  | nil => rfl
  | cons level levels ih =>
    have hput : (side.put level).quantityAt =
        Function.update side.quantityAt level.price level.quantity := by
      funext price
      rw [quantityAt_put]
      by_cases hp : price = level.price
      · subst hp; simp
      · simp [hp]
    change ((side.put level).applyLevels levels).quantityAt = _
    rw [ih, hput]
    rfl

theorem quantityAt_ofSnapshot {levels : List BookLevel} {m : ℚ → ℚ}
    (h : ∀ entry ∈ entries levels, entry.2 = m entry.1) (price : ℚ) :
    (price ∈ keys (entries levels) → (ofSnapshot levels).quantityAt price = m price) ∧
      (price ∉ keys (entries levels) → (ofSnapshot levels).quantityAt price = 0) := by
  set kept := levels.filter fun level => 0 < level.quantity with hkept
  have hside : (ofSnapshot levels).quantityAt = write empty.quantityAt (entries kept) :=
    quantityAt_applyLevels empty kept
  have hsub : keys (entries kept) ⊆ keys (entries levels) := by
    rintro _ ⟨entry, hmem, rfl⟩
    obtain ⟨level, hl, rfl⟩ := List.mem_map.mp hmem
    exact ⟨_, List.mem_map_of_mem (List.mem_of_mem_filter hl), rfl⟩
  have hlists : ∀ entry ∈ entries kept, entry.2 = m entry.1 := by
    intro entry hmem
    obtain ⟨level, hl, rfl⟩ := List.mem_map.mp hmem
    exact h _ (List.mem_map_of_mem (List.mem_of_mem_filter hl))
  constructor
  · rintro ⟨entry, hmem, rfl⟩
    by_cases hin : entry.1 ∈ keys (entries kept)
    · rw [hside, write_of_mem hin hlists]
    · rw [hside, write_of_not_mem hin, quantityAt_empty, ← h entry hmem]
      obtain ⟨level, hl, rfl⟩ := List.mem_map.mp hmem
      by_contra hne
      have hpos : 0 < level.quantity := lt_of_le_of_ne level.quantity_nonneg hne
      have hin' : level ∈ kept := List.mem_filter.mpr ⟨hl, by simpa using hpos⟩
      exact hin ⟨_, List.mem_map.mpr ⟨level, hin', rfl⟩, rfl⟩
  · intro hnot
    rw [hside, write_of_not_mem fun hin => hnot (hsub hin), quantityAt_empty]

theorem mem_items {side : BookSide} {level : BookLevel} :
    level ∈ side.items ↔ side.levels.lookup level.price = some level.quantity := by
  unfold items
  rw [List.mem_pmap]
  constructor
  · rintro ⟨entry, h, rfl⟩
    exact AList.mem_lookup_iff.mpr h
  · intro h
    exact ⟨⟨level.price, level.quantity⟩, AList.mem_lookup_iff.mp h, rfl⟩

end BookSide

structure OrderBookRangeNotional where
  rangePercent : ℚ
  midPrice : Option ℚ
  bidNotional : ℚ
  askNotional : ℚ
  isFullyCovered : Bool
  deriving DecidableEq, Repr

namespace OrderBookRangeNotional

def unavailable (rangePercent : ℚ) : OrderBookRangeNotional :=
  { rangePercent, midPrice := none, bidNotional := 0, askNotional := 0, isFullyCovered := false }

def totalNotional (ranged : OrderBookRangeNotional) : ℚ := ranged.bidNotional + ranged.askNotional

end OrderBookRangeNotional

structure OrderBookView where
  instrument : Instrument
  bids : List BookLevel
  asks : List BookLevel
  sequenceId : Option ℤ
  exchangeTimestamp : Option Instant
  updatedAt : Option Instant
  isSynchronized : Bool
  generation : ℕ := 0
  deriving DecidableEq, Repr

def bidFloor (midPrice rangePercent : ℚ) : ℚ := midPrice * (1 - rangePercent / 100)

def askCeiling (midPrice rangePercent : ℚ) : ℚ := midPrice * (1 + rangePercent / 100)

/-- `sum(level.price * level.quantity for level in levels if ...)`. -/
def notional (levels : List BookLevel) (within : ℚ → Bool) : ℚ :=
  ((levels.filter fun level => within level.price).map
    fun level => level.price * level.quantity).sum

namespace OrderBookView

def bestBid (view : OrderBookView) : Option BookLevel := view.bids.head?

def bestAsk (view : OrderBookView) : Option BookLevel := view.asks.head?

def notionalWithinRange (view : OrderBookView) (rangePercent : ℚ) :
    Except Raised OrderBookRangeNotional :=
  if rangePercent ≤ 0 ∨ 100 ≤ rangePercent then
    .error (.valueError "Order-book range percent must be between 0 and 100")
  else
    match view.bestBid, view.bestAsk with
    | some bestBid, some bestAsk =>
      let midPrice := (bestBid.price + bestAsk.price) / 2
      let floor := bidFloor midPrice rangePercent
      let ceiling := askCeiling midPrice rangePercent
      .ok {
        rangePercent
        midPrice := some midPrice
        bidNotional := notional view.bids fun price => floor ≤ price
        askNotional := notional view.asks fun price => price ≤ ceiling
        isFullyCovered := view.isSynchronized &&
          view.bids.getLast?.any (fun level => level.price ≤ floor) &&
          view.asks.getLast?.any (fun level => ceiling ≤ level.price) }
    | _, _ => .ok (.unavailable rangePercent)

end OrderBookView

structure LocalOrderBook where
  instrument : Instrument
  depth : ℕ
  bids : BookSide
  asks : BookSide
  sequenceId : Option ℤ
  exchangeTimestamp : Option Instant
  updatedAt : Option Instant
  isSynchronized : Bool
  generation : ℕ
  firstDeltaAfterSnapshot : Bool
  depth_pos : 0 < depth

inductive Continuity
  | follows
  | stale
  | gap (message : String)
  deriving DecidableEq, Repr

def declaresPrevious : Exchange → Bool
  | .binance | .okx => true
  | .bybit | .hyperliquid => false

namespace LocalOrderBook

def new (instrument : Instrument) (depth : ℕ) (depth_pos : 0 < depth) : LocalOrderBook where
  instrument := instrument
  depth := depth
  bids := .empty
  asks := .empty
  sequenceId := none
  exchangeTimestamp := none
  updatedAt := none
  isSynchronized := false
  generation := 0
  firstDeltaAfterSnapshot := true
  depth_pos := depth_pos

def invalidate (book : LocalOrderBook) : LocalOrderBook :=
  { book with
    generation := if book.isSynchronized then book.generation + 1 else book.generation
    isSynchronized := false }

/-- The two tests under which `apply_snapshot` returns `False`. -/
def snapshotIsStale (book : LocalOrderBook) (snapshot : OrderBookSnapshot) : Bool :=
  book.isSynchronized && book.exchangeTimestamp.any fun current =>
    snapshot.metadata.exchangeTimestamp < current ||
      (snapshot.metadata.exchangeTimestamp == current &&
        snapshot.metadata.sequenceId == book.sequenceId)

def load (book : LocalOrderBook) (snapshot : OrderBookSnapshot) (requireDeltaBridge : Bool) :
    LocalOrderBook :=
  { book with
    bids := .ofSnapshot snapshot.bids
    asks := .ofSnapshot snapshot.asks
    sequenceId := snapshot.metadata.sequenceId
    exchangeTimestamp := some snapshot.metadata.exchangeTimestamp
    updatedAt := some snapshot.metadata.receivedAt
    isSynchronized := snapshot.metadata.sequenceId.isSome && !requireDeltaBridge
    firstDeltaAfterSnapshot := true }

def applySnapshot (book : LocalOrderBook) (snapshot : OrderBookSnapshot)
    (requireDeltaBridge : Bool := false) : LocalOrderBook × Except Raised Bool :=
  if snapshot.metadata.instrument ≠ book.instrument then
    (book, .error (.valueError "Order-book event belongs to a different instrument"))
  else if book.snapshotIsStale snapshot then (book, .ok false)
  else (book.load snapshot requireDeltaBridge, .ok true)

/-- Python's `first_sequence_id or final_sequence`. -/
def firstSequence (delta : OrderBookDelta) (finalSequence : ℤ) : ℤ :=
  match delta.firstSequenceId with
  | some first => if first = 0 then finalSequence else first
  | none => finalSequence

def optionText : Option ℤ → String
  | some value => toString value
  | none => "None"

def requirePreviousSequence (delta : OrderBookDelta) (current : ℤ) : Continuity :=
  if delta.previousSequenceId = some current then .follows
  else
    let received := optionText delta.previousSequenceId
    .gap s!"Expected previous sequence {current}, received {received}"

def validateBinance (book : LocalOrderBook) (delta : OrderBookDelta) (current finalSequence : ℤ) :
    Continuity :=
  let first := firstSequence delta finalSequence
  if book.firstDeltaAfterSnapshot then
    if (book.instrument.marketType = .linearPerpetual ∧ finalSequence < current) ∨
        (book.instrument.marketType = .spot ∧ finalSequence ≤ current) then .stale
    else
      let bridge :=
        if book.instrument.marketType = .linearPerpetual then current else current + 1
      if first ≤ bridge ∧ bridge ≤ finalSequence then .follows
      else .gap
        s!"Binance first delta {first}-{finalSequence} does not bridge snapshot {current}"
  else if finalSequence ≤ current then .stale
  else if delta.previousSequenceId ≠ none then requirePreviousSequence delta current
  else if first ≤ current + 1 ∧ current + 1 ≤ finalSequence then .follows
  else .gap s!"Binance delta {first}-{finalSequence} does not follow sequence {current}"

def continuity (book : LocalOrderBook) (delta : OrderBookDelta) (current finalSequence : ℤ) :
    Continuity :=
  match book.instrument.exchange with
  | .binance => book.validateBinance delta current finalSequence
  | .okx =>
    if finalSequence = current then .stale else requirePreviousSequence delta current
  | .bybit | .hyperliquid => if finalSequence ≤ current then .stale else .follows

def advance (book : LocalOrderBook) (delta : OrderBookDelta) (finalSequence : ℤ) :
    LocalOrderBook :=
  { book with
    bids := book.bids.applyLevels delta.bids
    asks := book.asks.applyLevels delta.asks
    sequenceId := some finalSequence
    exchangeTimestamp := some delta.metadata.exchangeTimestamp
    updatedAt := some delta.metadata.receivedAt
    isSynchronized := true
    firstDeltaAfterSnapshot := false }

def noSnapshot (book : LocalOrderBook) : Raised :=
  let symbol := book.instrument.exchangeSymbol
  .orderBookOutOfSync s!"No synchronized snapshot for {symbol}"

def applyDelta (book : LocalOrderBook) (delta : OrderBookDelta) :
    LocalOrderBook × Except Raised Bool :=
  if delta.metadata.instrument ≠ book.instrument then
    (book, .error (.valueError "Order-book event belongs to a different instrument"))
  else
    match book.sequenceId with
    | none => (book, .error book.noSnapshot)
    | some current =>
      if !book.isSynchronized && !book.firstDeltaAfterSnapshot then
        (book, .error book.noSnapshot)
      else
        match delta.metadata.sequenceId with
        | none =>
          (book.invalidate,
            .error (.orderBookOutOfSync "Order-book delta has no final sequence ID"))
        | some finalSequence =>
          match book.continuity delta current finalSequence with
          | .follows => (book.advance delta finalSequence, .ok true)
          | .stale => (book, .ok false)
          | .gap message => (book.invalidate, .error (.orderBookOutOfSync message))

def view (book : LocalOrderBook) : OrderBookView where
  instrument := book.instrument
  bids := book.bids.descending.take book.depth
  asks := book.asks.ascending.take book.depth
  sequenceId := book.sequenceId
  exchangeTimestamp := book.exchangeTimestamp
  updatedAt := book.updatedAt
  isSynchronized := book.isSynchronized
  generation := book.generation

@[simp] theorem invalidate_isSynchronized (book : LocalOrderBook) :
    book.invalidate.isSynchronized = false := rfl

@[simp] theorem invalidate_sequenceId (book : LocalOrderBook) :
    book.invalidate.sequenceId = book.sequenceId := rfl

@[simp] theorem invalidate_bids (book : LocalOrderBook) : book.invalidate.bids = book.bids := rfl

@[simp] theorem invalidate_asks (book : LocalOrderBook) : book.invalidate.asks = book.asks := rfl

@[simp] theorem invalidate_instrument (book : LocalOrderBook) :
    book.invalidate.instrument = book.instrument := rfl

@[simp] theorem invalidate_firstDeltaAfterSnapshot (book : LocalOrderBook) :
    book.invalidate.firstDeltaAfterSnapshot = book.firstDeltaAfterSnapshot := rfl

def Receptive (book : LocalOrderBook) : Prop :=
  book.sequenceId ≠ none ∧ (book.isSynchronized = true ∨ book.firstDeltaAfterSnapshot = true)

theorem invalidate_receptive_iff (book : LocalOrderBook) :
    book.invalidate.Receptive ↔
      book.sequenceId ≠ none ∧ book.firstDeltaAfterSnapshot = true := by
  simp [Receptive]

theorem applySnapshot_cases (book : LocalOrderBook) (snapshot : OrderBookSnapshot)
    (bridge : Bool) :
    (∃ e, book.applySnapshot snapshot bridge = (book, .error e)) ∨
    (book.applySnapshot snapshot bridge = (book, .ok false) ∧ book.isSynchronized = true) ∨
    (book.applySnapshot snapshot bridge = (book.load snapshot bridge, .ok true) ∧
      snapshot.metadata.instrument = book.instrument) := by
  unfold applySnapshot
  by_cases hi : snapshot.metadata.instrument = book.instrument
  · by_cases hs : book.snapshotIsStale snapshot = true
    · refine Or.inr (Or.inl ⟨by simp [hi, hs], ?_⟩)
      simp only [snapshotIsStale, Bool.and_eq_true] at hs
      exact hs.1
    · exact Or.inr (Or.inr ⟨by simp [hi, hs], hi⟩)
  · exact Or.inl ⟨_, by simp [hi]; rfl⟩

theorem applyDelta_cases (book : LocalOrderBook) (delta : OrderBookDelta) :
    (∃ e, book.applyDelta delta = (book, .error e) ∧
      (delta.metadata.instrument = book.instrument → ¬ book.Receptive)) ∨
    (∃ message, book.applyDelta delta = (book.invalidate, .error (.orderBookOutOfSync message)) ∧
      (delta.metadata.sequenceId = none ∨ ∃ current final,
        delta.metadata.sequenceId = some final ∧
        book.continuity delta current final = .gap message)) ∨
    (∃ current final, book.Receptive ∧ book.sequenceId = some current ∧
      delta.metadata.instrument = book.instrument ∧ delta.metadata.sequenceId = some final ∧
      ((book.continuity delta current final = .stale ∧
          book.applyDelta delta = (book, .ok false)) ∨
        (book.continuity delta current final = .follows ∧
          book.applyDelta delta = (book.advance delta final, .ok true)))) := by
  by_cases hi : delta.metadata.instrument = book.instrument
  swap
  · exact Or.inl ⟨_, by simp [applyDelta, hi]; rfl, fun h => absurd h hi⟩
  cases hc : book.sequenceId with
  | none =>
    exact Or.inl ⟨book.noSnapshot, by simp [applyDelta, hi, hc], fun _ hr => hr.1 hc⟩
  | some current =>
    by_cases hn : (!book.isSynchronized && !book.firstDeltaAfterSnapshot) = true
    · refine Or.inl ⟨book.noSnapshot, by simp only [applyDelta, hi, hc, hn]; simp, fun _ hr => ?_⟩
      rcases hr.2 with h | h <;> simp [h] at hn
    have hr : book.Receptive := by
      refine ⟨by simp [hc], ?_⟩
      revert hn
      cases book.isSynchronized <;> cases book.firstDeltaAfterSnapshot <;> simp
    rw [Bool.not_eq_true] at hn
    cases hf : delta.metadata.sequenceId with
    | none =>
      refine Or.inr (Or.inl ⟨"Order-book delta has no final sequence ID", ?_, Or.inl rfl⟩)
      simp only [applyDelta, hi, hc, hn, hf]; simp
    | some final =>
      cases hk : book.continuity delta current final with
      | follows =>
        exact Or.inr (Or.inr ⟨current, final, hr, rfl, hi, rfl, Or.inr ⟨hk, by
          simp only [applyDelta, hi, hc, hn, hf, hk]; simp⟩⟩)
      | stale =>
        exact Or.inr (Or.inr ⟨current, final, hr, rfl, hi, rfl, Or.inl ⟨hk, by
          simp only [applyDelta, hi, hc, hn, hf, hk]; simp⟩⟩)
      | gap message =>
        refine Or.inr (Or.inl ⟨message, ?_, Or.inr ⟨current, final, rfl, hk⟩⟩)
        simp only [applyDelta, hi, hc, hn, hf, hk]; simp

theorem validateBinance_follows {book : LocalOrderBook} {delta : OrderBookDelta}
    {current final : ℤ} (h : book.validateBinance delta current final = .follows) :
    current ≤ final ∧
      (delta.previousSequenceId = some current ∨ firstSequence delta final ≤ current + 1) := by
  unfold validateBinance at h
  by_cases hfirst : book.firstDeltaAfterSnapshot = true
  · simp only [hfirst, if_true] at h
    split_ifs at h with _ _ hb hb
    · exact ⟨hb.2, Or.inr (by omega)⟩
    · exact ⟨by omega, Or.inr hb.1⟩
  · simp only [hfirst, Bool.false_eq_true, if_false] at h
    split_ifs at h with hstale _ hb
    · simp only [requirePreviousSequence] at h
      split_ifs at h with hp
      exact ⟨by omega, Or.inl hp⟩
    · exact ⟨by omega, Or.inr hb.1⟩

theorem continuity_of_undeclared {book : LocalOrderBook}
    (hv : declaresPrevious book.instrument.exchange = false) (delta : OrderBookDelta)
    (current final : ℤ) :
    book.continuity delta current final = if final ≤ current then .stale else .follows := by
  cases he : book.instrument.exchange <;> simp [declaresPrevious, he] at hv <;>
    simp [continuity, he]

theorem applyDelta_of_follows {book : LocalOrderBook} {delta : OrderBookDelta}
    {current final : ℤ} (hr : book.Receptive) (hc : book.sequenceId = some current)
    (hi : delta.metadata.instrument = book.instrument)
    (hf : delta.metadata.sequenceId = some final)
    (hk : book.continuity delta current final = .follows) :
    book.applyDelta delta = (book.advance delta final, .ok true) := by
  have hn : (!book.isSynchronized && !book.firstDeltaAfterSnapshot) = false := by
    rcases hr.2 with h | h <;> simp [h]
  simp [applyDelta, hi, hc, hn, hf, hk]

end LocalOrderBook

/-- A call on one book. -/
inductive BookOp
  | snapshot (snapshot : OrderBookSnapshot) (requireDeltaBridge : Bool)
  | delta (delta : OrderBookDelta)
  | invalidate
  deriving DecidableEq, Repr

namespace LocalOrderBook

def call (book : LocalOrderBook) : BookOp → LocalOrderBook × Except Raised Bool
  | .snapshot snapshot bridge => book.applySnapshot snapshot bridge
  | .delta delta => book.applyDelta delta
  | .invalidate => (book.invalidate, .ok true)

/-- One call of a run in which what the calls raise is caught. -/
def step (book : LocalOrderBook) (op : BookOp) : LocalOrderBook := (book.call op).1

def AcceptsSnapshot (book : LocalOrderBook) : BookOp → Prop
  | .snapshot snapshot bridge => (book.applySnapshot snapshot bridge).2 = .ok true
  | _ => False

theorem step_instrument (book : LocalOrderBook) (op : BookOp) :
    (book.step op).instrument = book.instrument := by
  cases op with
  | snapshot snapshot bridge =>
    obtain ⟨e, h⟩ | ⟨h, -⟩ | ⟨h, -⟩ := applySnapshot_cases book snapshot bridge <;>
      simp [step, call, h, load]
  | delta delta =>
    obtain ⟨e, h, -⟩ | ⟨e, h, -⟩ | ⟨_, _, _, _, _, _, ⟨-, h⟩ | ⟨-, h⟩⟩ :=
        applyDelta_cases book delta <;>
      simp [step, call, h, advance]
  | invalidate => rfl

end LocalOrderBook

end ChainQuantStudio.State.OrderBook
