import ChainQuantStudio.State.OrderBookHistory
import ChainQuantStudio.State.OrderBookView

/-!
# Coverage when snapshots are truncated

The adapters ask for a bounded number of levels, so a snapshot is the top of the true book, while
deltas name every changed level. Under a feed that loses nothing the book holds at each price what
the true book had at the number that named the price last. The levels never named are what a
covered range can leave out, and where deltas do not declare what they follow a snapshot older than
their stream brings levels back that the stream has passed.
-/

namespace ChainQuantStudio.State.OrderBook

open Data Run VersionedMap

/-- The levels are the best `depth` ones of the true book at the snapshot's number. -/
def SnapshotBest (history : BookHistory) (depth : ℕ) (snapshot : OrderBookSnapshot) : Prop :=
  ∀ n, snapshot.metadata.sequenceId = some n →
    (∀ level, level ∈ snapshot.bids ↔ level ∈ (history n).bids.descending.take depth) ∧
    (∀ level, level ∈ snapshot.asks ↔ level ∈ (history n).asks.ascending.take depth)

structure Feed where
  book : LocalOrderBook
  cursor : ℤ
  namedBids : ℚ → Option ℤ
  namedAsks : ℚ → Option ℤ

namespace Feed

def new (instrument : Instrument) (depth : ℕ) (depth_pos : 0 < depth) (cursor : ℤ) : Feed where
  book := .new instrument depth depth_pos
  cursor := cursor
  namedBids := fun _ => none
  namedAsks := fun _ => none

def named (before : ℚ → Option ℤ) (number : Option ℤ) (levels : List BookLevel) : ℚ → Option ℤ :=
  number.elim before fun n => nameAt before n (entries levels)

def step (feed : Feed) (op : BookOp) : Feed :=
  let (book, outcome) := feed.book.call op
  match op with
  | .snapshot snapshot _ =>
    match outcome with
    | .ok true =>
      { feed with
        book
        namedBids := named (fun _ => none) snapshot.metadata.sequenceId snapshot.bids
        namedAsks := named (fun _ => none) snapshot.metadata.sequenceId snapshot.asks }
    | _ => { feed with book }
  | .delta delta =>
    let cursor :=
      if delta.metadata.instrument = feed.book.instrument then
        delta.metadata.sequenceId.elim feed.cursor (max feed.cursor)
      else feed.cursor
    match outcome with
    | .ok true =>
      { book
        cursor
        namedBids := named feed.namedBids delta.metadata.sequenceId delta.bids
        namedAsks := named feed.namedAsks delta.metadata.sequenceId delta.asks }
    | _ => { feed with book, cursor }
  | .invalidate => { feed with book }

/-- The feed delivers the best levels in its snapshots and every change in its deltas. Where
deltas do not declare what they follow, none starts beyond what the stream has reached. -/
def Delivers (history : BookHistory) (depth : ℕ) (feed : Feed) : BookOp → Prop
  | .snapshot snapshot _ => snapshot.metadata.instrument = feed.book.instrument →
    SnapshotBest history depth snapshot
  | .delta delta => delta.metadata.instrument = feed.book.instrument →
    DeltaTrue history delta ∧
    (declaresPrevious feed.book.instrument.exchange = false →
      ∃ final first, delta.metadata.sequenceId = some final ∧ first ≤ feed.cursor ∧
        first ≤ final ∧
        ∀ n, first ≤ n → n ≤ final → CarriesBook delta (history n) (history final))
  | .invalidate => True

def Fresh (feed : Feed) : BookOp → Prop
  | .snapshot snapshot _ => snapshot.metadata.instrument = feed.book.instrument →
    ∀ n, snapshot.metadata.sequenceId = some n → feed.cursor ≤ n
  | _ => True

theorem step_book (feed : Feed) (op : BookOp) : (feed.step op).book = feed.book.step op := by
  cases op with
  | snapshot snapshot bridge =>
    rcases h : feed.book.call (.snapshot snapshot bridge) with ⟨book, outcome⟩
    rcases outcome with e | b
    · simp [step, LocalOrderBook.step, h]
    · cases b <;> simp [step, LocalOrderBook.step, h]
  | delta delta =>
    rcases h : feed.book.call (.delta delta) with ⟨book, outcome⟩
    rcases outcome with e | b
    · simp [step, LocalOrderBook.step, h]
    · cases b <;> simp [step, LocalOrderBook.step, h]
  | invalidate => rfl

theorem step_instrument (feed : Feed) (op : BookOp) :
    (feed.step op).book.instrument = feed.book.instrument := by
  rw [step_book, LocalOrderBook.step_instrument]

def bidsAt (history : BookHistory) (n : ℤ) : ℚ → ℚ := (history n).bids.quantityAt

def asksAt (history : BookHistory) (n : ℤ) : ℚ → ℚ := (history n).asks.quantityAt

structure Knows (history : BookHistory) (feed : Feed) : Prop where
  bids : feed.book.sequenceId ≠ none →
    feed.book.bids.quantityAt = recalled 0 (bidsAt history) feed.namedBids
  asks : feed.book.sequenceId ≠ none →
    feed.book.asks.quantityAt = recalled 0 (asksAt history) feed.namedAsks
  numbered : feed.book.isSynchronized = true → feed.book.sequenceId ≠ none

theorem knows_new (history : BookHistory) (instrument : Instrument) (depth : ℕ)
    (depth_pos : 0 < depth) (cursor : ℤ) :
    Knows history (new instrument depth depth_pos cursor) := by
  refine ⟨?_, ?_, ?_⟩ <;> simp [new, LocalOrderBook.new]

theorem lists_of_best {levels best : List BookLevel} {side : BookSide} {depth : ℕ}
    (hbest : best.Perm side.items) (h : ∀ level, level ∈ levels ↔ level ∈ best.take depth) :
    ∀ entry ∈ entries levels, entry.2 = side.quantityAt entry.1 := by
  intro entry hentry
  obtain ⟨level, hl, rfl⟩ := List.mem_map.mp hentry
  have hmem := hbest.mem_iff.mp (List.mem_of_mem_take ((h level).mp hl))
  simp [BookSide.quantityAt, BookSide.mem_items.mp hmem]

theorem quantityAt_ofSnapshot_recalled (quantities : ℤ → ℚ → ℚ) {levels : List BookLevel} {n : ℤ}
    (h : ∀ entry ∈ entries levels, entry.2 = quantities n entry.1) :
    (BookSide.ofSnapshot levels).quantityAt =
      recalled 0 quantities (nameAt (fun _ => none) n (entries levels)) := by
  funext price
  obtain ⟨hin, hout⟩ := BookSide.quantityAt_ofSnapshot h price
  by_cases hk : price ∈ keys (entries levels)
  · rw [hin hk, recalled, nameAt_of_mem hk]
    rfl
  · rw [hout hk, recalled, nameAt_of_not_mem hk]
    rfl

theorem knows_loaded {history : BookHistory} {depth : ℕ} {snapshot : OrderBookSnapshot}
    (feed : Feed) (bridge : Bool) (h : SnapshotBest history depth snapshot) :
    Knows history
      { book := feed.book.load snapshot bridge
        cursor := feed.cursor
        namedBids := named (fun _ => none) snapshot.metadata.sequenceId snapshot.bids
        namedAsks := named (fun _ => none) snapshot.metadata.sequenceId snapshot.asks } := by
  have hnumber : (feed.book.load snapshot bridge).sequenceId = snapshot.metadata.sequenceId := rfl
  refine ⟨fun hn => ?_, fun hn => ?_, fun hs hn => ?_⟩
  · obtain ⟨n, hn⟩ := Option.ne_none_iff_exists'.mp (hnumber ▸ hn)
    dsimp only
    rw [hn]
    exact quantityAt_ofSnapshot_recalled (bidsAt history)
      (lists_of_best (history n).bids.descending_perm (h n hn).1)
  · obtain ⟨n, hn⟩ := Option.ne_none_iff_exists'.mp (hnumber ▸ hn)
    dsimp only
    rw [hn]
    exact quantityAt_ofSnapshot_recalled (asksAt history)
      (lists_of_best (history n).asks.ascending_perm (h n hn).2)
  · have hnone : snapshot.metadata.sequenceId = none := hn
    simp [LocalOrderBook.load, hnone] at hs

theorem Knows.advance {history : BookHistory} {feed : Feed} {delta : OrderBookDelta}
    {current final cursor : ℤ} {before : TrueBook} (h : Knows history feed)
    (hc : feed.book.sequenceId = some current) (hf : delta.metadata.sequenceId = some final)
    (hd : CarriesBook delta before (history final)) :
    Knows history
      { book := feed.book.advance delta final
        cursor
        namedBids := named feed.namedBids delta.metadata.sequenceId delta.bids
        namedAsks := named feed.namedAsks delta.metadata.sequenceId delta.asks } := by
  have hsome : feed.book.sequenceId ≠ none := by simp [hc]
  rw [hf]
  refine ⟨fun _ => ?_, fun _ => ?_, fun _ hn => ?_⟩
  · change (feed.book.bids.applyLevels delta.bids).quantityAt = _
    rw [BookSide.quantityAt_applyLevels, h.bids hsome]
    exact write_recalled (bidsAt history) hd.bids.lists
  · change (feed.book.asks.applyLevels delta.asks).quantityAt = _
    rw [BookSide.quantityAt_applyLevels, h.asks hsome]
    exact write_recalled (asksAt history) hd.asks.lists
  · simp [LocalOrderBook.advance] at hn

theorem Knows.invalidate {history : BookHistory} {feed : Feed} {cursor : ℤ}
    (h : Knows history feed) :
    Knows history { feed with book := feed.book.invalidate, cursor := cursor } :=
  ⟨h.bids, h.asks, by simp⟩

theorem venue_of_declared {exchange : Exchange} (hv : declaresPrevious exchange = true) :
    exchange = .binance ∨ exchange = .okx := by
  cases exchange <;> simp [declaresPrevious] at hv ⊢

theorem Delivers.carriesBook {history : BookHistory} {feed : Feed} {depth : ℕ}
    {delta : OrderBookDelta} {current final : ℤ} (hd : feed.Delivers history depth (.delta delta))
    (hi : delta.metadata.instrument = feed.book.instrument)
    (hf : delta.metadata.sequenceId = some final)
    (hk : feed.book.continuity delta current final = .follows) :
    ∃ before, CarriesBook delta before (history final) := by
  obtain ⟨htrue, hstream⟩ := hd hi
  cases hv : declaresPrevious feed.book.instrument.exchange with
  | true => exact ⟨_, carriesBook_of_follows (venue_of_declared hv) hi hf htrue hk⟩
  | false =>
    obtain ⟨final', first, hf', -, hle, hcarries⟩ := hstream hv
    obtain rfl : final' = final := by simpa [hf] using hf'.symm
    exact ⟨_, hcarries final' hle le_rfl⟩

theorem Knows.step {history : BookHistory} {depth : ℕ} {feed : Feed} {op : BookOp}
    (h : Knows history feed) (hop : feed.Delivers history depth op) :
    Knows history (feed.step op) := by
  cases op with
  | snapshot snapshot bridge =>
    obtain ⟨e, hcall⟩ | ⟨hcall, -⟩ | ⟨hcall, hi⟩ :=
      feed.book.applySnapshot_cases snapshot bridge
    · simpa [Feed.step, LocalOrderBook.call, hcall] using h
    · simpa [Feed.step, LocalOrderBook.call, hcall] using h
    · simpa [Feed.step, LocalOrderBook.call, hcall] using knows_loaded feed bridge (hop hi)
  | delta delta =>
    obtain ⟨e, hcall, -⟩ | ⟨message, hcall, -⟩ | ⟨current, final, -, hc, hi, hf, hplaced⟩ :=
      feed.book.applyDelta_cases delta
    · simp only [Feed.step, LocalOrderBook.call, hcall]
      exact ⟨h.bids, h.asks, h.numbered⟩
    · simp only [Feed.step, LocalOrderBook.call, hcall]
      exact h.invalidate
    · rcases hplaced with ⟨-, hcall⟩ | ⟨hk, hcall⟩
      · simp only [Feed.step, LocalOrderBook.call, hcall]
        exact ⟨h.bids, h.asks, h.numbered⟩
      · obtain ⟨before, hcarries⟩ := hop.carriesBook hi hf hk
        simp only [Feed.step, LocalOrderBook.call, hcall]
        exact h.advance hc hf hcarries
  | invalidate => exact h.invalidate

structure Current (history : BookHistory) (feed : Feed) : Prop where
  bids : ∀ n, feed.book.sequenceId = some n → ∀ price version,
    feed.namedBids price = some version → bidsAt history version price = bidsAt history n price
  asks : ∀ n, feed.book.sequenceId = some n → ∀ price version,
    feed.namedAsks price = some version → asksAt history version price = asksAt history n price
  reached : declaresPrevious feed.book.instrument.exchange = false → feed.book.Receptive →
    ∀ n, feed.book.sequenceId = some n → feed.cursor ≤ n

theorem current_new (history : BookHistory) (instrument : Instrument) (depth : ℕ)
    (depth_pos : 0 < depth) (cursor : ℤ) :
    Current history (new instrument depth depth_pos cursor) := by
  refine ⟨?_, ?_, ?_⟩ <;> simp [new, LocalOrderBook.new]

theorem named_empty {number : Option ℤ} {levels : List BookLevel} {price : ℚ} {version : ℤ}
    (h : named (fun _ => none) number levels price = some version) : number = some version := by
  cases number with
  | none => cases h
  | some n =>
    simp only [named, Option.elim_some, nameAt] at h
    split at h
    · exact h
    · cases h

theorem current_loaded {history : BookHistory} {snapshot : OrderBookSnapshot} (feed : Feed)
    (bridge : Bool)
    (hreached : declaresPrevious feed.book.instrument.exchange = false →
      ∀ n, snapshot.metadata.sequenceId = some n → feed.cursor ≤ n) :
    Current history
      { book := feed.book.load snapshot bridge
        cursor := feed.cursor
        namedBids := named (fun _ => none) snapshot.metadata.sequenceId snapshot.bids
        namedAsks := named (fun _ => none) snapshot.metadata.sequenceId snapshot.asks } := by
  have hnumber : (feed.book.load snapshot bridge).sequenceId = snapshot.metadata.sequenceId := rfl
  refine ⟨fun n hn price version h => ?_, fun n hn price version h => ?_,
    fun hv _ n hn => hreached hv n hn⟩
  · obtain rfl : n = version := Option.some.inj ((hnumber ▸ hn).symm.trans (named_empty h))
    rfl
  · obtain rfl : n = version := Option.some.inj ((hnumber ▸ hn).symm.trans (named_empty h))
    rfl

theorem Current.advance {history : BookHistory} {feed : Feed} {delta : OrderBookDelta}
    {current final : ℤ} (h : Current history feed) (hc : feed.book.sequenceId = some current)
    (hf : delta.metadata.sequenceId = some final)
    (hreached : declaresPrevious feed.book.instrument.exchange = false → feed.cursor ≤ final)
    (hd : CarriesBook delta (history current) (history final)) :
    Current history
      { book := feed.book.advance delta final
        cursor := max feed.cursor final
        namedBids := named feed.namedBids delta.metadata.sequenceId delta.bids
        namedAsks := named feed.namedAsks delta.metadata.sequenceId delta.asks } := by
  rw [hf]
  refine ⟨fun n hn => ?_, fun n hn => ?_, fun hv _ n hn => ?_⟩
  · obtain rfl : final = n := Option.some.inj hn
    exact Carries.recalled_current (bidsAt history) hd.bids (h.bids current hc)
  · obtain rfl : final = n := Option.some.inj hn
    exact Carries.recalled_current (asksAt history) hd.asks (h.asks current hc)
  · obtain rfl : final = n := Option.some.inj hn
    exact max_le (hreached hv) le_rfl

theorem Current.invalidate {history : BookHistory} {feed : Feed} (h : Current history feed) :
    Current history { feed with book := feed.book.invalidate } := by
  refine ⟨h.bids, h.asks, fun hv hr => h.reached hv ⟨hr.1, Or.inr ?_⟩⟩
  exact ((LocalOrderBook.invalidate_receptive_iff feed.book).mp hr).2

theorem Current.carriesBook {history : BookHistory} {feed : Feed} {depth : ℕ}
    {delta : OrderBookDelta} {current final : ℤ} (h : Current history feed)
    (hd : feed.Delivers history depth (.delta delta)) (hr : feed.book.Receptive)
    (hc : feed.book.sequenceId = some current)
    (hi : delta.metadata.instrument = feed.book.instrument)
    (hf : delta.metadata.sequenceId = some final)
    (hk : feed.book.continuity delta current final = .follows) :
    CarriesBook delta (history current) (history final) ∧
      (declaresPrevious feed.book.instrument.exchange = false → feed.cursor ≤ final) := by
  obtain ⟨htrue, hstream⟩ := hd hi
  cases hv : declaresPrevious feed.book.instrument.exchange with
  | true => exact ⟨carriesBook_of_follows (venue_of_declared hv) hi hf htrue hk, by simp⟩
  | false =>
    obtain ⟨final', first, hf', hfirst, -, hcarries⟩ := hstream hv
    obtain rfl : final' = final := by simpa [hf] using hf'.symm
    have hcursor := h.reached hv hr current hc
    rw [LocalOrderBook.continuity_of_undeclared hv] at hk
    split_ifs at hk with hle
    exact ⟨hcarries current (hfirst.trans hcursor) (by omega), fun _ => by omega⟩

theorem Current.step {history : BookHistory} {depth : ℕ} {feed : Feed} {op : BookOp}
    (h : Current history feed) (hop : feed.Delivers history depth op)
    (hfresh : declaresPrevious feed.book.instrument.exchange = true ∨ feed.Fresh op) :
    Current history (feed.step op) := by
  cases op with
  | snapshot snapshot bridge =>
    obtain ⟨e, hcall⟩ | ⟨hcall, -⟩ | ⟨hcall, hi⟩ :=
      feed.book.applySnapshot_cases snapshot bridge
    · simpa [Feed.step, LocalOrderBook.call, hcall] using h
    · simpa [Feed.step, LocalOrderBook.call, hcall] using h
    · simp only [Feed.step, LocalOrderBook.call, hcall]
      refine current_loaded feed bridge fun hv => ?_
      exact (hfresh.resolve_left (by simp [hv])) hi
  | delta delta =>
    obtain ⟨e, hcall, hnot⟩ | ⟨message, hcall, hwhy⟩ | ⟨current, final, hr, hc, hi, hf, hplaced⟩ :=
      feed.book.applyDelta_cases delta
    · simp only [Feed.step, LocalOrderBook.call, hcall]
      refine ⟨h.bids, h.asks, fun hv hr => ?_⟩
      by_cases hi : delta.metadata.instrument = feed.book.instrument
      · exact absurd hr (hnot hi)
      · simpa [hi] using h.reached hv hr
    · simp only [Feed.step, LocalOrderBook.call, hcall]
      have hinv := h.invalidate
      refine ⟨hinv.bids, hinv.asks, fun hv hr => ?_⟩
      have hv : declaresPrevious feed.book.instrument.exchange = false := hv
      by_cases hi : delta.metadata.instrument = feed.book.instrument
      · obtain ⟨final, _, hf, -⟩ := (hop hi).2 hv
        rcases hwhy with hnone | ⟨current, final', -, hgap⟩
        · simp [hnone] at hf
        · rw [LocalOrderBook.continuity_of_undeclared hv] at hgap
          split_ifs at hgap
      · simpa [hi] using hinv.reached hv hr
    · rcases hplaced with ⟨hk, hcall⟩ | ⟨hk, hcall⟩
      · simp only [Feed.step, LocalOrderBook.call, hcall]
        refine ⟨h.bids, h.asks, fun hv _ n hn => ?_⟩
        obtain rfl : current = n := by simpa [hc] using hn
        have hcursor := h.reached hv hr current hc
        rw [LocalOrderBook.continuity_of_undeclared hv] at hk
        split_ifs at hk with hle
        simpa [hi, hf] using ⟨hcursor, hle⟩
      · obtain ⟨hcarries, hreached⟩ := h.carriesBook hop hr hc hi hf hk
        have hnext := h.advance hc hf hreached hcarries
        simpa [Feed.step, LocalOrderBook.call, hcall, hi, hf] using hnext
  | invalidate => exact h.invalidate

def SeesRange (feed : Feed) (truth : TrueBook) (rangePercent midPrice : ℚ) : Prop :=
  (∀ price, truth.bids.quantityAt price ≠ 0 → bidFloor midPrice rangePercent ≤ price →
    feed.namedBids price ≠ none) ∧
  (∀ price, truth.asks.quantityAt price ≠ 0 → price ≤ askCeiling midPrice rangePercent →
    feed.namedAsks price ≠ none)

/-- The quantity that each price inside the range was named with last is the true one at `n`. -/
def RangeCurrent (feed : Feed) (history : BookHistory) (n : ℤ) (rangePercent midPrice : ℚ) : Prop :=
  (∀ price version, feed.namedBids price = some version →
    bidFloor midPrice rangePercent ≤ price →
      bidsAt history version price = bidsAt history n price) ∧
  (∀ price version, feed.namedAsks price = some version →
    price ≤ askCeiling midPrice rangePercent →
      asksAt history version price = asksAt history n price)

def ReportsTrue (ranged : OrderBookRangeNotional) (truth : TrueBook) (midPrice : ℚ) : Prop :=
  ranged.bidNotional =
      notional truth.bids.items (fun price => bidFloor midPrice ranged.rangePercent ≤ price) ∧
  ranged.askNotional =
      notional truth.asks.items (fun price => price ≤ askCeiling midPrice ranged.rangePercent)

theorem notional_eq_iff_named (full : BookSide) (within : ℚ → Bool) {stored : BookSide}
    {quantities : ℤ → ℚ → ℚ} {n : ℤ} {named : ℚ → Option ℤ}
    (hstored : stored.quantityAt = recalled 0 quantities named)
    (hfull : full.quantityAt = quantities n)
    (hcurrent : ∀ price version, named price = some version → within price = true →
      quantities version price = quantities n price) :
    notional stored.items within = notional full.items within ↔
      ∀ price, full.quantityAt price ≠ 0 → within price = true → named price ≠ none := by
  have hknown : ∀ price ∈ {price | named price ≠ none}, within price = true →
      stored.quantityAt price = full.quantityAt price := by
    intro price hknown hw
    obtain ⟨version, hversion⟩ := Option.ne_none_iff_exists'.mp hknown
    rw [hstored, hfull, recalled, hversion]
    exact hcurrent price version hversion hw
  have helse : ∀ price ∉ {price | named price ≠ none}, stored.quantityAt price = 0 := by
    intro price hunknown
    have hnone : named price = none := not_not.mp hunknown
    rw [hstored, recalled, hnone]
    rfl
  simpa only [BookSide.mem_prices, Set.mem_ofPred_eq] using
    BookSide.notional_eq_iff_known hknown helse

theorem Knows.reportsTrue_iff {history : BookHistory} {feed : Feed} (h : Knows history feed)
    {n : ℤ} (hn : feed.book.sequenceId = some n) {rangePercent midPrice : ℚ}
    {ranged : OrderBookRangeNotional} (hrange : ranged.rangePercent = rangePercent)
    (hranged : ReportsStored feed.book rangePercent midPrice ranged)
    (hcurrent : feed.RangeCurrent history n rangePercent midPrice) :
    ReportsTrue ranged (history n) midPrice ↔
      feed.SeesRange (history n) rangePercent midPrice := by
  subst hrange
  have hsome : feed.book.sequenceId ≠ none := by simp [hn]
  have hbids := notional_eq_iff_named (history n).bids
    (fun price => decide (bidFloor midPrice ranged.rangePercent ≤ price))
    (h.bids hsome) rfl (by simpa only [decide_eq_true_eq] using hcurrent.1)
  have hasks := notional_eq_iff_named (history n).asks
    (fun price => decide (price ≤ askCeiling midPrice ranged.rangePercent))
    (h.asks hsome) rfl (by simpa only [decide_eq_true_eq] using hcurrent.2)
  simp only [decide_eq_true_eq] at hbids hasks
  unfold ReportsTrue SeesRange
  rw [hranged.bids, hranged.asks, hbids, hasks]

/-- In every run that loses nothing, a range that is reported as fully covered, and in which every
price still has the quantity it was named with last, has the notionals of the true book exactly when
every true level inside it has been named since the last snapshot. The quantities named last are
current where deltas declare what they follow, and elsewhere if no snapshot is older than the
stream. -/
theorem covered_reports_true_iff_seen (history : BookHistory) (instrument : Instrument)
    (depth : ℕ) (depth_pos : 0 < depth) (snapshotDepth : ℕ) (cursor : ℤ) (ops : List BookOp)
    (hops : Guarded step (Delivers history snapshotDepth)
      (new instrument depth depth_pos cursor) ops)
    (rangePercent : ℚ) (ranged : OrderBookRangeNotional)
    (hranged : (run step (new instrument depth depth_pos cursor)
      ops).book.view.notionalWithinRange rangePercent = .ok ranged)
    (hcovered : ranged.isFullyCovered = true) :
    let feed := run step (new instrument depth depth_pos cursor) ops
    ∃ n midPrice, feed.book.sequenceId = some n ∧ ranged.midPrice = some midPrice ∧
      (feed.RangeCurrent history n rangePercent midPrice →
        (ReportsTrue ranged (history n) midPrice ↔
          feed.SeesRange (history n) rangePercent midPrice)) ∧
      (declaresPrevious instrument.exchange = true ∨
          Guarded step Fresh (new instrument depth depth_pos cursor) ops →
        feed.RangeCurrent history n rangePercent midPrice) := by
  intro feed
  have hknows : Knows history feed :=
    run_invariant_of_guarded (Knows history) (fun _ _ h hop => h.step hop)
      (knows_new history instrument depth depth_pos cursor) hops
  obtain ⟨midPrice, hstored⟩ := reportsStored_of_covered hranged hcovered
  obtain ⟨n, hn⟩ := Option.ne_none_iff_exists'.mp (hknows.numbered hstored.synchronized)
  refine ⟨n, midPrice, hn, hstored.midPrice_eq, fun hcurrent =>
    hknows.reportsTrue_iff hn hstored.rangePercent_eq hstored hcurrent, fun hfresh => ?_⟩
  have hguard : Guarded step (fun feed op => feed.Delivers history snapshotDepth op ∧
      (declaresPrevious instrument.exchange = true ∨ feed.Fresh op))
      (new instrument depth depth_pos cursor) ops := by
    refine guarded_and.mpr ⟨hops, ?_⟩
    rcases hfresh with hdeclared | hfresh
    · exact guarded_mono (fun _ _ _ => Or.inl hdeclared) hops
    · exact guarded_mono (fun _ _ h => .inr h) hfresh
  have hcurrent := run_invariant_of_guarded
    (fun feed => feed.book.instrument = instrument ∧ Current history feed)
    (fun feed op h hop => ⟨by rw [step_instrument, h.1], h.2.step hop.1 (by rw [h.1]; exact hop.2)⟩)
    ⟨rfl, current_new history instrument depth depth_pos cursor⟩ hguard
  exact ⟨fun price version hv _ => hcurrent.2.bids n hn price version hv,
    fun price version hv _ => hcurrent.2.asks n hn price version hv⟩

/-! A book of depth two is loaded with the bids 100 and 99 above a hidden 98. One delta deletes
99 and adds 50, which covers three percent and leaves 98 out. -/

def unitLevel (price : ℕ) (h : 0 < price) : BookLevel where
  price := price
  quantity := 1
  price_pos := by exact_mod_cast h
  quantity_nonneg := by norm_num

def hidingSnapshot : OrderBookSnapshot where
  metadata := .numbered (btcUsdt .binance .spot) 1 0
  bids := [unitLevel 100 (by decide), unitLevel 99 (by decide)]
  asks := [unitLevel 101 (by decide), unitLevel 200 (by decide)]
  depth := 2

theorem hiddenPrice_pos : (0 : ℚ) < 99 := by norm_num

def hidingDelta : OrderBookDelta where
  metadata := .numbered (btcUsdt .binance .spot) 2 1
  bids := [⟨99, 0, hiddenPrice_pos, le_rfl⟩, unitLevel 50 (by decide)]
  asks := []
  firstSequenceId := some 2

def hidingRun : List BookOp := [.snapshot hidingSnapshot false, .delta hidingDelta]

def hidingHistory : BookHistory := fun n =>
  let bids := BookSide.empty.applyLevels (hidingSnapshot.bids ++ [unitLevel 98 (by decide)])
  { bids := if n ≤ 1 then bids else bids.applyLevels hidingDelta.bids
    asks := BookSide.empty.applyLevels hidingSnapshot.asks }

def hidingReport : OrderBookRangeNotional where
  rangePercent := 3
  midPrice := some (201 / 2)
  bidNotional := 100
  askNotional := 101
  isFullyCovered := true

theorem hidingSnapshot_best : SnapshotBest hidingHistory 2 hidingSnapshot := by
  intro n hn
  obtain rfl : 1 = n := Option.some.inj hn
  have hbids : (hidingHistory 1).bids.descending.take 2 = hidingSnapshot.bids := by
    decide +kernel
  have hasks : (hidingHistory 1).asks.ascending.take 2 = hidingSnapshot.asks := by
    decide +kernel
  rw [hbids, hasks]
  exact ⟨fun _ => Iff.rfl, fun _ => Iff.rfl⟩

theorem hidingDelta_true : DeltaTrue hidingHistory hidingDelta := by
  intro final hfinal
  obtain rfl : 2 = final := Option.some.inj hfinal
  refine ⟨by simp [hidingDelta], fun _ n hlo hhi => ⟨⟨by decide +kernel, ?_⟩, ⟨?_, ?_⟩⟩⟩
  · intro price hp
    by_cases hle : n ≤ 1
    · have hafter : (hidingHistory 2).bids.quantityAt =
          write (hidingHistory n).bids.quantityAt (entries hidingDelta.bids) := by
        simp only [hidingHistory, hle, if_true]
        exact BookSide.quantityAt_applyLevels _ _
      rw [hafter, write_of_not_mem hp]
    · simp [hidingHistory, hle]
  · simp [entries, hidingDelta]
  · intro price _
    rfl

theorem hidingRun_delivers :
    Guarded step (Delivers hidingHistory 2) (new (btcUsdt .binance .spot) 2 (by decide) 0)
      hidingRun := by
  refine ⟨fun _ => hidingSnapshot_best, fun _ => ⟨hidingDelta_true, ?_⟩, trivial⟩
  rw [step_instrument]
  simp [new, LocalOrderBook.new, btcUsdt, declaresPrevious]

theorem hidingRun_reports :
    (run step (new (btcUsdt .binance .spot) 2 (by decide) 0)
      hidingRun).book.view.notionalWithinRange 3 = .ok hidingReport := by
  decide +kernel

theorem covered_reports_true_iff_seen_of_hidden :
    let feed := run step (new (btcUsdt .binance .spot) 2 (by decide) 0) hidingRun
    ∃ n midPrice, feed.book.sequenceId = some n ∧ hidingReport.midPrice = some midPrice ∧
      (feed.RangeCurrent hidingHistory n 3 midPrice →
        (ReportsTrue hidingReport (hidingHistory n) midPrice ↔
          feed.SeesRange (hidingHistory n) 3 midPrice)) ∧
      (declaresPrevious (btcUsdt .binance .spot).exchange = true ∨
          Guarded step Fresh (new (btcUsdt .binance .spot) 2 (by decide) 0) hidingRun →
        feed.RangeCurrent hidingHistory n 3 midPrice) :=
  covered_reports_true_iff_seen hidingHistory (btcUsdt .binance .spot) 2 (by decide) 2 0 hidingRun
    hidingRun_delivers 3 hidingReport hidingRun_reports rfl

theorem covered_report_understates :
    ¬ ∀ (history : BookHistory) (instrument : Instrument) (depth : ℕ) (depth_pos : 0 < depth)
      (cursor : ℤ) (ops : List BookOp) (rangePercent : ℚ) (ranged : OrderBookRangeNotional)
      (n : ℤ) (midPrice : ℚ),
      Guarded step (Delivers history depth) (new instrument depth depth_pos cursor) ops →
      (run step (new instrument depth depth_pos cursor) ops).book.view.notionalWithinRange
        rangePercent = .ok ranged →
      ranged.isFullyCovered = true →
      (run step (new instrument depth depth_pos cursor) ops).book.sequenceId = some n →
      ranged.midPrice = some midPrice →
      ReportsTrue ranged (history n) midPrice := by
  intro h
  have htrue := h hidingHistory (btcUsdt .binance .spot) 2 (by decide) 0 hidingRun 3 hidingReport
    2 (201 / 2) hidingRun_delivers hidingRun_reports rfl (by decide +kernel) rfl
  have hdiffers : ¬ ((100 : ℚ) = notional (hidingHistory 2).bids.items
      fun price => bidFloor (201 / 2) 3 ≤ price) := by
    decide +kernel
  exact hdiffers htrue.1

end Feed

end ChainQuantStudio.State.OrderBook
