import ChainQuantStudio.Library.Run
import ChainQuantStudio.State.OrderBook
import Mathlib.Tactic.NormNum

/-!
# The book against the exchange's own history

A history assigns the exchange's book to each of its sequence numbers. Snapshots and deltas are
true to it when a snapshot is the book at its number and a delta carries every level that changed
over the numbers it declares. The two venues whose deltas declare what they follow keep the stored
levels equal to the history at the stored number through every run of calls.
-/

namespace ChainQuantStudio.State.OrderBook

open Data Run VersionedMap

structure TrueBook where
  bids : BookSide
  asks : BookSide

abbrev BookHistory := ℤ → TrueBook

structure ListsSide (levels : List BookLevel) (side : BookSide) : Prop where
  lists : ∀ entry ∈ entries levels, entry.2 = side.quantityAt entry.1
  complete : ∀ price ∉ keys (entries levels), side.quantityAt price = 0

def SnapshotTrue (history : BookHistory) (snapshot : OrderBookSnapshot) : Prop :=
  ∀ n, snapshot.metadata.sequenceId = some n →
    ListsSide snapshot.bids (history n).bids ∧ ListsSide snapshot.asks (history n).asks

structure CarriesBook (delta : OrderBookDelta) (before after : TrueBook) : Prop where
  bids : Carries (entries delta.bids) before.bids.quantityAt after.bids.quantityAt
  asks : Carries (entries delta.asks) before.asks.quantityAt after.asks.quantityAt

def declaredFirst (delta : OrderBookDelta) (final : ℤ) : ℤ :=
  min (delta.firstSequenceId.getD final) final

def DeltaTrue (history : BookHistory) (delta : OrderBookDelta) : Prop :=
  ∀ final, delta.metadata.sequenceId = some final →
    (∀ previous, delta.previousSequenceId = some previous →
      CarriesBook delta (history previous) (history final)) ∧
    (delta.metadata.instrument.exchange = .binance →
      ∀ n, declaredFirst delta final - 1 ≤ n → n ≤ final →
        CarriesBook delta (history n) (history final))

/-- What a call delivers for an instrument is true to the history. -/
def OpTrue (history : BookHistory) (instrument : Instrument) : BookOp → Prop
  | .snapshot snapshot _ =>
    snapshot.metadata.instrument = instrument → SnapshotTrue history snapshot
  | .delta delta => delta.metadata.instrument = instrument → DeltaTrue history delta
  | .invalidate => True

theorem declaredFirst_le {delta : OrderBookDelta} {final n : ℤ}
    (h : LocalOrderBook.firstSequence delta final ≤ n + 1) (hn : n ≤ final) :
    declaredFirst delta final - 1 ≤ n := by
  unfold LocalOrderBook.firstSequence at h
  unfold declaredFirst
  cases hf : delta.firstSequenceId with
  | none => simp only [hf] at h; simp; omega
  | some first =>
    simp only [hf] at h
    by_cases hz : first = 0 <;> simp only [hz, if_true, if_false] at h <;> simp <;> omega

theorem carriesBook_of_follows {history : BookHistory} {book : LocalOrderBook}
    {delta : OrderBookDelta} {current final : ℤ}
    (hvenue : book.instrument.exchange = .binance ∨ book.instrument.exchange = .okx)
    (hi : delta.metadata.instrument = book.instrument)
    (hf : delta.metadata.sequenceId = some final) (hd : DeltaTrue history delta)
    (hk : book.continuity delta current final = .follows) :
    CarriesBook delta (history current) (history final) := by
  obtain ⟨hprevious, hinterval⟩ := hd final hf
  rcases hvenue with he | he
  · simp only [LocalOrderBook.continuity, he] at hk
    obtain ⟨hhi, hp | hlo⟩ := LocalOrderBook.validateBinance_follows hk
    · exact hprevious current hp
    · exact hinterval (by rw [hi, he]) current (declaredFirst_le hlo hhi) hhi
  · simp only [LocalOrderBook.continuity, he, LocalOrderBook.requirePreviousSequence] at hk
    split_ifs at hk with _ hp
    exact hprevious current hp

namespace LocalOrderBook

structure Agrees (history : BookHistory) (book : LocalOrderBook) : Prop where
  bids : ∀ n, book.sequenceId = some n → book.bids.quantityAt = (history n).bids.quantityAt
  asks : ∀ n, book.sequenceId = some n → book.asks.quantityAt = (history n).asks.quantityAt
  numbered : book.isSynchronized = true → book.sequenceId ≠ none

theorem agrees_new (history : BookHistory) (instrument : Instrument) (depth : ℕ)
    (depth_pos : 0 < depth) : Agrees history (new instrument depth depth_pos) := by
  refine ⟨?_, ?_, ?_⟩ <;> simp [new]

theorem Agrees.invalidate {history : BookHistory} {book : LocalOrderBook}
    (h : Agrees history book) : Agrees history book.invalidate :=
  ⟨h.bids, h.asks, by simp⟩

theorem quantityAt_ofSnapshot_of_listsSide {levels : List BookLevel} {side : BookSide}
    (h : ListsSide levels side) :
    (BookSide.ofSnapshot levels).quantityAt = side.quantityAt := by
  funext price
  obtain ⟨hin, hout⟩ := BookSide.quantityAt_ofSnapshot h.lists price
  by_cases hk : price ∈ keys (entries levels)
  · exact hin hk
  · rw [hout hk, h.complete price hk]

theorem Agrees.load {history : BookHistory} (book : LocalOrderBook)
    {snapshot : OrderBookSnapshot} (bridge : Bool) (h : SnapshotTrue history snapshot) :
    Agrees history (book.load snapshot bridge) := by
  refine ⟨fun n hn => ?_, fun n hn => ?_, fun hs hn => ?_⟩
  · exact quantityAt_ofSnapshot_of_listsSide (h n hn).1
  · exact quantityAt_ofSnapshot_of_listsSide (h n hn).2
  · have hnone : snapshot.metadata.sequenceId = none := hn
    simp [LocalOrderBook.load, hnone] at hs

theorem Agrees.advance {history : BookHistory} {book : LocalOrderBook}
    {delta : OrderBookDelta} {current final : ℤ} (h : Agrees history book)
    (hc : book.sequenceId = some current)
    (hd : CarriesBook delta (history current) (history final)) :
    Agrees history (book.advance delta final) := by
  refine ⟨fun n hn => ?_, fun n hn => ?_, fun _ hn => ?_⟩
  · obtain rfl : final = n := Option.some.inj hn
    change (book.bids.applyLevels delta.bids).quantityAt = _
    rw [BookSide.quantityAt_applyLevels, h.bids current hc, hd.bids.write_eq]
  · obtain rfl : final = n := Option.some.inj hn
    change (book.asks.applyLevels delta.asks).quantityAt = _
    rw [BookSide.quantityAt_applyLevels, h.asks current hc, hd.asks.write_eq]
  · simp [LocalOrderBook.advance] at hn

theorem Agrees.step {history : BookHistory} {book : LocalOrderBook} {op : BookOp}
    (hvenue : book.instrument.exchange = .binance ∨ book.instrument.exchange = .okx)
    (hop : OpTrue history book.instrument op) (h : Agrees history book) :
    Agrees history (book.step op) := by
  cases op with
  | snapshot snapshot bridge =>
    obtain ⟨e, hcall⟩ | ⟨hcall, -⟩ | ⟨hcall, hi⟩ := applySnapshot_cases book snapshot bridge
    · simpa [LocalOrderBook.step, call, hcall] using h
    · simpa [LocalOrderBook.step, call, hcall] using h
    · simpa [LocalOrderBook.step, call, hcall] using Agrees.load book bridge (hop hi)
  | delta delta =>
    obtain ⟨e, hcall, -⟩ | ⟨e, hcall, -⟩ | ⟨current, final, -, hc, hi, hf, hcall⟩ :=
      applyDelta_cases book delta
    · simpa [LocalOrderBook.step, call, hcall] using h
    · simpa [LocalOrderBook.step, call, hcall] using h.invalidate
    · rcases hcall with ⟨-, hcall⟩ | ⟨hk, hcall⟩
      · simpa [LocalOrderBook.step, call, hcall] using h
      · have hcarries := carriesBook_of_follows hvenue hi hf (hop hi) hk
        simpa [LocalOrderBook.step, call, hcall] using h.advance hc hcarries
  | invalidate => exact h.invalidate

theorem agrees_run {history : BookHistory} {instrument : Instrument}
    (hvenue : instrument.exchange = .binance ∨ instrument.exchange = .okx) {depth : ℕ}
    (depth_pos : 0 < depth) {ops : List BookOp} (hops : ∀ op ∈ ops, OpTrue history instrument op) :
    Agrees history (run step (new instrument depth depth_pos) ops) := by
  have hrun := run_invariant_of_guarded
    (fun book => book.instrument = instrument ∧ Agrees history book)
    (fun book op hinv hop => ⟨by rw [step_instrument, hinv.1],
      hinv.2.step (by rw [hinv.1]; exact hvenue) (by rw [hinv.1]; exact hop)⟩)
    ⟨rfl, agrees_new history instrument depth depth_pos⟩ (guarded_of_forall hops)
  exact hrun.2

/-- A synchronized book stores the levels of the true book at its sequence number. -/
theorem synchronized_levels_eq_history (history : BookHistory) (instrument : Instrument)
    (hvenue : instrument.exchange = .binance ∨ instrument.exchange = .okx) (depth : ℕ)
    (depth_pos : 0 < depth) (ops : List BookOp) (hops : ∀ op ∈ ops, OpTrue history instrument op)
    (hsync : (run step (new instrument depth depth_pos) ops).isSynchronized = true) :
    let book := run step (new instrument depth depth_pos) ops
    ∃ n, book.sequenceId = some n ∧ ∀ price,
      book.bids.levels.lookup price = (history n).bids.levels.lookup price ∧
      book.asks.levels.lookup price = (history n).asks.levels.lookup price := by
  intro book
  have hagrees : Agrees history book := agrees_run hvenue depth_pos hops
  obtain ⟨n, hn⟩ := Option.ne_none_iff_exists'.mp (hagrees.numbered hsync)
  refine ⟨n, hn, fun price => ⟨?_, ?_⟩⟩
  · exact BookSide.lookup_eq_of_quantityAt (congrFun (hagrees.bids n hn) price)
  · exact BookSide.lookup_eq_of_quantityAt (congrFun (hagrees.asks n hn) price)

/-! One bid whose quantity update 101 changes from 3 to 5. -/

theorem bidPrice_pos : (0 : ℚ) < 99 := by norm_num

def bidAt (n : ℤ) : BookLevel where
  price := 99
  quantity := if n ≤ 100 then 3 else 5
  price_pos := bidPrice_pos
  quantity_nonneg := by split <;> norm_num

def oneBidHistory : BookHistory := fun n => { bids := BookSide.empty.put (bidAt n), asks := .empty }

theorem oneBid_listsSide (n : ℤ) : ListsSide [bidAt n] (oneBidHistory n).bids := by
  refine ⟨?_, fun price hp => ?_⟩
  · simp [entries, oneBidHistory, BookSide.quantityAt_put]
  · have hne : price ≠ (bidAt n).price := fun heq => hp ⟨_, List.mem_singleton_self _, heq.symm⟩
    simp [oneBidHistory, BookSide.quantityAt_put, hne]

theorem oneBid_carries (m n : ℤ) :
    Carries (entries [bidAt n]) (oneBidHistory m).bids.quantityAt
      (oneBidHistory n).bids.quantityAt := by
  refine ⟨(oneBid_listsSide n).lists, fun price hp => ?_⟩
  have hne : price ≠ 99 := fun heq => hp ⟨_, List.mem_singleton_self _, heq.symm⟩
  simp [oneBidHistory, BookSide.quantityAt_put, bidAt, hne]

theorem synchronized_levels_eq_history_of_update :
    ∃ n : ℤ, some 101 = some n ∧ ∀ price,
      (BookSide.empty.put (bidAt 101)).levels.lookup price =
        (oneBidHistory n).bids.levels.lookup price ∧
      BookSide.empty.levels.lookup price = (oneBidHistory n).asks.levels.lookup price :=
  synchronized_levels_eq_history oneBidHistory (btcUsdt .binance .spot) (Or.inl rfl) 100
    (by decide)
    [.snapshot
        { metadata := .numbered (btcUsdt .binance .spot) 100 0, bids := [bidAt 100], asks := [] }
        true,
      .delta
        { metadata := .numbered (btcUsdt .binance .spot) 101 1, bids := [bidAt 101], asks := []
          firstSequenceId := some 101 }]
    (by
      intro op hop
      simp only [List.mem_cons, List.not_mem_nil, or_false] at hop
      rcases hop with rfl | rfl
      · rintro - n hn
        obtain rfl : 100 = n := Option.some.inj hn
        exact ⟨oneBid_listsSide 100, by simp [entries], fun _ _ => rfl⟩
      · rintro - n hn
        obtain rfl : 101 = n := Option.some.inj hn
        refine ⟨by simp, fun _ m _ _ => ⟨oneBid_carries m 101, ?_⟩⟩
        exact ⟨by simp [entries], fun _ _ => rfl⟩)
    (by decide +kernel)

end LocalOrderBook

end ChainQuantStudio.State.OrderBook
