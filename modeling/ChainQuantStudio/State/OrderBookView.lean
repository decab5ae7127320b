import ChainQuantStudio.Library.Run
import ChainQuantStudio.Library.SortedPrefix
import ChainQuantStudio.State.OrderBook
import Mathlib.Algebra.BigOperators.Group.Finset.Basic
import Mathlib.Algebra.Order.BigOperators.Group.Finset
import Mathlib.Tactic.Linarith

/-!
# The view of a book and the levels behind it

The sides of a view are strictly ordered prefixes of the stored levels. When a range is reported
as fully covered nothing stored lies between the last visible level and the end of the range, so
the reported notionals are sums over every stored level of the range.
-/

namespace ChainQuantStudio.State.OrderBook

open Data SortedPrefix

namespace BookSide

theorem items_pairwise_ne (side : BookSide) :
    side.items.Pairwise fun a b => a.price ≠ b.price := by
  unfold items
  apply List.Pairwise.pmap (List.nodupKeys_iff_pairwise.mp side.levels.nodupKeys)
  intro _ _ _ _ hne
  exact hne

theorem descending_perm (side : BookSide) : side.descending.Perm side.items :=
  List.perm_insertionSort _ _

theorem ascending_perm (side : BookSide) : side.ascending.Perm side.items :=
  List.perm_insertionSort _ _

theorem descending_pairwise (side : BookSide) :
    side.descending.Pairwise fun a b => b.price < a.price :=
  pairwise_lt_insertionSort (fun level : BookLevel => OrderDual.toDual level.price)
    side.items_pairwise_ne

theorem ascending_pairwise (side : BookSide) :
    side.ascending.Pairwise fun a b => a.price < b.price :=
  pairwise_lt_insertionSort BookLevel.price side.items_pairwise_ne

end BookSide

theorem notional_perm {a b : List BookLevel} (h : a.Perm b) (within : ℚ → Bool) :
    notional a within = notional b within :=
  ((h.filter _).map _).sum_eq

theorem notional_bids_of_covered {side : BookSide} {depth : ℕ} {floor : ℚ}
    (h : (side.descending.take depth).getLast?.any (fun level => level.price ≤ floor) = true) :
    notional (side.descending.take depth) (fun price => floor ≤ price) =
      notional side.items fun price => floor ≤ price := by
  obtain ⟨last, hlast, hle⟩ := (Option.any_eq_true _ _).mp h
  rw [← notional_perm side.descending_perm, notional, notional,
    filter_take_eq_filter side.descending_pairwise hlast]
  intro level hlt
  simpa using lt_of_lt_of_le hlt (by simpa using hle)

theorem notional_asks_of_covered {side : BookSide} {depth : ℕ} {ceiling : ℚ}
    (h : (side.ascending.take depth).getLast?.any (fun level => ceiling ≤ level.price) = true) :
    notional (side.ascending.take depth) (fun price => price ≤ ceiling) =
      notional side.items fun price => price ≤ ceiling := by
  obtain ⟨last, hlast, hle⟩ := (Option.any_eq_true _ _).mp h
  rw [← notional_perm side.ascending_perm, notional, notional,
    filter_take_eq_filter side.ascending_pairwise hlast]
  intro level hlt
  simpa using lt_of_le_of_lt (by simpa using hle) hlt

structure ReportsStored (book : LocalOrderBook) (rangePercent midPrice : ℚ)
    (ranged : OrderBookRangeNotional) : Prop where
  rangePercent_eq : ranged.rangePercent = rangePercent
  midPrice_eq : ranged.midPrice = some midPrice
  synchronized : book.isSynchronized = true
  bids : ranged.bidNotional =
    notional book.bids.items fun price => bidFloor midPrice rangePercent ≤ price
  asks : ranged.askNotional =
    notional book.asks.items fun price => price ≤ askCeiling midPrice rangePercent

theorem reportsStored_of_covered {book : LocalOrderBook} {rangePercent : ℚ}
    {ranged : OrderBookRangeNotional}
    (h : book.view.notionalWithinRange rangePercent = .ok ranged)
    (hcovered : ranged.isFullyCovered = true) :
    ∃ midPrice, ReportsStored book rangePercent midPrice ranged := by
  unfold OrderBookView.notionalWithinRange at h
  split_ifs at h with hrange
  cases hb : book.view.bestBid with
  | none =>
    simp only [hb, Except.ok.injEq] at h
    simp [← h, OrderBookRangeNotional.unavailable] at hcovered
  | some bestBid =>
    cases ha : book.view.bestAsk with
    | none =>
      simp only [hb, ha, Except.ok.injEq] at h
      simp [← h, OrderBookRangeNotional.unavailable] at hcovered
    | some bestAsk =>
      simp only [hb, ha, Except.ok.injEq] at h
      subst h
      simp only [Bool.and_eq_true] at hcovered
      obtain ⟨⟨hsync, hbids⟩, hasks⟩ := hcovered
      exact ⟨_, rfl, rfl, hsync, notional_bids_of_covered hbids, notional_asks_of_covered hasks⟩

theorem midPrice_of_covered {book : LocalOrderBook} {rangePercent : ℚ}
    {ranged : OrderBookRangeNotional}
    (h : book.view.notionalWithinRange rangePercent = .ok ranged)
    (hcovered : ranged.isFullyCovered = true) :
    ∃ bestBid bestAsk, book.view.bestBid = some bestBid ∧ book.view.bestAsk = some bestAsk ∧
      ranged.midPrice = some ((bestBid.price + bestAsk.price) / 2) := by
  unfold OrderBookView.notionalWithinRange at h
  split_ifs at h with hrange
  split at h
  case h_1 bestBid bestAsk hb ha =>
    rw [← Except.ok.inj h]
    exact ⟨bestBid, bestAsk, hb, ha, rfl⟩
  case h_2 =>
    rw [← Except.ok.inj h] at hcovered
    simp [OrderBookRangeNotional.unavailable] at hcovered

theorem positive_of_mem_items {side : BookSide} {level : BookLevel} (h : level ∈ side.items) :
    0 < level.quantity :=
  (side.positive level.price level.quantity (BookSide.mem_items.mp h)).2

structure OrderBookView.Ordered (view : OrderBookView) (depth : ℕ) : Prop where
  bids_descending : view.bids.Pairwise fun a b => b.price < a.price
  asks_ascending : view.asks.Pairwise fun a b => a.price < b.price
  bids_positive : ∀ level ∈ view.bids, 0 < level.quantity
  asks_positive : ∀ level ∈ view.asks, 0 < level.quantity
  bids_length : view.bids.length ≤ depth
  asks_length : view.asks.length ≤ depth

theorem LocalOrderBook.view_ordered (book : LocalOrderBook) : book.view.Ordered book.depth where
  bids_descending := book.bids.descending_pairwise.sublist (List.take_sublist _ _)
  asks_ascending := book.asks.ascending_pairwise.sublist (List.take_sublist _ _)
  bids_positive _ hlevel :=
    positive_of_mem_items (book.bids.descending_perm.mem_iff.mp (List.mem_of_mem_take hlevel))
  asks_positive _ hlevel :=
    positive_of_mem_items (book.asks.ascending_perm.mem_iff.mp (List.mem_of_mem_take hlevel))
  bids_length := List.length_take_le _ _
  asks_length := List.length_take_le _ _

theorem LocalOrderBook.step_depth (book : LocalOrderBook) (op : BookOp) :
    (book.step op).depth = book.depth := by
  cases op with
  | snapshot snapshot bridge =>
    rcases applySnapshot_cases book snapshot bridge with ⟨e, h⟩ | ⟨h, -⟩ | ⟨h, -⟩
    · simp [step, call, h]
    · simp [step, call, h]
    · simp [step, call, h, load]
  | delta delta =>
    rcases applyDelta_cases book delta with
      ⟨e, h, -⟩ | ⟨e, h, -⟩ | ⟨_, _, _, _, _, _, ⟨-, h⟩ | ⟨-, h⟩⟩
    · simp [step, call, h]
    · simp [step, call, h, invalidate]
    · simp [step, call, h]
    · simp [step, call, h, advance]
  | invalidate => rfl

/-- After any snapshots and deltas the view is in order, and a range it reports as fully covered
has the notionals of all the stored levels in it. -/
theorem LocalOrderBook.view_reports_stored (instrument : Instrument) (depth : ℕ)
    (depth_pos : 0 < depth) (ops : List BookOp) (rangePercent : ℚ) :
    let book := Run.run step (new instrument depth depth_pos) ops
    book.view.Ordered depth ∧
      ∀ ranged, book.view.notionalWithinRange rangePercent = .ok ranged →
        ranged.isFullyCovered = true →
        ∃ bestBid bestAsk, book.view.bestBid = some bestBid ∧ book.view.bestAsk = some bestAsk ∧
          ReportsStored book rangePercent ((bestBid.price + bestAsk.price) / 2) ranged := by
  intro book
  have hdepth : book.depth = depth :=
    Run.run_invariant (fun book : LocalOrderBook => book.depth = depth)
      (fun current op hd => (current.step_depth op).trans hd) rfl ops
  refine ⟨hdepth ▸ book.view_ordered, fun ranged h hcovered => ?_⟩
  obtain ⟨bestBid, bestAsk, hb, ha, hmid⟩ := midPrice_of_covered h hcovered
  obtain ⟨midPrice, hreports⟩ := reportsStored_of_covered h hcovered
  have heq : midPrice = (bestBid.price + bestAsk.price) / 2 :=
    Option.some.inj (hreports.midPrice_eq.symm.trans hmid)
  exact ⟨bestBid, bestAsk, hb, ha, heq ▸ hreports⟩

theorem unitQuantity_nonneg : (0 : ℚ) ≤ 1 := by decide

def twoLevels : List BookOp :=
  let unit (price : ℚ) (h : 0 < price) : BookLevel := ⟨price, 1, h, unitQuantity_nonneg⟩
  [.snapshot
    { metadata := .numbered (btcUsdt .binance .spot) 100 0
      bids := [unit 99 (by decide), unit 98 (by decide)]
      asks := [unit 101 (by decide), unit 102 (by decide)] } false]

/-- One percent around 100 is covered by two levels. -/
theorem LocalOrderBook.view_reports_stored_one :
    let book := Run.run step (new (btcUsdt .binance .spot) 2 (by decide)) twoLevels
    book.view.Ordered 2 ∧ ∃ ranged bestBid bestAsk,
      book.view.notionalWithinRange 1 = .ok ranged ∧ ranged.isFullyCovered = true ∧
        ReportsStored book 1 ((BookLevel.price bestBid + BookLevel.price bestAsk) / 2) ranged := by
  intro book
  obtain ⟨hordered, hreports⟩ :=
    view_reports_stored (btcUsdt .binance .spot) 2 (by decide) twoLevels 1
  obtain ⟨bestBid, bestAsk, -, -, hstored⟩ := hreports _ rfl (by decide +kernel)
  exact ⟨hordered, _, bestBid, bestAsk, rfl, by decide +kernel, hstored⟩

namespace BookSide

def prices (side : BookSide) : Finset ℚ := (side.items.map BookLevel.price).toFinset

theorem mem_prices {side : BookSide} {price : ℚ} :
    price ∈ side.prices ↔ side.quantityAt price ≠ 0 := by
  rw [quantityAt_ne_zero_iff]
  simp only [prices, List.mem_toFinset, List.mem_map]
  constructor
  · rintro ⟨level, hl, rfl⟩
    exact ⟨_, mem_items.mp hl⟩
  · rintro ⟨quantity, hq⟩
    have hpos := side.positive price quantity hq
    exact ⟨⟨price, quantity, hpos.1, hpos.2.le⟩, mem_items.mpr hq, rfl⟩

theorem price_pos_of_mem {side : BookSide} {price : ℚ} (h : price ∈ side.prices) : 0 < price := by
  obtain ⟨quantity, hq⟩ := quantityAt_ne_zero_iff.mp (mem_prices.mp h)
  exact (side.positive price quantity hq).1

theorem notional_items (side : BookSide) (within : ℚ → Bool) :
    notional side.items within =
      ∑ price ∈ side.prices.filter (within · = true), price * side.quantityAt price := by
  have hnodup : ((side.items.filter fun l => within l.price).map BookLevel.price).Nodup :=
    List.pairwise_map.mpr (side.items_pairwise_ne.filter _)
  have hset : side.prices.filter (within · = true) =
      ((side.items.filter fun l => within l.price).map BookLevel.price).toFinset := by
    ext price
    simp only [prices, Finset.mem_filter, List.mem_toFinset, List.mem_map, List.mem_filter]
    constructor
    · rintro ⟨⟨level, hl, rfl⟩, hw⟩
      exact ⟨level, ⟨hl, hw⟩, rfl⟩
    · rintro ⟨level, ⟨hl, hw⟩, rfl⟩
      exact ⟨⟨level, hl, rfl⟩, hw⟩
  rw [hset, List.sum_toFinset _ hnodup, List.map_map, notional]
  congr 1
  apply List.map_congr_left
  intro level hl
  have hlookup := mem_items.mp (List.mem_of_mem_filter hl)
  simp [quantityAt, hlookup]

/-- A side that rests another's quantities on the prices it knows within the test, and nothing
elsewhere, sums to the same exactly when it knows every price of the other within the test. -/
theorem notional_eq_iff_known {stored full : BookSide} {known : Set ℚ} {within : ℚ → Bool}
    (hknown : ∀ price ∈ known, within price = true →
      stored.quantityAt price = full.quantityAt price)
    (helse : ∀ price ∉ known, stored.quantityAt price = 0) :
    notional stored.items within = notional full.items within ↔
      ∀ price ∈ full.prices, within price = true → price ∈ known := by
  have hsub : stored.prices.filter (within · = true) ⊆ full.prices.filter (within · = true) := by
    intro price hp
    obtain ⟨hp, hw⟩ := Finset.mem_filter.mp hp
    have hk : price ∈ known := by
      by_contra hk
      exact mem_prices.mp hp (helse price hk)
    refine Finset.mem_filter.mpr ⟨mem_prices.mpr ?_, hw⟩
    rw [← hknown price hk hw]
    exact mem_prices.mp hp
  have hsum : notional stored.items within =
      ∑ price ∈ stored.prices.filter (within · = true), price * full.quantityAt price := by
    rw [notional_items]
    apply Finset.sum_congr rfl
    intro price hp
    have hk : price ∈ known := by
      by_contra hk
      exact mem_prices.mp (Finset.mem_filter.mp hp).1 (helse price hk)
    rw [hknown price hk (Finset.mem_filter.mp hp).2]
  have hpos : ∀ price ∈ full.prices, 0 < price * full.quantityAt price := by
    intro price hp
    have hq := lt_of_le_of_ne (full.quantityAt_nonneg price) (mem_prices.mp hp).symm
    exact mul_pos (price_pos_of_mem hp) hq
  rw [hsum, notional_items]
  constructor
  · intro heq price hp hw
    by_contra hk
    have hlt := Finset.sum_lt_sum_of_subset hsub (Finset.mem_filter.mpr ⟨hp, hw⟩)
      (fun hin => mem_prices.mp (Finset.mem_filter.mp hin).1 (helse price hk)) (hpos price hp)
      (fun q hq _ => (hpos q (Finset.mem_filter.mp hq).1).le)
    exact hlt.ne heq
  · intro hall
    apply Finset.sum_congr _ fun _ _ => rfl
    apply Finset.Subset.antisymm hsub
    intro price hp
    obtain ⟨hp, hw⟩ := Finset.mem_filter.mp hp
    refine Finset.mem_filter.mpr ⟨mem_prices.mpr ?_, hw⟩
    rw [hknown price (hall price hp hw) hw]
    exact mem_prices.mp hp

end BookSide

end ChainQuantStudio.State.OrderBook
