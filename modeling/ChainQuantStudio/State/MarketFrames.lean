import ChainQuantStudio.State.UnifiedMarket

/-!
# What an event changes

An event that is not applied changes nothing but the instruments that are registered, a delta that
does not connect changes its own book alone, and an event that was applied changes nothing when it
is applied once more.
-/

namespace ChainQuantStudio.State.Market

open BoundedDeque Candles Data OrderBook Supervisor

attribute [ext] CandleWindow CandleWindowStore DepthState RecentTrades OpenInterestRecord

section Tickers

variable {previous : Option Ticker} {event : Ticker}

@[simp] theorem mergeTicker_metadata (previous : Option Ticker) (event : Ticker) :
    (mergeTicker previous event).metadata = event.metadata := by
  cases previous <;> rfl

theorem mergeTicker_merged (previous : Option Ticker) (event : Ticker) :
    mergeTicker (some (mergeTicker previous event)) event = mergeTicker previous event := by
  cases previous with
  | none => simp [mergeTicker, Option.or_self]
  | some previous => simp [mergeTicker, ← Option.or_assoc, Option.or_self]

theorem applyTicker_cases (previous : Option Ticker) (event : Ticker) :
    applyTicker previous event = (previous, false) ∨
      applyTicker previous event = (some (mergeTicker previous event), true) := by
  unfold applyTicker
  split
  · exact .inl rfl
  · cases previous with
    | none => exact .inr rfl
    | some ticker =>
      dsimp only
      split
      · exact .inl rfl
      · exact .inr rfl

theorem applyTicker_merged (previous : Option Ticker) (event : Ticker) :
    applyTicker (some (mergeTicker previous event)) event =
      (some (mergeTicker previous event), false) := by
  simp [applyTicker, mergeTicker_merged]

theorem applyFunding_cases (previous : Option FundingRate) (event : FundingRate) :
    applyFunding previous event = (previous, false) ∨
      applyFunding previous event = (some event, true) := by
  unfold applyFunding
  dsimp only
  split
  case isTrue h => exact .inr (by rw [h])
  case isFalse h => exact .inl (by rw [Bool.not_eq_true] at h; rw [h])

theorem applyFunding_self (event : FundingRate) :
    applyFunding (some event) event = (some event, false) := by
  simp [applyFunding]

end Tickers

section Records

variable {size limit : ℕ}

theorem openInterest_apply_cases (hsize : 0 < size) (record : OpenInterestRecord size)
    (event : OpenInterest) :
    record.apply hsize event = (record, false) ∨
      ((record.apply hsize event).2 = true ∧
        (record.apply hsize event).1.current = some event) := by
  unfold OpenInterestRecord.apply
  split
  · exact .inr ⟨rfl, rfl⟩
  · exact .inl rfl

theorem openInterest_apply_self (hsize : 0 < size) {record : OpenInterestRecord size}
    {event : OpenInterest} (h : record.current = some event) :
    record.apply hsize event = (record, false) := by
  have hrefused : ¬ acceptsOpenInterest record.current event = true := by
    simp [acceptsOpenInterest, h]
  unfold OpenInterestRecord.apply
  rw [dif_neg hrefused]

theorem trades_apply_cases (hlimit : 0 < limit) (recent : RecentTrades limit) (event : Trade) :
    recent.apply hlimit event = (recent, false) ∨
      ((recent.apply hlimit event).2 = true ∧
        event.tradeId ∈ (recent.apply hlimit event).1.ids) := by
  simp only [RecentTrades.apply]
  by_cases hknown : event.tradeId ∈ recent.ids
  · exact .inl (by simp [applyTrade, hknown])
  · by_cases holder : isOlder event.metadata (recent.trades.getLast?.map (·.metadata)) = true
    · exact .inl (by simp [applyTrade, hknown, holder])
    · exact .inr (by simp [applyTrade, hknown, holder])

theorem trades_apply_known (hlimit : 0 < limit) {recent : RecentTrades limit} {event : Trade}
    (h : event.tradeId ∈ recent.ids) : recent.apply hlimit event = (recent, false) := by
  simp [RecentTrades.apply, applyTrade, h]

end Records

section Bars

variable {maxSize : ℕ} {bars : List Candle} {candle : Candle}

theorem replaceBar_of_refused (h : (replaceBar candle bars).2 = false) :
    (replaceBar candle bars).1 = bars := by
  induction bars with
  | nil => rfl
  | cons existing newer ih =>
    unfold replaceBar at h ⊢
    split_ifs at h ⊢
    · rfl
    · rfl
    · exact congrArg (existing :: ·) (ih h)

theorem upsertBars_of_refused (h : (upsertBars maxSize bars candle).2 = false) :
    (upsertBars maxSize bars candle).1 = bars := by
  unfold upsertBars at h ⊢
  split at h
  · cases h
  · split_ifs at h ⊢
    · rfl
    · rfl
    · exact replaceBar_of_refused h

theorem replaceBar_replaced (candle : Candle) (bars : List Candle) :
    (replaceBar candle (replaceBar candle bars).1).1 = (replaceBar candle bars).1 := by
  induction bars with
  | nil => rfl
  | cons existing newer ih =>
    by_cases h : existing.openTime = candle.openTime
    · rw [replaceBar_cons_self h, replaceBar_cons_self (keep_openTime h)]
      congr 1
      unfold keep
      split_ifs <;> simp_all
    · have hcons : (replaceBar candle (existing :: newer)).1 =
          existing :: (replaceBar candle newer).1 := by
        rw [replaceBar, if_neg h]
      rw [hcons, replaceBar, if_neg h]
      exact congrArg (existing :: ·) ih

theorem upsertBars_upserted (hsize : 0 < maxSize) (h : Ordered bars) (candle : Candle) :
    (upsertBars maxSize (upsertBars maxSize bars candle).1 candle).1 =
      (upsertBars maxSize bars candle).1 := by
  have hordered := @ordered_upsertBars maxSize bars candle h
  rw [upsertBars_eq hordered]
  rw [upsertBars_eq h] at hordered ⊢
  by_cases hnewer : ∀ bar ∈ bars, bar.openTime < candle.openTime
  · simp only [if_pos hnewer]
    have hlast : (pushBack maxSize bars candle).getLast? = some candle := getLast?_pushBack hsize
    have hmem : candle ∈ pushBack maxSize bars candle := List.mem_of_getLast? hlast
    rw [if_neg fun hall => lt_irrefl _ (hall candle hmem)]
    obtain ⟨older, holder⟩ := List.getLast?_eq_some_iff.mp hlast
    rw [if_pos hnewer, holder] at hordered
    have hne : ∀ bar ∈ older, bar.openTime ≠ candle.openTime := fun bar hbar =>
      ((List.pairwise_append.mp hordered).2.2 bar hbar candle (by simp)).ne
    rw [holder, replaceBar_append hne, replaceBar_cons_self rfl]
    unfold keep
    split <;> rfl
  · simp only [if_neg hnewer]
    have hagain : ¬ ∀ bar ∈ (replaceBar candle bars).1, bar.openTime < candle.openTime := by
      intro hall
      apply hnewer
      intro bar hbar
      have hmem : bar.openTime ∈ (replaceBar candle bars).1.map Candle.openTime := by
        rw [map_openTime_replaceBar]
        exact List.mem_map_of_mem hbar
      obtain ⟨bar', hbar', heq⟩ := List.mem_map.mp hmem
      rw [← heq]
      exact hall bar' hbar'
    rw [if_neg hagain]
    exact replaceBar_replaced candle bars

theorem upsert_of_refused {store : CandleWindowStore} (h : (store.upsert candle).2 = false) :
    (store.upsert candle).1 = store := by
  have hwindow : (store.windows candle.key).upsert candle = store.windows candle.key :=
    CandleWindow.ext (upsertBars_of_refused h)
  simp only [CandleWindowStore.upsert, hwindow, Function.update_eq_self]

theorem upsert_upserted (store : CandleWindowStore) (candle : Candle) :
    ((store.upsert candle).1.upsert candle).1 = (store.upsert candle).1 := by
  have hwindow : ((store.windows candle.key).upsert candle).upsert candle =
      (store.windows candle.key).upsert candle :=
    CandleWindow.ext (upsertBars_upserted store.size_pos (store.windows candle.key).ordered candle)
  simp only [CandleWindowStore.upsert, Function.update_self, hwindow, Function.update_idem]

end Bars

section Books

variable {state : DepthState} {instrument : Instrument} {book : LocalOrderBook}

theorem orderBooks_of_sequenceId (h : (state.book instrument).sequenceId ≠ none) :
    state.orderBooks instrument = some (state.book instrument) := by
  unfold DepthState.book at h ⊢
  cases hbook : state.orderBooks instrument with
  | none => simp [hbook, LocalOrderBook.new] at h
  | some book => rfl

theorem orderBooks_of_isSynchronized (h : (state.book instrument).isSynchronized = true) :
    state.orderBooks instrument = some (state.book instrument) := by
  unfold DepthState.book at h ⊢
  cases hbook : state.orderBooks instrument with
  | none => simp [hbook, LocalOrderBook.new] at h
  | some book => rfl

theorem withBook_of_kept (h : state.orderBooks instrument = some book) :
    state.withBook book = state := by
  have hkey := state.keyed instrument book h
  ext1
  · rfl
  · simp [DepthState.withBook, hkey, ← h, Function.update_eq_self]

theorem book_withBook_self' (h : book.instrument = instrument) :
    (state.withBook book).book instrument = book := by
  rw [DepthState.book_withBook, if_pos h.symm]

theorem orderBooks_withBook (h : book.instrument = instrument) :
    (state.withBook book).orderBooks instrument = some book := by
  subst h
  exact Function.update_self ..

theorem withBook_withBook (state : DepthState) (book : LocalOrderBook) :
    (state.withBook book).withBook book = state.withBook book :=
  withBook_of_kept (orderBooks_withBook rfl)

theorem continuity_advance (book : LocalOrderBook) (delta : OrderBookDelta) (final : ℤ) :
    (book.advance delta final).continuity delta final final = .stale := by
  have hinstrument : (book.advance delta final).instrument = book.instrument := rfl
  unfold LocalOrderBook.continuity
  rw [hinstrument]
  cases book.instrument.exchange <;> simp [LocalOrderBook.validateBinance, LocalOrderBook.advance]

theorem applyDelta_advance {delta : OrderBookDelta} {final : ℤ}
    (hinstrument : delta.metadata.instrument = book.instrument)
    (hfinal : delta.metadata.sequenceId = some final) :
    (book.advance delta final).applyDelta delta = (book.advance delta final, .ok false) := by
  have hkey : (book.advance delta final).instrument = book.instrument := rfl
  have hcurrent : (book.advance delta final).sequenceId = some final := rfl
  have hsync : (book.advance delta final).isSynchronized = true := rfl
  unfold LocalOrderBook.applyDelta
  simp [hkey, hinstrument, hcurrent, hsync, hfinal, continuity_advance]

theorem applySnapshot_load {snapshot : OrderBookSnapshot}
    (hinstrument : snapshot.metadata.instrument = book.instrument) :
    (book.load snapshot false).applySnapshot snapshot false =
      (book.load snapshot false, .ok false) ∨
    ((book.load snapshot false).isSynchronized = false ∧
      (book.load snapshot false).applySnapshot snapshot false =
        (book.load snapshot false, .ok true)) := by
  cases hsequence : snapshot.metadata.sequenceId with
  | none =>
    right
    refine ⟨by simp [LocalOrderBook.load, hsequence], ?_⟩
    simp [LocalOrderBook.applySnapshot, LocalOrderBook.snapshotIsStale, LocalOrderBook.load,
      hinstrument, hsequence]
  | some final =>
    left
    simp [LocalOrderBook.applySnapshot, LocalOrderBook.snapshotIsStale, LocalOrderBook.load,
      hinstrument, hsequence]

end Books

namespace MarketState

variable {state : MarketState} {delta : OrderBookDelta} {snapshot : OrderBookSnapshot}

theorem recordOrderBook_depth (state : MarketState) (instrument : Instrument)
    (observedAt : Instant) : (state.recordOrderBook instrument observedAt).depth = state.depth :=
  (recordOrderBook_records state instrument observedAt).1

theorem recordOrderBook_of_not_synchronized {instrument : Instrument}
    (h : (state.depth.book instrument).isSynchronized = false) (observedAt : Instant) :
    state.recordOrderBook instrument observedAt = state := by
  have hview : (state.depth.book instrument).view.isSynchronized = false := h
  have hbest : state.recordBestLevel (state.depth.book instrument).view instrument observedAt =
      state := by
    unfold recordBestLevel
    rw [hview]
  simp only [recordOrderBook, hbest]
  simp [recordRange, hview]

theorem applySnapshot_cases (state : MarketState) (snapshot : OrderBookSnapshot) :
    state.applyOrderBookSnapshot snapshot false = (state, .ok false) ∨
    ((state.applyOrderBookSnapshot snapshot false).2 = .ok true ∧
      (state.applyOrderBookSnapshot snapshot false).1.depth = state.depth.withBook
        ((state.depth.book snapshot.metadata.instrument).load snapshot false)) := by
  have hkey := state.depth.book_instrument snapshot.metadata.instrument
  obtain ⟨e, hcall⟩ | ⟨hcall, hsync⟩ | ⟨hcall, -⟩ :=
    (state.depth.book snapshot.metadata.instrument).applySnapshot_cases snapshot false
  · -- the book is the one of the snapshot's instrument
    have houtcome := congrArg Prod.snd hcall
    simp only [LocalOrderBook.applySnapshot, hkey, ne_eq, not_true_eq_false, if_false] at houtcome
    split at houtcome <;> cases houtcome
  · left
    have hsame := withBook_of_kept (orderBooks_of_isSynchronized hsync)
    simp only [applyOrderBookSnapshot, DepthState.applyOrderBookSnapshot, hcall, hsame]
  · right
    simp only [applyOrderBookSnapshot, DepthState.applyOrderBookSnapshot, hcall]
    exact ⟨trivial, recordOrderBook_depth ..⟩

theorem applySnapshot_applied (h : (state.applyOrderBookSnapshot snapshot false).2 = .ok true) :
    (((state.applyOrderBookSnapshot snapshot false).1.applyOrderBookSnapshot snapshot false).1) =
      (state.applyOrderBookSnapshot snapshot false).1 := by
  obtain hsame | ⟨-, hdepth⟩ := applySnapshot_cases state snapshot
  · rw [hsame] at h
    cases h
  · set after := (state.applyOrderBookSnapshot snapshot false).1 with hafter
    set loaded := (state.depth.book snapshot.metadata.instrument).load snapshot false with hloaded
    have hkey : loaded.instrument = snapshot.metadata.instrument :=
      state.depth.book_instrument snapshot.metadata.instrument
    have hbook : after.depth.book snapshot.metadata.instrument = loaded := by
      rw [hdepth]
      exact book_withBook_self' hkey
    have hkept : after.depth.withBook loaded = after.depth := by
      rw [hdepth]
      exact withBook_withBook ..
    obtain hagain | ⟨hsync, hagain⟩ := @applySnapshot_load
      (state.depth.book snapshot.metadata.instrument) snapshot hkey.symm
    · rw [← hloaded] at hagain
      simp only [applyOrderBookSnapshot, DepthState.applyOrderBookSnapshot, hbook, hagain, hkept]
    · rw [← hloaded] at hagain hsync
      simp only [applyOrderBookSnapshot, DepthState.applyOrderBookSnapshot, hbook, hagain, hkept]
      exact recordOrderBook_of_not_synchronized (by rw [hbook]; exact hsync) _

structure OutOfSync (state state' : MarketState) (instrument : Instrument) : Prop where
  book : ∃ synchronized generation, state'.depth.orderBooks instrument =
    some { state.depth.book instrument with
      isSynchronized := synchronized, generation := generation }
  books : ∀ other, other ≠ instrument →
    state'.depth.orderBooks other = state.depth.orderBooks other
  orderBookHistory : ∀ other, other ≠ instrument →
    state'.orderBookHistory other = state.orderBookHistory other
  bestLevelHistory : ∀ other, other ≠ instrument →
    state'.bestLevelHistory other = state.bestLevelHistory other

theorem outOfSync_invalidate (state : MarketState) (instrument : Instrument) {book : LocalOrderBook}
    (hbook : book = state.depth.book instrument ∨ book = (state.depth.book instrument).invalidate) :
    OutOfSync state
      (({ state with depth := state.depth.withBook book } : MarketState).invalidateOrderBook
        instrument) instrument := by
  have hkey : book.instrument = instrument := by
    obtain rfl | rfl := hbook <;> exact state.depth.book_instrument instrument
  have hdepth : (state.depth.withBook book).invalidateOrderBook instrument =
      (state.depth.withBook book).withBook book.invalidate := by
    simp [DepthState.invalidateOrderBook, DepthState.withBook, hkey]
  refine ⟨?_, fun other hother => ?_, fun other hother => ?_, fun other hother => ?_⟩
  · simp only [MarketState.invalidateOrderBook, hdepth]
    have hinvalidated : book.invalidate.instrument = instrument := hkey
    rw [orderBooks_withBook hinvalidated]
    obtain rfl | rfl := hbook
    · exact ⟨_, _, rfl⟩
    · exact ⟨_, _, rfl⟩
  · simp only [MarketState.invalidateOrderBook, hdepth]
    simp [DepthState.withBook, hkey, Function.update_of_ne hother]
  · exact Function.update_of_ne hother ..
  · exact Function.update_of_ne hother ..

theorem applyDelta_cases (state : MarketState) (delta : OrderBookDelta) :
    (∃ message, (state.applyDelta delta).2 = .error (.orderBookOutOfSync message) ∧
      OutOfSync state (state.applyDelta delta).1 delta.metadata.instrument) ∨
    state.applyDelta delta = (state, .ok false) ∨
    ((state.applyDelta delta).2 = .ok true ∧
      (state.applyDelta delta).1.applyDelta delta = ((state.applyDelta delta).1, .ok false)) := by
  have hkey := state.depth.book_instrument delta.metadata.instrument
  obtain ⟨e, hcall, -⟩ | ⟨message, hcall, -⟩ | ⟨current, final, hreceptive, hcurrent, hinstrument,
      hfinal, ⟨-, hcall⟩ | ⟨-, hcall⟩⟩ :=
    (state.depth.book delta.metadata.instrument).applyDelta_cases delta
  · cases e with
    | orderBookOutOfSync message =>
      refine .inl ⟨message, ?_, ?_⟩
      · simp only [applyDelta, hcall]
      · simp only [applyDelta, hcall]
        exact outOfSync_invalidate state _ (.inl rfl)
    | valueError message =>
      -- the book is the one of the delta's instrument
      simp only [LocalOrderBook.applyDelta, hkey, LocalOrderBook.noSnapshot] at hcall
      simp only [ne_eq, not_true_eq_false, if_false] at hcall
      repeat' split at hcall
      all_goals simp at hcall
  · refine .inl ⟨message, ?_, ?_⟩
    · simp only [applyDelta, hcall]
    · simp only [applyDelta, hcall]
      exact outOfSync_invalidate state _ (.inr rfl)
  · refine .inr (.inl ?_)
    have hsame := withBook_of_kept (orderBooks_of_sequenceId hreceptive.1)
    simp only [applyDelta, hcall, hsame]
  · refine .inr (.inr ?_)
    set advanced := (state.depth.book delta.metadata.instrument).advance delta final with hadvanced
    have hkey' : advanced.instrument = delta.metadata.instrument := hkey
    have happly : state.applyDelta delta = (({ state with
        depth := state.depth.withBook advanced } : MarketState).recordOrderBook
          delta.metadata.instrument delta.metadata.receivedAt, .ok true) := by
      simp only [applyDelta, hcall]
    have hdepth : (state.applyDelta delta).1.depth = state.depth.withBook advanced := by
      rw [happly]
      exact recordOrderBook_depth ..
    refine ⟨by rw [happly], ?_⟩
    generalize (state.applyDelta delta).1 = after at hdepth
    have hbook : after.depth.book delta.metadata.instrument = advanced := by
      rw [hdepth]
      exact book_withBook_self' hkey'
    have hkept : after.depth.withBook advanced = after.depth := by
      rw [hdepth]
      exact withBook_withBook ..
    have hagain : advanced.applyDelta delta = (advanced, .ok false) :=
      applyDelta_advance hinstrument hfinal
    simp only [applyDelta, hbook, hagain, hkept]

end MarketState

namespace UnifiedState

variable {settings : UnifiedSettings}

@[simp] theorem register_register (state : UnifiedState settings) (instrument : Instrument) :
    (state.register instrument).register instrument = state.register instrument := by
  simp [register]

theorem set_set (tracker : FreshnessTracker) (instrument : Instrument) (kind : DataKind)
    (instant : Option Instant) :
    (tracker.set instrument kind instant).set instrument kind instant =
      tracker.set instrument kind instant := by
  simp [FreshnessTracker.set]

/-- What a delta that does not connect may leave different. -/
structure OutOfSyncFrame (state state' : UnifiedState settings) (instrument : Instrument) :
    Prop where
  instruments : state'.instruments = insert instrument state.instruments
  candles : state'.candles = state.candles
  tickers : state'.tickers = state.tickers
  fundingRates : state'.fundingRates = state.fundingRates
  openInterest : state'.openInterest = state.openInterest
  trades : state'.trades = state.trades
  books : MarketState.OutOfSync state.books state'.books instrument
  freshness : ∀ other kind, (other, kind) ≠ (instrument, .orderBook) →
    state'.freshness.updatedAt other kind = state.freshness.updatedAt other kind

inductive Applied (state : UnifiedState settings) (event : MarketEvent) :
    UnifiedState settings × Except Raised Bool → Prop
  | refused : Applied state event (state.register event.metadata.instrument, .ok false)
  | raised {after : UnifiedState settings} (message : String)
      (hframe : OutOfSyncFrame state after event.metadata.instrument) :
      Applied state event (after, .error (.orderBookOutOfSync message))
  | taken {after : UnifiedState settings} (hagain : (after.apply event).1 = after) :
      Applied state event (after, .ok true)

variable (state : UnifiedState settings)

theorem apply_ticker (ticker : Ticker) :
    Applied state (.ticker ticker) (state.apply (.ticker ticker)) := by
  obtain hcall | hcall := applyTicker_cases (state.tickers ticker.metadata.instrument) ticker
  · simp only [apply, MarketEvent.metadata, register, hcall, Function.update_eq_self]
    exact .refused
  · simp only [apply, MarketEvent.metadata, register, hcall]
    refine .taken ?_
    simp [apply, MarketEvent.metadata, register, markIf, applyTicker_merged]

theorem apply_funding (funding : FundingRate) :
    Applied state (.funding funding) (state.apply (.funding funding)) := by
  obtain hcall | hcall := applyFunding_cases (state.fundingRates funding.metadata.instrument) funding
  · simp only [apply, MarketEvent.metadata, register, hcall, Function.update_eq_self]
    exact .refused
  · simp only [apply, MarketEvent.metadata, register, hcall]
    refine .taken ?_
    simp [apply, MarketEvent.metadata, register, markIf, applyFunding_self]

theorem apply_trade (trade : Trade) :
    Applied state (.trade trade) (state.apply (.trade trade)) := by
  obtain hcall | ⟨hcall, hknown⟩ := trades_apply_cases settings.trade_pos
    (state.trades trade.metadata.instrument) trade
  · simp only [apply, MarketEvent.metadata, register, hcall, Function.update_eq_self]
    exact .refused
  · have hagain := trades_apply_known settings.trade_pos hknown
    simp only [apply, MarketEvent.metadata, register, hcall]
    refine .taken ?_
    simp [apply, MarketEvent.metadata, register, markIf, hagain]

theorem apply_openInterest (openInterest : OpenInterest) :
    Applied state (.openInterest openInterest) (state.apply (.openInterest openInterest)) := by
  have hsize := Nat.lt_of_lt_of_le Nat.zero_lt_two settings.openInterest_ge
  obtain hcall | ⟨hcall, hcurrent⟩ := openInterest_apply_cases hsize
    (state.openInterest openInterest.metadata.instrument) openInterest
  · simp only [apply, MarketEvent.metadata, register, hcall, Function.update_eq_self]
    exact .refused
  · have hagain := openInterest_apply_self hsize hcurrent
    simp only [apply, MarketEvent.metadata, register, hcall]
    refine .taken ?_
    simp [apply, MarketEvent.metadata, register, markIf, hagain]

theorem apply_candle (candle : Candle) :
    Applied state (.candle candle) (state.apply (.candle candle)) := by
  cases hcall : (state.candles.upsert candle).2 with
  | false =>
    simp only [apply, MarketEvent.metadata, register, hcall, upsert_of_refused hcall]
    exact .refused
  | true =>
    simp only [apply, MarketEvent.metadata, register, hcall]
    refine .taken ?_
    -- an open bar is replaced by itself, and marked once more
    cases hsecond : ((state.candles.upsert candle).1.upsert candle).2 with
    | false => simp [apply, MarketEvent.metadata, register, markIf, hsecond, upsert_upserted]
    | true =>
      simp [apply, MarketEvent.metadata, register, markIf, hsecond, upsert_upserted,
        FreshnessTracker.mark, set_set]

theorem apply_snapshot (snapshot : OrderBookSnapshot) :
    Applied state (.snapshot snapshot) (state.apply (.snapshot snapshot)) := by
  obtain hcall | ⟨hcall, -⟩ := state.books.applySnapshot_cases snapshot
  · simp only [apply, applyOrderBookSnapshot, MarketEvent.metadata, register, hcall]
    simp only [Finset.insert_idem]
    exact .refused
  · have hagain := MarketState.applySnapshot_applied hcall
    simp only [apply, applyOrderBookSnapshot, MarketEvent.metadata, register, hcall]
    refine .taken ?_
    -- a snapshot without a number is loaded, and marked, once more
    obtain hsecond | ⟨hsecond, -⟩ :=
      (state.books.applyOrderBookSnapshot snapshot false).1.applySnapshot_cases snapshot
    · simp [apply, applyOrderBookSnapshot, MarketEvent.metadata, register, markIf, hsecond]
    · simp [apply, applyOrderBookSnapshot, MarketEvent.metadata, register, markIf, hsecond, hagain,
        FreshnessTracker.mark, set_set]

theorem apply_delta (delta : OrderBookDelta) :
    Applied state (.delta delta) (state.apply (.delta delta)) := by
  obtain ⟨message, hcall, hframe⟩ | hcall | ⟨hcall, hagain⟩ := state.books.applyDelta_cases delta
  · simp only [apply, applyDelta, MarketEvent.metadata, register, hcall]
    refine .raised message ⟨rfl, rfl, rfl, rfl, rfl, rfl, hframe, ?_⟩
    intro other kind hne
    simp only [FreshnessTracker.invalidate, FreshnessTracker.set]
    by_cases hother : other = delta.metadata.instrument
    · subst hother
      rw [Function.update_self, Function.update_of_ne fun hkind => hne (by rw [hkind]; rfl)]
    · rw [Function.update_of_ne hother]
  · simp only [apply, applyDelta, MarketEvent.metadata, register, hcall]
    exact .refused
  · simp only [apply, applyDelta, MarketEvent.metadata, register, hcall]
    refine .taken ?_
    simp [apply, applyDelta, MarketEvent.metadata, register, markIf, hagain]

theorem apply_applied (event : MarketEvent) : Applied state event (state.apply event) := by
  cases event with
  | ticker event => exact state.apply_ticker event
  | candle event => exact state.apply_candle event
  | trade event => exact state.apply_trade event
  | snapshot event => exact state.apply_snapshot event
  | delta event => exact state.apply_delta event
  | funding event => exact state.apply_funding event
  | openInterest event => exact state.apply_openInterest event

/-- `apply` of any event in any state. -/
theorem apply_frame (event : MarketEvent) :
    ((state.apply event).2 = .ok false →
      (state.apply event).1 = state.register event.metadata.instrument) ∧
    (∀ raised, (state.apply event).2 = .error raised →
      (∃ message, raised = .orderBookOutOfSync message) ∧
        OutOfSyncFrame state (state.apply event).1 event.metadata.instrument) ∧
    ((state.apply event).2 = .ok true →
      ((state.apply event).1.apply event).1 = (state.apply event).1) := by
  have happlied := state.apply_applied event
  generalize state.apply event = result at happlied
  refine ⟨?_, ?_, ?_⟩
  · intro h
    cases happlied with
    | refused => rfl
    | raised => cases h
    | taken => cases h
  · intro raised h
    cases happlied with
    | refused => cases h
    | raised message hframe => exact ⟨⟨message, (Except.error.inj h).symm⟩, hframe⟩
    | taken => cases h
  · intro h
    cases happlied with
    | refused => cases h
    | raised => cases h
    | taken hagain => exact hagain

end UnifiedState

end ChainQuantStudio.State.Market
