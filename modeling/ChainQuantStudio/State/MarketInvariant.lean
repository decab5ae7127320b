import ChainQuantStudio.Library.Run
import ChainQuantStudio.State.UnifiedMarket
import Mathlib.Tactic.Linarith
import Mathlib.Tactic.Ring

/-!
# What the market state keeps in every run

The windows, the trades and the open interest carry their own agreement. What is left is a fact
about steps: a closed bar stays closed, and an order-book observation is recorded far enough from
the one before it, from a book that covers the range on both sides.
-/

namespace ChainQuantStudio.State.Market

open BoundedDeque Candles Data OrderBook Run Supervisor

section Bars

variable {maxSize : ℕ} {bars : List Candle} {candle : Candle}

def KeepsClosed (bars bars' : List Candle) : Prop :=
  ∀ bar ∈ bars, bar.isClosed = true → ∀ bar' ∈ bars', bar'.openTime = bar.openTime →
    bar'.isClosed = true

theorem KeepsClosed.of_subset (h : Ordered bars) {bars' : List Candle} (hsub : bars' ⊆ bars) :
    KeepsClosed bars bars' := by
  intro bar hbar hclosed bar' hbar' htime
  rwa [eq_of_openTime h hbar (hsub hbar') htime]

theorem replaceBar_keepsClosed (h : Ordered bars) :
    KeepsClosed bars (replaceBar candle bars).1 := by
  rw [replaceBar_eq_map h]
  intro bar hbar hclosed bar' hbar' hsame
  obtain ⟨earlier, hearlier, rfl⟩ := List.mem_map.mp hbar'
  by_cases htime : earlier.openTime = candle.openTime
  · rw [if_pos htime] at hsame ⊢
    rw [keep_openTime htime, ← htime] at hsame
    rw [keep_isClosed, eq_of_openTime h hbar hearlier hsame, hclosed, Bool.true_or]
  · rw [if_neg htime] at hsame ⊢
    rwa [eq_of_openTime h hbar hearlier hsame]

theorem upsertBars_keepsClosed (h : Ordered bars) :
    KeepsClosed bars (upsertBars maxSize bars candle).1 := by
  rw [upsertBars_eq h]
  split_ifs with hnewer
  · intro bar hbar hclosed bar' hbar' hsame
    rcases mem_of_mem_pushBack hbar' with hbar' | rfl
    · rwa [eq_of_openTime h hbar hbar' hsame]
    · exact absurd hsame (hnewer bar hbar).ne'
  · exact replaceBar_keepsClosed h

end Bars

structure CoversRange (view : OrderBookView) (midPrice rangePercent : ℚ) : Prop where
  synchronized : view.isSynchronized = true
  bids : ∃ bid ∈ view.bids.getLast?, bid.price ≤ bidFloor midPrice rangePercent
  asks : ∃ ask ∈ view.asks.getLast?, askCeiling midPrice rangePercent ≤ ask.price

def Covered (view : OrderBookView) (observation : OrderBookObservation) : Prop :=
  ∃ midPrice, observation.midPrice = some midPrice ∧
    CoversRange view midPrice observation.rangePercent

theorem coversRange_of_fullyCovered {view : OrderBookView} {rangePercent : ℚ}
    {ranged : OrderBookRangeNotional} (h : view.notionalWithinRange rangePercent = .ok ranged)
    (hcovered : ranged.isFullyCovered = true) :
    ∃ midPrice, ranged.midPrice = some midPrice ∧
      CoversRange view midPrice ranged.rangePercent := by
  unfold OrderBookView.notionalWithinRange at h
  split_ifs at h
  split at h
  · obtain rfl := Except.ok.inj h
    simp only [Bool.and_eq_true, Option.any_eq_true, decide_eq_true_eq] at hcovered
    obtain ⟨⟨hsync, bid, hbid, hfloor⟩, ask, hask, hceiling⟩ := hcovered
    exact ⟨_, rfl, hsync, ⟨bid, hbid, hfloor⟩, ⟨ask, hask, hceiling⟩⟩
  · obtain rfl := Except.ok.inj h
    cases hcovered

namespace MarketState

variable {state : MarketState}

inductive HistoryChange (state state' : MarketState) (instrument : Instrument) : Prop
  | kept (h : state'.orderBookHistory instrument = state.orderBookHistory instrument)
  | cleared (h : state'.orderBookHistory instrument = [])
  | sampled (item : Recorded OrderBookObservation)
      (h : state'.orderBookHistory instrument = pushBack state.settings.orderBookHistorySize
        (state.orderBookHistory instrument) item)
      (hlast : ∀ last ∈ (state.orderBookHistory instrument).getLast?,
        state.settings.orderBookSampleSeconds ≤
          totalSeconds (item.observation.observedAt - last.observation.observedAt))
      (hcovered : Covered (state'.depth.book instrument).view item.observation)

theorem recordBestLevel_frame (view : OrderBookView) (instrument : Instrument)
    (observedAt : Instant) :
    (state.recordBestLevel view instrument observedAt).settings = state.settings ∧
      (state.recordBestLevel view instrument observedAt).depth = state.depth ∧
      (state.recordBestLevel view instrument observedAt).orderBookHistory =
        state.orderBookHistory := by
  unfold recordBestLevel
  split <;> exact ⟨rfl, rfl, rfl⟩

theorem recordRange_frame (view : OrderBookView) (instrument : Instrument)
    (observedAt : Instant) :
    (state.recordRange view instrument observedAt).settings = state.settings ∧
      (state.recordRange view instrument observedAt).depth = state.depth := by
  unfold recordRange
  dsimp only
  split
  · exact ⟨rfl, rfl⟩
  split
  · exact ⟨rfl, rfl⟩
  split
  · exact ⟨rfl, rfl⟩
  split <;> exact ⟨rfl, rfl⟩

theorem recordRange_change (instrument other : Instrument) (observedAt : Instant) :
    HistoryChange state
      (state.recordRange (state.depth.book instrument).view instrument observedAt) other := by
  by_cases hother : other = instrument
  · subst hother
    unfold recordRange
    dsimp only
    split
    · exact .kept rfl
    rename_i hlast
    split
    · exact .kept rfl
    split
    · exact .kept rfl
    rename_i ranged hranged
    split
    · exact .cleared (Function.update_self ..)
    · rename_i hcovered
      refine .sampled _ (Function.update_self ..) ?_ ?_
      · intro last hmem
        simp only [Option.any_eq_true, not_exists, not_and, decide_eq_true_eq, not_lt] at hlast
        exact hlast last hmem
      · exact coversRange_of_fullyCovered hranged (by simpa using hcovered)
  · refine .kept ?_
    unfold recordRange
    dsimp only
    split
    · rfl
    split
    · rfl
    split
    · rfl
    split <;> exact Function.update_of_ne hother ..

theorem recordOrderBook_frame (state : MarketState) (instrument : Instrument)
    (observedAt : Instant) :
    (state.recordOrderBook instrument observedAt).settings = state.settings ∧
      (state.recordOrderBook instrument observedAt).depth = state.depth := by
  have hbest := @recordBestLevel_frame state (state.depth.book instrument).view instrument
    observedAt
  have hrange := @recordRange_frame
    (state.recordBestLevel (state.depth.book instrument).view instrument observedAt)
    (state.depth.book instrument).view instrument observedAt
  exact ⟨hrange.1.trans hbest.1, hrange.2.trans hbest.2.1⟩

theorem recordOrderBook_change (state : MarketState) (instrument other : Instrument)
    (observedAt : Instant) :
    HistoryChange state (state.recordOrderBook instrument observedAt) other := by
  obtain ⟨hsettings, hdepth, hhistory⟩ := @recordBestLevel_frame state
    (state.depth.book instrument).view instrument observedAt
  have hchange := @recordRange_change
    (state.recordBestLevel (state.depth.book instrument).view instrument observedAt) instrument
    other observedAt
  rw [hdepth] at hchange
  cases hchange with
  | kept h => exact .kept (h.trans (congrFun hhistory other))
  | cleared h => exact .cleared h
  | sampled item h hlast hcovered =>
    rw [hsettings, hhistory] at h hlast
    exact .sampled item h hlast hcovered

theorem HistoryChange.of_depth {depth : DepthState} {state' : MarketState} {instrument : Instrument}
    (h : HistoryChange ({ state with depth } : MarketState) state' instrument) :
    HistoryChange state state' instrument := by
  cases h with
  | kept h => exact .kept h
  | cleared h => exact .cleared h
  | sampled item h hlast hcovered => exact .sampled item h hlast hcovered

theorem invalidateOrderBook_change (state : MarketState) (instrument other : Instrument) :
    HistoryChange state (state.invalidateOrderBook instrument) other := by
  by_cases hother : other = instrument
  · subst hother
    exact .cleared (Function.update_self ..)
  · exact .kept (Function.update_of_ne hother ..)

theorem call_change (state : MarketState) (op : MarketOp) (instrument : Instrument) :
    HistoryChange state (state.call op) instrument ∧
      (state.call op).settings = state.settings := by
  cases op with
  | snapshot snapshot bridge =>
    simp only [call, applyOrderBookSnapshot]
    split
    · exact ⟨(recordOrderBook_change _ _ _ _).of_depth, (recordOrderBook_frame ..).1⟩
    · exact ⟨.kept rfl, rfl⟩
  | delta delta =>
    simp only [call, applyDelta]
    split
    · exact ⟨(invalidateOrderBook_change _ _ _).of_depth, rfl⟩
    · exact ⟨(recordOrderBook_change _ _ _ _).of_depth, (recordOrderBook_frame ..).1⟩
    · exact ⟨.kept rfl, rfl⟩
  | invalidate other => exact ⟨invalidateOrderBook_change state other instrument, rfl⟩

def Sampled (settings : MarketSettings) (history : List (Recorded OrderBookObservation)) : Prop :=
  history.Pairwise fun earlier later => settings.orderBookSampleSeconds ≤
    totalSeconds (later.observation.observedAt - earlier.observation.observedAt)

theorem Sampled.change {state' : MarketState} {instrument : Instrument}
    (h : Sampled state.settings (state.orderBookHistory instrument))
    (hchange : HistoryChange state state' instrument) :
    Sampled state.settings (state'.orderBookHistory instrument) := by
  cases hchange with
  | kept hkept => rwa [hkept]
  | cleared hcleared =>
    rw [hcleared]
    exact List.Pairwise.nil
  | sampled item hsampled hlast hcovered =>
    rw [hsampled]
    refine pairwise_pushBack h fun earlier hmem => ?_
    cases hget : (state.orderBookHistory instrument).getLast? with
    | none =>
      rw [List.getLast?_eq_none_iff.mp hget] at hmem
      cases hmem
    | some last =>
      have hapart := hlast last hget
      obtain ⟨older, holder⟩ := List.getLast?_eq_some_iff.mp hget
      unfold Sampled at h
      rw [holder] at hmem h
      rcases List.mem_append.mp hmem with hearlier | hself
      · -- the last observation is later than this one
        have hbetween := (List.pairwise_append.mp h).2.2 earlier hearlier last (by simp)
        have hpos := state.settings.sample_pos
        have hsum : totalSeconds (item.observation.observedAt - earlier.observation.observedAt) =
            totalSeconds (item.observation.observedAt - last.observation.observedAt) +
              totalSeconds (last.observation.observedAt - earlier.observation.observedAt) := by
          unfold totalSeconds
          push_cast
          ring
        linarith
      · rwa [List.mem_singleton.mp hself]

end MarketState

namespace UnifiedOp

def marketOp : UnifiedOp → Option MarketOp
  | .apply (.snapshot snapshot) => some (.snapshot snapshot false)
  | .apply (.delta delta) => some (.delta delta)
  | .applyOrderBookSnapshot snapshot bridge => some (.snapshot snapshot bridge)
  | .invalidateOrderBook instrument | .invalidateRealtimeState instrument
  | .invalidateStreamState instrument => some (.invalidate instrument)
  | _ => none

end UnifiedOp

namespace UnifiedState

variable {settings : UnifiedSettings}

@[simp] theorem markIf_books (state : UnifiedState settings) (event : MarketEvent)
    (applied : Bool) : (state.markIf event applied).books = state.books := by
  unfold markIf
  split <;> rfl

@[simp] theorem markIf_candles (state : UnifiedState settings) (event : MarketEvent)
    (applied : Bool) : (state.markIf event applied).candles = state.candles := by
  unfold markIf
  split <;> rfl

theorem applyOrderBookSnapshot_parts (state : UnifiedState settings)
    (snapshot : OrderBookSnapshot) (bridge : Bool) :
    (state.applyOrderBookSnapshot snapshot bridge).1.books =
        (state.books.applyOrderBookSnapshot snapshot bridge).1 ∧
      (state.applyOrderBookSnapshot snapshot bridge).1.candles = state.candles := by
  simp only [applyOrderBookSnapshot, register]
  split <;> simp

theorem applyDelta_parts (state : UnifiedState settings) (delta : OrderBookDelta) :
    (state.applyDelta delta).1.books = (state.books.applyDelta delta).1 ∧
      (state.applyDelta delta).1.candles = state.candles := by
  simp only [applyDelta]
  split <;> simp

theorem step_books (state : UnifiedState settings) (op : UnifiedOp) :
    (state.step op).books = (op.marketOp.map state.books.call).getD state.books := by
  cases op with
  | apply event =>
    cases event with
    | snapshot snapshot => exact (applyOrderBookSnapshot_parts ..).1
    | delta delta => exact (applyDelta_parts ..).1
    | ticker | candle | trade | funding | openInterest =>
      simp [step, apply, register, UnifiedOp.marketOp]
  | applyOrderBookSnapshot snapshot bridge => exact (applyOrderBookSnapshot_parts ..).1
  | registerInstruments instruments => rfl
  | invalidateOrderBook instrument => rfl
  | invalidateRealtimeState instrument => rfl
  | invalidateStreamState instrument => rfl

theorem step_candles (state : UnifiedState settings) (op : UnifiedOp) :
    (state.step op).candles = state.candles ∨
      (∃ candle, (state.step op).candles = (state.candles.upsert candle).1) ∨
      ∃ instrument, (state.step op).candles = state.candles.invalidate instrument := by
  cases op with
  | apply event =>
    cases event with
    | candle candle =>
      refine .inr (.inl ⟨candle, ?_⟩)
      simp [step, apply, register]
    | snapshot snapshot => exact .inl (applyOrderBookSnapshot_parts ..).2
    | delta delta => exact .inl (applyDelta_parts ..).2
    | ticker | trade | funding | openInterest =>
      left
      simp [step, apply, register]
  | applyOrderBookSnapshot snapshot bridge => exact .inl (applyOrderBookSnapshot_parts ..).2
  | registerInstruments instruments => exact .inl rfl
  | invalidateOrderBook instrument => exact .inl rfl
  | invalidateRealtimeState instrument => exact .inl rfl
  | invalidateStreamState instrument => exact .inr (.inr ⟨instrument, rfl⟩)

theorem step_maxSize (state : UnifiedState settings) (op : UnifiedOp) :
    (state.step op).candles.maxSize = state.candles.maxSize := by
  obtain h | ⟨candle, h⟩ | ⟨instrument, h⟩ := state.step_candles op <;> rw [h] <;> rfl

theorem step_keepsClosed (state : UnifiedState settings) (op : UnifiedOp) (key : Key) :
    KeepsClosed (state.candles.windows key).bars ((state.step op).candles.windows key).bars := by
  have hordered := (state.candles.windows key).ordered
  obtain h | ⟨candle, h⟩ | ⟨instrument, h⟩ := state.step_candles op
  · rw [h]
    exact .of_subset hordered (List.Subset.refl _)
  · rw [h]
    by_cases hkey : key = candle.key
    · subst hkey
      simp only [CandleWindowStore.upsert, Function.update_self]
      exact upsertBars_keepsClosed hordered
    · simp only [CandleWindowStore.upsert, Function.update_of_ne hkey]
      exact .of_subset hordered (List.Subset.refl _)
  · rw [h]
    simp only [CandleWindowStore.invalidate]
    split
    · exact .of_subset hordered (List.nil_subset _)
    · exact .of_subset hordered (List.Subset.refl _)

theorem step_change (state : UnifiedState settings) (op : UnifiedOp) (instrument : Instrument) :
    state.books.HistoryChange (state.step op).books instrument ∧
      (state.step op).books.settings = state.books.settings := by
  rw [step_books]
  cases op.marketOp with
  | none => exact ⟨.kept rfl, rfl⟩
  | some op => exact state.books.call_change op instrument

/-- What the containers of a market state keep. -/
structure Represented (state : UnifiedState settings) : Prop where
  candles_ordered : ∀ key, (state.candles.windows key).bars.Pairwise
    fun earlier later => earlier.openTime < later.openTime
  candles_bounded : ∀ key, (state.candles.windows key).bars.length ≤ settings.candleWindowSize
  trade_ids : ∀ instrument, (state.trades instrument).ids =
    ((state.trades instrument).trades.map Trade.tradeId).toFinset
  trades_nodup : ∀ instrument, ((state.trades instrument).trades.map Trade.tradeId).Nodup
  trades_bounded : ∀ instrument,
    (state.trades instrument).trades.length ≤ settings.recentTradeLimit
  trades_chronological : ∀ instrument, (state.trades instrument).trades.Pairwise
    fun earlier later => earlier.metadata.exchangeTimestamp ≤ later.metadata.exchangeTimestamp
  openInterest_present : ∀ instrument, (state.openInterest instrument).current.isSome = true ↔
    (state.openInterest instrument).history ≠ []
  openInterest_current : ∀ instrument, (state.openInterest instrument).current =
    (state.openInterest instrument).history.getLast?
  openInterest_bounded : ∀ instrument,
    (state.openInterest instrument).history.length ≤ settings.openInterestHistorySize
  openInterest_chronological : ∀ instrument, (state.openInterest instrument).history.Pairwise
    fun earlier later => earlier.metadata.exchangeTimestamp ≤ later.metadata.exchangeTimestamp
  observations_apart : ∀ instrument, (state.books.orderBookHistory instrument).Pairwise
    fun earlier later => settings.books.orderBookSampleSeconds ≤
      totalSeconds (later.observation.observedAt - earlier.observation.observedAt)

structure Kept (state : UnifiedState settings) : Prop where
  maxSize : state.candles.maxSize = settings.candleWindowSize
  settings_eq : state.books.settings = settings.books
  sampled : ∀ instrument,
    MarketState.Sampled settings.books (state.books.orderBookHistory instrument)

theorem Kept.step {state : UnifiedState settings} (h : Kept state) (op : UnifiedOp) :
    Kept (state.step op) := by
  refine ⟨(state.step_maxSize op).trans h.maxSize, ?_, fun instrument => ?_⟩
  · exact (state.step_change op (btcUsdt .binance .spot)).2.trans h.settings_eq
  · have hsampled := h.sampled instrument
    rw [← h.settings_eq] at hsampled ⊢
    exact hsampled.change (state.step_change op instrument).1

theorem kept_new (settings : UnifiedSettings) : Kept (UnifiedState.new settings) :=
  ⟨rfl, rfl, fun _ => List.Pairwise.nil⟩

theorem Kept.represented {state : UnifiedState settings} (h : Kept state) : Represented state where
  candles_ordered key := (state.candles.windows key).ordered
  candles_bounded key := h.maxSize ▸ (state.candles.windows key).bounded
  trade_ids instrument := (state.trades instrument).indexed.ids_eq
  trades_nodup instrument := (state.trades instrument).indexed.nodup
  trades_bounded instrument := (state.trades instrument).bounded
  trades_chronological instrument := (state.trades instrument).chronological
  openInterest_present instrument := by
    rw [(state.openInterest instrument).current_eq]
    simp
  openInterest_current instrument := (state.openInterest instrument).current_eq
  openInterest_bounded instrument := (state.openInterest instrument).bounded
  openInterest_chronological instrument := (state.openInterest instrument).chronological
  observations_apart := h.sampled

/-- The call puts the observation at the end of the history, and its book then covers the range on
both sides. -/
def RecordsCovered (settings : UnifiedSettings) (before : List UnifiedOp) (op : UnifiedOp)
    (instrument : Instrument) (item : Recorded OrderBookObservation) : Prop :=
  (run step (new settings) (before ++ [op])).books.orderBookHistory instrument =
      pushBack settings.books.orderBookHistorySize
        ((run step (new settings) before).books.orderBookHistory instrument) item ∧
    Covered ((run step (new settings) (before ++ [op])).books.depth.book instrument).view
      item.observation

theorem recorded_covered (settings : UnifiedSettings) (ops : List UnifiedOp)
    {instrument : Instrument} {item : Recorded OrderBookObservation}
    (h : item ∈ (run step (new settings) ops).books.orderBookHistory instrument) :
    ∃ before op, before ++ [op] <+: ops ∧ RecordsCovered settings before op instrument item := by
  induction ops using List.reverseRecOn with
  | nil => cases h
  | append_singleton ops op ih =>
    have hrun : run step (new settings) (ops ++ [op]) =
        (run step (new settings) ops).step op := by
      rw [run_append, run_cons, run_nil]
    have hearlier : item ∈ (run step (new settings) ops).books.orderBookHistory instrument →
        ∃ before op', before ++ [op'] <+: ops ++ [op] ∧
          RecordsCovered settings before op' instrument item := by
      intro hmem
      obtain ⟨before, op', hprefix, hrecords⟩ := ih hmem
      exact ⟨before, op', hprefix.trans (List.prefix_append _ _), hrecords⟩
    rw [hrun] at h
    cases ((run step (new settings) ops).step_change op instrument).1 with
    | kept hkept =>
      rw [hkept] at h
      exact hearlier h
    | cleared hcleared =>
      rw [hcleared] at h
      cases h
    | sampled sample hsampled hlast hcovered =>
      have hsettings : (run step (new settings) ops).books.settings = settings.books :=
        (run_invariant Kept (fun _ op h => h.step op) (kept_new settings) ops).settings_eq
      rw [hsettings] at hsampled
      rw [hsampled] at h
      rcases mem_of_mem_pushBack h with hmem | rfl
      · exact hearlier hmem
      · exact ⟨ops, op, List.prefix_refl _, hrun ▸ hsampled, hrun ▸ hcovered⟩

theorem run_represented (settings : UnifiedSettings) (ops : List UnifiedOp) :
    Represented (run step (new settings) ops) ∧
    (∀ before op, before ++ [op] <+: ops → ∀ key,
      ∀ bar ∈ ((run step (new settings) before).candles.windows key).bars, bar.isClosed = true →
        ∀ bar' ∈ ((run step (new settings) (before ++ [op])).candles.windows key).bars,
          bar'.openTime = bar.openTime → bar'.isClosed = true) ∧
    ∀ instrument, ∀ item ∈ (run step (new settings) ops).books.orderBookHistory instrument,
      ∃ before op, before ++ [op] <+: ops ∧
        RecordsCovered settings before op instrument item := by
  refine ⟨?_, ?_, ?_⟩
  · exact (run_invariant Kept (fun _ op h => h.step op) (kept_new settings) ops).represented
  · intro before op _ key
    rw [run_append, run_cons, run_nil]
    exact (run step (new settings) before).step_keepsClosed op key
  · intro instrument item h
    exact recorded_covered settings ops h

end UnifiedState

end ChainQuantStudio.State.Market
