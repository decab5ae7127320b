import ChainQuantStudio.State.Candles
import ChainQuantStudio.State.MarketHistories
import Mathlib.Data.Finset.Basic

/-!
# The unified market state

`MarketState` with every container it has: beside the books and their histories the latest ticker
and funding rate, the open interest, the recent trades, the candle windows and the receive times.
The containers that keep an index beside a queue carry the agreement of the two.
-/

namespace ChainQuantStudio.State.Market

open BoundedDeque Candles Data OrderBook Supervisor

inductive DataKind
  | ticker
  | candle
  | trade
  | orderBook
  | funding
  | openInterest
  deriving DecidableEq, Repr

inductive MarketEvent
  | ticker (event : Ticker)
  | candle (event : Candle)
  | trade (event : Trade)
  | snapshot (event : OrderBookSnapshot)
  | delta (event : OrderBookDelta)
  | funding (event : FundingRate)
  | openInterest (event : OpenInterest)

namespace MarketEvent

def metadata : MarketEvent → EventMetadata
  | .ticker event => event.metadata
  | .candle event => event.metadata
  | .trade event => event.metadata
  | .snapshot event => event.metadata
  | .delta event => event.metadata
  | .funding event => event.metadata
  | .openInterest event => event.metadata

/-- `event_kind`. -/
def kind : MarketEvent → DataKind
  | .ticker _ => .ticker
  | .candle _ => .candle
  | .trade _ => .trade
  | .snapshot _ | .delta _ => .orderBook
  | .funding _ => .funding
  | .openInterest _ => .openInterest

end MarketEvent

def isOlder (current : EventMetadata) : Option EventMetadata → Bool
  | none => false
  | some previous =>
    if current.exchangeTimestamp ≠ previous.exchangeTimestamp then
      current.exchangeTimestamp < previous.exchangeTimestamp
    else
      match current.sequenceId, previous.sequenceId with
      | some current, some previous => current < previous
      | _, _ => false

def isSameSource (current previous : EventMetadata) : Bool :=
  current.exchangeTimestamp = previous.exchangeTimestamp &&
    (current.sequenceId = previous.sequenceId || current.sequenceId.isNone ||
      previous.sequenceId.isNone)

@[simp] theorem isOlder_self (metadata : EventMetadata) :
    isOlder metadata (some metadata) = false := by
  cases h : metadata.sequenceId <;> simp [isOlder, h]

@[simp] theorem isSameSource_self (metadata : EventMetadata) :
    isSameSource metadata metadata = true := by
  simp [isSameSource]

theorem le_of_not_isOlder {current previous : EventMetadata}
    (h : isOlder current (some previous) = false) :
    previous.exchangeTimestamp ≤ current.exchangeTimestamp := by
  by_cases heq : current.exchangeTimestamp = previous.exchangeTimestamp
  · exact heq.symm.le
  · simpa [isOlder, heq] using h

structure TickerValues where
  lastPrice : Option ℚ
  markPrice : Option ℚ
  indexPrice : Option ℚ
  midPrice : Option ℚ
  bestBid : Option ℚ
  bestAsk : Option ℚ
  baseVolume24h : Option ℚ
  quoteVolume24h : Option ℚ
  deriving DecidableEq

def tickerValues (ticker : Ticker) : TickerValues where
  lastPrice := ticker.lastPrice
  markPrice := ticker.markPrice
  indexPrice := ticker.indexPrice
  midPrice := ticker.midPrice
  bestBid := ticker.bestBid
  bestAsk := ticker.bestAsk
  baseVolume24h := ticker.baseVolume24h
  quoteVolume24h := ticker.quoteVolume24h

def mergeTicker (previous : Option Ticker) (current : Ticker) : Ticker :=
  match previous with
  | none => current
  | some previous =>
    { metadata := current.metadata
      lastPrice := current.lastPrice.or previous.lastPrice
      markPrice := current.markPrice.or previous.markPrice
      indexPrice := current.indexPrice.or previous.indexPrice
      midPrice := current.midPrice.or previous.midPrice
      bestBid := current.bestBid.or previous.bestBid
      bestAsk := current.bestAsk.or previous.bestAsk
      baseVolume24h := current.baseVolume24h.or previous.baseVolume24h
      quoteVolume24h := current.quoteVolume24h.or previous.quoteVolume24h }

/-- The `Ticker` branch of `apply`: the ticker afterwards, and whether the event was applied. -/
def applyTicker (previous : Option Ticker) (event : Ticker) : Option Ticker × Bool :=
  if isOlder event.metadata (previous.map (·.metadata)) then (previous, false)
  else
    let merged := mergeTicker previous event
    match previous with
    | some ticker =>
      if isSameSource event.metadata ticker.metadata = true ∧
          tickerValues merged = tickerValues ticker then (previous, false)
      else (some merged, true)
    | none => (some merged, true)

def applyFunding (previous : Option FundingRate) (event : FundingRate) :
    Option FundingRate × Bool :=
  let applied := !isOlder event.metadata (previous.map (·.metadata)) &&
    !previous.any fun funding => isSameSource event.metadata funding.metadata &&
      (event.rate, event.nextFundingAt) = (funding.rate, funding.nextFundingAt)
  (if applied then some event else previous, applied)

def expireTrade (limit : ℕ) (ids : Finset String) : List Trade → List Trade × Finset String
  | [] => ([], ids)
  | expired :: newer =>
    if (expired :: newer).length = limit then (newer, ids.erase expired.tradeId)
    else (expired :: newer, ids)

def applyTrade (limit : ℕ) (trades : List Trade) (ids : Finset String) (event : Trade) :
    (List Trade × Finset String) × Bool :=
  if event.tradeId ∈ ids then ((trades, ids), false)
  else if isOlder event.metadata (trades.getLast?.map (·.metadata)) then ((trades, ids), false)
  else
    let (trades, ids) := expireTrade limit ids trades
    ((trades ++ [event], insert event.tradeId ids), true)

structure Indexed (trades : List Trade) (ids : Finset String) : Prop where
  ids_eq : ids = (trades.map Trade.tradeId).toFinset
  nodup : (trades.map Trade.tradeId).Nodup

def Chronological {α : Type} (metadata : α → EventMetadata) (events : List α) : Prop :=
  events.Pairwise fun a b => (metadata a).exchangeTimestamp ≤ (metadata b).exchangeTimestamp

section Trades

variable {limit : ℕ} {trades : List Trade} {ids : Finset String} {event : Trade}

theorem expireTrade_sublist : (expireTrade limit ids trades).1.Sublist trades := by
  cases trades with
  | nil => exact List.Sublist.refl _
  | cons expired newer =>
    simp only [expireTrade]
    split
    · exact List.sublist_cons_self expired newer
    · exact List.Sublist.refl _

theorem length_expireTrade_lt (hlimit : 0 < limit) (h : trades.length ≤ limit) :
    (expireTrade limit ids trades).1.length < limit := by
  cases trades with
  | nil => exact hlimit
  | cons expired newer =>
    simp only [expireTrade]
    split <;> simp_all <;> omega

theorem Indexed.expire (h : Indexed trades ids) :
    Indexed (expireTrade limit ids trades).1 (expireTrade limit ids trades).2 := by
  cases trades with
  | nil => exact h
  | cons expired newer =>
    simp only [expireTrade]
    split
    · obtain ⟨hnotin, hnodup⟩ := List.nodup_cons.mp h.nodup
      refine ⟨?_, hnodup⟩
      rw [h.ids_eq, List.map_cons, List.toFinset_cons, Finset.erase_insert]
      simpa using hnotin
    · exact h

theorem Indexed.append (h : Indexed trades ids) (hnew : event.tradeId ∉ ids) :
    Indexed (trades ++ [event]) (insert event.tradeId ids) := by
  refine ⟨?_, ?_⟩
  · ext identifier
    rw [List.mem_toFinset, List.map_append, List.mem_append, ← List.mem_toFinset, ← h.ids_eq,
      Finset.mem_insert, or_comm]
    simp
  · rw [List.map_append, List.nodup_append]
    refine ⟨h.nodup, List.nodup_singleton _, ?_⟩
    intro identifier hmem other hother heq
    rw [List.map_singleton, List.mem_singleton] at hother
    rw [h.ids_eq, List.mem_toFinset, ← hother, ← heq] at hnew
    exact hnew hmem

theorem Indexed.apply (h : Indexed trades ids) (event : Trade) :
    Indexed (applyTrade limit trades ids event).1.1 (applyTrade limit trades ids event).1.2 := by
  unfold applyTrade
  split
  case isTrue => exact h
  case isFalse hnew =>
    split
    case isTrue => exact h
    case isFalse =>
      refine h.expire.append fun hmem => hnew ?_
      rw [h.expire.ids_eq, List.mem_toFinset] at hmem
      rw [h.ids_eq, List.mem_toFinset]
      exact (expireTrade_sublist.map _).subset hmem

theorem Chronological.append {α : Type} {metadata : α → EventMetadata} {events : List α} {event : α}
    (h : Chronological metadata events)
    (hlast : isOlder (metadata event) (events.getLast?.map metadata) = false) :
    ∀ earlier ∈ events, (metadata earlier).exchangeTimestamp ≤ (metadata event).exchangeTimestamp
    := by
  intro earlier hmem
  cases hget : events.getLast? with
  | none =>
    rw [List.getLast?_eq_none_iff.mp hget] at hmem
    cases hmem
  | some last =>
    rw [hget] at hlast
    obtain ⟨older, rfl⟩ := List.getLast?_eq_some_iff.mp hget
    have hle := le_of_not_isOlder hlast
    rcases List.mem_append.mp hmem with holder | hlast
    · exact ((List.pairwise_append.mp h).2.2 earlier holder last (by simp)).trans hle
    · rwa [List.mem_singleton.mp hlast]

theorem Chronological.applyTrade (h : Chronological Trade.metadata trades) (event : Trade) :
    Chronological Trade.metadata (applyTrade limit trades ids event).1.1 := by
  unfold Market.applyTrade
  split
  case isTrue => exact h
  case isFalse =>
    split
    case isTrue => exact h
    case isFalse holder =>
      refine List.pairwise_append.mpr ⟨h.sublist expireTrade_sublist, List.pairwise_singleton _ _,
        fun earlier hmem later hlater => ?_⟩
      rw [List.mem_singleton.mp hlater]
      exact h.append (by simpa using holder) earlier (expireTrade_sublist.subset hmem)

theorem length_applyTrade_le (hlimit : 0 < limit) (h : trades.length ≤ limit) (event : Trade) :
    (applyTrade limit trades ids event).1.1.length ≤ limit := by
  unfold applyTrade
  split
  case isTrue => exact h
  case isFalse =>
    split
    case isTrue => exact h
    case isFalse =>
      rw [List.length_append, List.length_singleton]
      exact length_expireTrade_lt hlimit h

end Trades

structure RecentTrades (limit : ℕ) where
  trades : List Trade
  ids : Finset String
  indexed : Indexed trades ids
  bounded : trades.length ≤ limit
  chronological : Chronological Trade.metadata trades

namespace RecentTrades

variable {limit : ℕ}

def empty (limit : ℕ) : RecentTrades limit :=
  ⟨[], ∅, ⟨rfl, List.nodup_nil⟩, Nat.zero_le _, List.Pairwise.nil⟩

def apply (hlimit : 0 < limit) (recent : RecentTrades limit) (event : Trade) :
    RecentTrades limit × Bool :=
  ({ trades := (applyTrade limit recent.trades recent.ids event).1.1
     ids := (applyTrade limit recent.trades recent.ids event).1.2
     indexed := recent.indexed.apply event
     bounded := length_applyTrade_le hlimit recent.bounded event
     chronological := recent.chronological.applyTrade event },
    (applyTrade limit recent.trades recent.ids event).2)

end RecentTrades

def openInterestValues (event : OpenInterest) : ℚ × Option ℚ × Option ℚ :=
  (event.contracts, event.baseQuantity, event.quoteNotional)

/-- Whether the `OpenInterest` branch of `apply` takes the event. -/
def acceptsOpenInterest (previous : Option OpenInterest) (event : OpenInterest) : Bool :=
  !isOlder event.metadata (previous.map (·.metadata)) &&
    !previous.any fun earlier => isSameSource event.metadata earlier.metadata &&
      openInterestValues event = openInterestValues earlier

def recordOpenInterest (size : ℕ) (history : List OpenInterest) (event : OpenInterest)
    (previous : Option OpenInterest) : List OpenInterest :=
  if previous.any (fun earlier => isSameSource event.metadata earlier.metadata) && !history.isEmpty
  then history.dropLast ++ [event]
  else pushBack size history event

structure OpenInterestRecord (size : ℕ) where
  current : Option OpenInterest
  history : List OpenInterest
  current_eq : current = history.getLast?
  bounded : history.length ≤ size
  chronological : Chronological OpenInterest.metadata history

section OpenInterest

variable {size : ℕ} {history : List OpenInterest} {event : OpenInterest}
  {previous : Option OpenInterest}

theorem getLast?_recordOpenInterest (hsize : 0 < size) :
    (recordOpenInterest size history event previous).getLast? = some event := by
  unfold recordOpenInterest
  split
  · simp
  · exact getLast?_pushBack hsize

theorem length_recordOpenInterest_le (h : history.length ≤ size) :
    (recordOpenInterest size history event previous).length ≤ size := by
  unfold recordOpenInterest
  split
  case isTrue hreplaced =>
    have hne : history ≠ [] := by
      simp only [Bool.and_eq_true, Bool.not_eq_true', List.isEmpty_eq_false_iff] at hreplaced
      exact hreplaced.2
    have hpos := List.length_pos_iff.mpr hne
    rw [List.length_append, List.length_dropLast, List.length_singleton]
    omega
  case isFalse => exact length_pushBack_le

theorem Chronological.recordOpenInterest (h : Chronological OpenInterest.metadata history)
    (holder : isOlder event.metadata (history.getLast?.map (·.metadata)) = false) :
    Chronological OpenInterest.metadata
      (Market.recordOpenInterest size history event previous) := by
  have hle := h.append holder
  unfold Market.recordOpenInterest
  split
  · refine List.pairwise_append.mpr ⟨h.sublist (List.dropLast_sublist history),
      List.pairwise_singleton _ _, fun earlier hmem later hlater => ?_⟩
    rw [List.mem_singleton.mp hlater]
    exact hle earlier (List.mem_of_mem_dropLast hmem)
  · exact pairwise_pushBack h hle

namespace OpenInterestRecord

def empty (size : ℕ) : OpenInterestRecord size :=
  ⟨none, [], rfl, Nat.zero_le _, List.Pairwise.nil⟩

/-- The `OpenInterest` branch of `apply`. -/
def apply (hsize : 0 < size) (record : OpenInterestRecord size) (event : OpenInterest) :
    OpenInterestRecord size × Bool :=
  if haccepts : acceptsOpenInterest record.current event = true then
    ({ current := some event
       history := recordOpenInterest size record.history event record.current
       current_eq := (getLast?_recordOpenInterest hsize).symm
       bounded := length_recordOpenInterest_le record.bounded
       chronological := by
         simp only [acceptsOpenInterest, Bool.and_eq_true, Bool.not_eq_true'] at haccepts
         refine record.chronological.recordOpenInterest ?_
         rw [← record.current_eq]
         exact haccepts.1 }, true)
  else (record, false)

end OpenInterestRecord

end OpenInterest

structure FreshnessTracker where
  updatedAt : Instrument → DataKind → Option Instant := fun _ _ => none

namespace FreshnessTracker

variable (tracker : FreshnessTracker)

def set (instrument : Instrument) (kind : DataKind) (instant : Option Instant) :
    FreshnessTracker where
  updatedAt := Function.update tracker.updatedAt instrument
    (Function.update (tracker.updatedAt instrument) kind instant)

def mark (event : MarketEvent) : FreshnessTracker :=
  tracker.set event.metadata.instrument event.kind (some event.metadata.receivedAt)

def invalidate (instrument : Instrument) (kind : DataKind) : FreshnessTracker :=
  tracker.set instrument kind none

end FreshnessTracker

structure UnifiedSettings where
  books : MarketSettings
  candleWindowSize : ℕ := 500
  recentTradeLimit : ℕ := 1000
  openInterestHistorySize : ℕ := 1000
  candle_pos : 0 < candleWindowSize
  trade_pos : 0 < recentTradeLimit
  openInterest_ge : 2 ≤ openInterestHistorySize

namespace UnifiedSettings

theorem default_candle_pos : 0 < 500 := by decide

theorem default_trade_pos : 0 < 1000 := by decide

end UnifiedSettings

structure UnifiedState (settings : UnifiedSettings) where
  books : MarketState
  candles : CandleWindowStore
  freshness : FreshnessTracker := {}
  instruments : Finset Instrument := ∅
  tickers : Instrument → Option Ticker := fun _ => none
  fundingRates : Instrument → Option FundingRate := fun _ => none
  openInterest : Instrument → OpenInterestRecord settings.openInterestHistorySize :=
    fun _ => .empty _
  trades : Instrument → RecentTrades settings.recentTradeLimit := fun _ => .empty _

inductive UnifiedOp
  | apply (event : MarketEvent)
  | applyOrderBookSnapshot (snapshot : OrderBookSnapshot) (requireDeltaBridge : Bool)
  | registerInstruments (instruments : List Instrument)
  | invalidateOrderBook (instrument : Instrument)
  | invalidateRealtimeState (instrument : Instrument)
  | invalidateStreamState (instrument : Instrument)

namespace UnifiedState

variable {settings : UnifiedSettings}

def new (settings : UnifiedSettings) : UnifiedState settings where
  books := .new settings.books
  candles := ⟨settings.candleWindowSize, fun _ => .empty _, settings.candle_pos⟩

variable (state : UnifiedState settings)

def registerInstruments (instruments : List Instrument) : UnifiedState settings :=
  { state with instruments := state.instruments ∪ instruments.toFinset }

def register (instrument : Instrument) : UnifiedState settings :=
  { state with instruments := insert instrument state.instruments }

/-- The end of `apply`: what was applied is marked. -/
def markIf (event : MarketEvent) (applied : Bool) : UnifiedState settings :=
  if applied then { state with freshness := state.freshness.mark event } else state

def applyOrderBookSnapshot (snapshot : OrderBookSnapshot) (requireDeltaBridge : Bool) :
    UnifiedState settings × Except Raised Bool :=
  let state := state.register snapshot.metadata.instrument
  let (books, outcome) := state.books.applyOrderBookSnapshot snapshot requireDeltaBridge
  let state := { state with books }
  match outcome with
  | .ok applied => (state.markIf (.snapshot snapshot) applied, .ok applied)
  | .error raised => (state, .error raised)

/-- The `OrderBookDelta` branch of `apply`: where the delta does not connect, the book is
invalidated and its receive time forgotten before the exception is raised again. -/
def applyDelta (delta : OrderBookDelta) : UnifiedState settings × Except Raised Bool :=
  let (books, outcome) := state.books.applyDelta delta
  let state := { state with books }
  match outcome with
  | .ok applied => (state.markIf (.delta delta) applied, .ok applied)
  | .error (.orderBookOutOfSync message) =>
    ({ state with
        freshness := state.freshness.invalidate delta.metadata.instrument .orderBook },
      .error (.orderBookOutOfSync message))
  | .error raised => (state, .error raised)

def apply (event : MarketEvent) : UnifiedState settings × Except Raised Bool :=
  let instrument := event.metadata.instrument
  let state := state.register instrument
  match event with
  | .ticker ticker =>
    let (current, applied) := applyTicker (state.tickers instrument) ticker
    let state := { state with tickers := Function.update state.tickers instrument current }
    (state.markIf event applied, .ok applied)
  | .candle candle =>
    let (candles, applied) := state.candles.upsert candle
    let state := { state with candles }
    (state.markIf event applied, .ok applied)
  | .trade trade =>
    let (recent, applied) := (state.trades instrument).apply settings.trade_pos trade
    let state := { state with trades := Function.update state.trades instrument recent }
    (state.markIf event applied, .ok applied)
  | .snapshot snapshot => state.applyOrderBookSnapshot snapshot false
  | .delta delta => state.applyDelta delta
  | .funding funding =>
    let (current, applied) := applyFunding (state.fundingRates instrument) funding
    let state := { state with
      fundingRates := Function.update state.fundingRates instrument current }
    (state.markIf event applied, .ok applied)
  | .openInterest openInterest =>
    let (record, applied) := (state.openInterest instrument).apply
      (Nat.lt_of_lt_of_le Nat.zero_lt_two settings.openInterest_ge) openInterest
    let state := { state with
      openInterest := Function.update state.openInterest instrument record }
    (state.markIf event applied, .ok applied)

def invalidateOrderBook (instrument : Instrument) : UnifiedState settings :=
  { state with
    books := state.books.invalidateOrderBook instrument
    freshness := state.freshness.invalidate instrument .orderBook }

def invalidateRealtimeState (instrument : Instrument) : UnifiedState settings :=
  let state := state.invalidateOrderBook instrument
  { state with
    tickers := Function.update state.tickers instrument none
    fundingRates := Function.update state.fundingRates instrument none
    openInterest := Function.update state.openInterest instrument (.empty _)
    trades := Function.update state.trades instrument (.empty _)
    freshness := [DataKind.ticker, .trade, .orderBook, .funding, .openInterest].foldl
      (fun tracker kind => tracker.invalidate instrument kind) state.freshness }

def invalidateStreamState (instrument : Instrument) : UnifiedState settings :=
  let state := state.invalidateRealtimeState instrument
  { state with
    candles := state.candles.invalidate instrument
    freshness := state.freshness.invalidate instrument .candle }

/-- One call of a run in which what the calls raise is caught. -/
def step : UnifiedOp → UnifiedState settings
  | .apply event => (state.apply event).1
  | .applyOrderBookSnapshot snapshot bridge => (state.applyOrderBookSnapshot snapshot bridge).1
  | .registerInstruments instruments => state.registerInstruments instruments
  | .invalidateOrderBook instrument => state.invalidateOrderBook instrument
  | .invalidateRealtimeState instrument => state.invalidateRealtimeState instrument
  | .invalidateStreamState instrument => state.invalidateStreamState instrument

end UnifiedState

end ChainQuantStudio.State.Market
