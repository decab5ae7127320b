import ChainQuantStudio.Data.Models
import Mathlib.Data.Int.ConditionallyCompleteOrder
import Mathlib.Order.ConditionallyCompleteLattice.Basic
import Mathlib.Order.Monotone.Defs

/-!
# Depth messages as the venues send them

The raw rows keep the venues' own field names. Each adapter turns a row into a normalized snapshot
or delta and decides which of the row's numbers becomes the sequence number. `VenueStream` is what
a venue promises of the numbers in its successive updates.
-/

namespace ChainQuantStudio.Exchanges.Depth

open Data

inductive DepthEvent
  | snapshot (snapshot : OrderBookSnapshot)
  | delta (delta : OrderBookDelta)
  deriving DecidableEq, Repr

def DepthEvent.metadata : DepthEvent → EventMetadata
  | .snapshot event => event.metadata
  | .delta event => event.metadata

/-- `data` of a Binance `depthUpdate`; the spot stream has no `pu`. -/
structure BinanceDepthUpdate where
  E : ℤ
  U : ℤ
  u : ℤ
  pu : ℤ := 0
  b : List BookLevel
  a : List BookLevel
  deriving DecidableEq, Repr

/-- A row of the OKX `books` channel. -/
structure OkxBooksRow where
  ts : ℤ
  seqId : ℤ
  prevSeqId : ℤ
  bids : List BookLevel
  asks : List BookLevel
  deriving DecidableEq, Repr

/-- `data` of a Bybit `orderbook` message, with the timestamps beside it. -/
structure BybitOrderBookRow where
  ts : ℤ
  cts : Option ℤ := none
  u : ℤ
  seq : Option ℤ := none
  b : List BookLevel
  a : List BookLevel
  deriving DecidableEq, Repr

inductive DepthMessage
  | binanceSpot (data : BinanceDepthUpdate)
  | binanceFutures (data : BinanceDepthUpdate)
  | okxBooks (isSnapshot : Bool) (row : OkxBooksRow)
  | bybitOrderBook (isSnapshot : Bool) (row : BybitOrderBookRow)
  deriving DecidableEq, Repr

def fromMilliseconds (value : ℤ) : Instant := value * 1000

def binanceSpotDelta (instrument : Instrument) (received : Instant) (data : BinanceDepthUpdate) :
    OrderBookDelta where
  metadata :=
    { instrument
      exchangeTimestamp := fromMilliseconds data.E
      receivedAt := received
      sequenceId := some data.u }
  bids := data.b
  asks := data.a
  firstSequenceId := some data.U

def binanceFuturesDelta (instrument : Instrument) (received : Instant)
    (data : BinanceDepthUpdate) : OrderBookDelta :=
  { binanceSpotDelta instrument received data with previousSequenceId := some data.pu }

def okxMetadata (instrument : Instrument) (received : Instant) (row : OkxBooksRow) :
    EventMetadata where
  instrument := instrument
  exchangeTimestamp := fromMilliseconds row.ts
  receivedAt := received
  sequenceId := some row.seqId

def okxDelta (instrument : Instrument) (received : Instant) (row : OkxBooksRow) :
    OrderBookDelta where
  metadata := okxMetadata instrument received row
  bids := row.bids
  asks := row.asks
  previousSequenceId := some row.prevSeqId

/-- `row.get("seq", row["u"])`. -/
def BybitOrderBookRow.sequence (row : BybitOrderBookRow) : ℤ := row.seq.getD row.u

def bybitMetadata (instrument : Instrument) (received : Instant) (row : BybitOrderBookRow) :
    EventMetadata where
  instrument := instrument
  exchangeTimestamp := fromMilliseconds (row.cts.getD row.ts)
  receivedAt := received
  sequenceId := some row.sequence

def bybitDelta (instrument : Instrument) (received : Instant) (row : BybitOrderBookRow) :
    OrderBookDelta where
  metadata := bybitMetadata instrument received row
  bids := row.b
  asks := row.a

def parseDepth (instrument : Instrument) (received : Instant) : DepthMessage → DepthEvent
  | .binanceSpot data => .delta (binanceSpotDelta instrument received data)
  | .binanceFutures data => .delta (binanceFuturesDelta instrument received data)
  | .okxBooks isSnapshot row =>
    if isSnapshot then
      .snapshot
        { metadata := okxMetadata instrument received row
          bids := row.bids.take 100
          asks := row.asks.take 100 }
    else .delta (okxDelta instrument received row)
  | .bybitOrderBook isSnapshot row =>
    if isSnapshot || row.u == 1 then
      .snapshot
        { metadata := bybitMetadata instrument received row
          bids := row.b.take 100
          asks := row.a.take 100 }
    else .delta (bybitDelta instrument received row)

inductive VenueStream (instrument : Instrument) : (ℕ → DepthMessage) → Prop
  | binanceSpot (data : ℕ → BinanceDepthUpdate) (exchange : instrument.exchange = .binance)
      (market : instrument.marketType = .spot)
      (range : ∀ i, 0 < (data i).U ∧ (data i).U ≤ (data i).u)
      (next : ∀ i, (data (i + 1)).U = (data i).u + 1) :
      VenueStream instrument fun i => .binanceSpot (data i)
  | binanceFutures (data : ℕ → BinanceDepthUpdate) (exchange : instrument.exchange = .binance)
      (market : instrument.marketType = .linearPerpetual)
      (range : ∀ i, 0 < (data i).U ∧ (data i).U ≤ (data i).u)
      (next : ∀ i, (data (i + 1)).pu = (data i).u ∧ (data i).u < (data (i + 1)).U) :
      VenueStream instrument fun i => .binanceFutures (data i)
  | okx (rows : ℕ → OkxBooksRow) (exchange : instrument.exchange = .okx)
      (next : ∀ i, (rows (i + 1)).prevSeqId = (rows i).seqId)
      (fresh : ∀ i j, i < j → (rows i).prevSeqId = (rows j).prevSeqId →
        ∀ m, i ≤ m → m < j → (rows m).seqId = (rows m).prevSeqId) :
      VenueStream instrument fun i => .okxBooks false (rows i)
  | bybit (rows : ℕ → BybitOrderBookRow) (exchange : instrument.exchange = .bybit)
      (next : ∀ i, (rows (i + 1)).u = (rows i).u + 1) (delta : ∀ i, (rows i).u ≠ 1)
      (increasing : StrictMono fun i => (rows i).sequence) :
      VenueStream instrument fun i => .bybitOrderBook false (rows i)

end ChainQuantStudio.Exchanges.Depth
