import Mathlib.Algebra.Order.Ring.Rat

/-!
# Venue-independent normalized market-data models

Instants are integer microseconds since the epoch, the resolution of the clock readings the
adapters produce; prices and quantities are exact rationals.
-/

namespace ChainQuantStudio.Data

inductive Exchange
  | binance
  | bybit
  | hyperliquid
  | okx
  deriving DecidableEq, Repr

inductive MarketType
  | spot
  | linearPerpetual
  deriving DecidableEq, Repr

inductive TimestampQuality
  | exchange
  | estimated
  | receiveOnly
  deriving DecidableEq, Repr

structure Instrument where
  exchange : Exchange
  marketType : MarketType
  exchangeSymbol : String
  canonicalSymbol : String
  baseAsset : String
  quoteAsset : String
  settlementAsset : String
  deriving DecidableEq, Repr

/-- Microseconds since the epoch. -/
abbrev Instant := ℤ

structure EventMetadata where
  instrument : Instrument
  exchangeTimestamp : Instant
  receivedAt : Instant
  sequenceId : Option ℤ := none
  timestampQuality : TimestampQuality := .exchange
  deriving DecidableEq, Repr

/-- A level that `BookLevel.__post_init__` accepts. -/
structure BookLevel where
  price : ℚ
  quantity : ℚ
  price_pos : 0 < price
  quantity_nonneg : 0 ≤ quantity
  deriving DecidableEq, Repr

structure OrderBookSnapshot where
  metadata : EventMetadata
  bids : List BookLevel
  asks : List BookLevel
  depth : ℕ := 100
  deriving DecidableEq, Repr

structure OrderBookDelta where
  metadata : EventMetadata
  bids : List BookLevel
  asks : List BookLevel
  firstSequenceId : Option ℤ := none
  previousSequenceId : Option ℤ := none
  deriving DecidableEq, Repr

inductive Side
  | buy
  | sell
  deriving DecidableEq, Repr

inductive QuantityUnit
  | base
  | quote
  | contracts
  deriving DecidableEq, Repr

structure Ticker where
  metadata : EventMetadata
  lastPrice : Option ℚ
  markPrice : Option ℚ := none
  indexPrice : Option ℚ := none
  midPrice : Option ℚ := none
  bestBid : Option ℚ := none
  bestAsk : Option ℚ := none
  baseVolume24h : Option ℚ := none
  quoteVolume24h : Option ℚ := none
  deriving DecidableEq, Repr

structure Trade where
  metadata : EventMetadata
  tradeId : String
  price : ℚ
  quantity : ℚ
  side : Side
  quantityUnit : QuantityUnit := .base
  deriving DecidableEq, Repr

structure FundingRate where
  metadata : EventMetadata
  rate : ℚ
  nextFundingAt : Option Instant
  deriving DecidableEq, Repr

structure OpenInterest where
  metadata : EventMetadata
  contracts : ℚ
  baseQuantity : Option ℚ := none
  quoteNotional : Option ℚ := none
  deriving DecidableEq, Repr

def btcUsdt (exchange : Exchange) (marketType : MarketType) : Instrument where
  exchange := exchange
  marketType := marketType
  exchangeSymbol := "BTCUSDT"
  canonicalSymbol := "BTC/USDT"
  baseAsset := "BTC"
  quoteAsset := "USDT"
  settlementAsset := "USDT"

def EventMetadata.numbered (instrument : Instrument) (sequenceId : ℤ) (instant : Instant) :
    EventMetadata where
  instrument := instrument
  exchangeTimestamp := instant
  receivedAt := instant
  sequenceId := some sequenceId

end ChainQuantStudio.Data
