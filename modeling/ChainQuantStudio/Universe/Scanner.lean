import ChainQuantStudio.Data.Models
import ChainQuantStudio.Library.Decimals
import ChainQuantStudio.Library.Dict
import ChainQuantStudio.Studio.StrategyData

/-!
# The all-market scanner

A message of the exchange is an object of untyped values. Each of its rows is read field by field;
a ticker extends the history of its symbol, which is then cut to twice the lookback, and a book
replaces the book of its symbol. Only three kinds of exceptions are caught, and only around the
reading of prices and quantities.
-/

namespace ChainQuantStudio.Universe

open Data
open Studio.StrategyData (Doubles Representable toMs truncate)

inductive PyFloat
  | finite (exact shown : ℚ)
  | infinity (negative : Bool)
  | nan
  deriving DecidableEq

inductive Payload
  | null
  | bool (value : Bool)
  | int (value : ℤ)
  | float (value : PyFloat)
  | str (text : String)
  | arr (items : List Payload)
  | obj (fields : List (String × Payload))

abbrev Row := List (String × Payload)

/-- Of the exceptions of `decimal` all are arithmetic errors. -/
inductive Raised
  | keyError
  | typeError
  | valueError
  | overflowError
  | arithmeticError
  deriving DecidableEq

/-- `except (KeyError, TypeError, ValueError)`. -/
def Raised.caught : Raised → Bool
  | .keyError | .typeError | .valueError => true
  | .overflowError | .arithmeticError => false

/-- The doubles, and `str` of a float, a list or a dictionary. -/
structure Platform where
  doubles : Doubles
  str : Payload → String

def Platform.symbolText (p : Platform) : Payload → String
  | .str text => text
  | .null => "None"
  | .bool value => if value then "True" else "False"
  | .int value => toString value
  | value => p.str value

/-- `value == 1`. -/
def Payload.isOne : Payload → Bool
  | .int value => value = 1
  | .bool value => value
  | .float (.finite exact _) => exact = 1
  | _ => false

/-- `value == text`. -/
def Payload.isText (value : Payload) (text : String) : Bool :=
  match value with
  | .str other => other = text
  | _ => false

/-- `Decimal(str(value))`; `None`, `True` and the text of a list or a dictionary are no numbers. -/
def decimalOf : Payload → Except Raised Decimal
  | .int value => .ok (.finite value)
  | .float (.finite _ shown) => .ok (.finite shown)
  | .float (.infinity negative) => .ok (.infinity negative)
  | .float .nan => .ok (.nan false)
  | .str text =>
    match Decimal.ofText text.toList with
    | some value => .ok value
    | none => .error .arithmeticError
  | .null | .bool _ | .arr _ | .obj _ => .error .arithmeticError

/-- `int(value)`. -/
def intOf : Payload → Except Raised ℤ
  | .int value => .ok value
  | .bool value => .ok (if value then 1 else 0)
  | .float (.finite exact _) => .ok (truncate exact)
  | .float (.infinity _) => .error .overflowError
  | .float .nan => .error .valueError
  | .str text =>
    match Decimal.intOfText text.toList with
    | some value => .ok value
    | none => .error .valueError
  | .null | .arr _ | .obj _ => .error .typeError

/-- `row[key]`. -/
def field (row : Row) (key : String) : Except Raised Payload :=
  match Dict.get? row key with
  | some value => .ok value
  | none => .error .keyError

def fromMilliseconds (f : Doubles) (value : ℤ) : Except Raised Instant :=
  let instant := FloatArith.ratRound (f.round (value / 1000) * 1000000)
  if Representable instant then .ok instant else .error .valueError

/-- `from_milliseconds(row.get("E", int(now.timestamp() * 1000)))`. -/
def Platform.observedAt (p : Platform) (row : Row) (now : Instant) : Except Raised Instant := do
  let value ← match Dict.get? row "E" with
    | some value => intOf value
    | none => .ok (toMs p.doubles now)
  fromMilliseconds p.doubles value

structure TickerPoint (D : Type) where
  observedAt : Instant
  price : D
  quoteVolume : D
  tradeCount : ℤ
  deriving DecidableEq

structure BookPoint (D : Type) where
  observedAt : Instant
  spreadBps : D
  bidLevelNotional : D
  askLevelNotional : D
  deriving DecidableEq

/-- The scanner, with numbers of a type `D`. -/
structure Scanner (D : Type) where
  lookbackSeconds : ℕ := 60
  bookStaleSeconds : ℕ := 10
  candidateLimit : ℕ := 30
  minimumQuoteVolume24h : ℚ := 1000000
  maximumSpreadBps : ℚ := 100
  minimumBestLevelNotional : ℚ := 5000
  excluded : List String := ["BTC/USDT", "ETH/USDT"]
  allowedSymbols : List String := []
  history : List (String × List (TickerPoint D)) := []
  books : List (String × BookPoint D) := []
  lookback_pos : 1 ≤ lookbackSeconds := by decide
  stale_pos : 1 ≤ bookStaleSeconds := by decide
  limit_pos : 1 ≤ candidateLimit := by decide
  deriving DecidableEq

namespace Scanner

theorem default_lookback_pos : 1 ≤ 60 := by decide

theorem default_stale_pos : 1 ≤ 10 := by decide

theorem default_limit_pos : 1 ≤ 30 := by decide

variable {D : Type} (scanner : Scanner D)

def historyOf (symbol : String) : List (TickerPoint D) :=
  (Dict.get? scanner.history symbol).getD []

def isOlder (symbol : String) (observedAt : Instant) : Bool :=
  (scanner.historyOf symbol).getLast?.any fun last => observedAt < last.observedAt

def cutoff (observedAt : Instant) : Instant := observedAt - scanner.lookbackSeconds * 2 * 1000000

/-- The second part of `_record_ticker`. -/
def recordPoint (symbol : String) (point : TickerPoint D) : Except Raised (Scanner D) :=
  if scanner.isOlder symbol point.observedAt then .ok scanner
  else
    let history := scanner.historyOf symbol ++ [point]
    let cutoff := scanner.cutoff point.observedAt
    if Representable cutoff then
      .ok { scanner with
        history := Dict.set scanner.history symbol
          (history.dropWhile fun point => point.observedAt < cutoff) }
    else .error .overflowError

def recordBookPoint (symbol : String) (book : BookPoint D) : Scanner D :=
  { scanner with books := Dict.set scanner.books symbol book }

end Scanner

/-- The fields that the `try` of `_record_ticker` reads. -/
def tickerOf (row : Row) (observedAt : Instant) : Except Raised (TickerPoint Decimal) := do
  let price ← decimalOf (← field row "c")
  let quoteVolume ← decimalOf (← field row "q")
  let tradeCount ← intOf (← field row "n")
  return { observedAt, price, quoteVolume, tradeCount }

structure Quotes (D : Type) where
  bid : D
  ask : D
  bidQuantity : D
  askQuantity : D

/-- The fields that the `try` of `_record_book` reads. -/
def quotesOf (row : Row) : Except Raised (Quotes Decimal) := do
  let bid ← decimalOf (← field row "b")
  let ask ← decimalOf (← field row "a")
  let bidQuantity ← decimalOf (← field row "B")
  let askQuantity ← decimalOf (← field row "A")
  return { bid, ask, bidQuantity, askQuantity }

/-- `bid <= 0 or ask < bid or bid_quantity < 0 or ask_quantity < 0`. -/
def Quotes.invalid (q : Quotes Decimal) : Option Bool := do
  if ← q.bid.le (.finite 0) then return true
  if ← q.ask.lt q.bid then return true
  if ← q.bidQuantity.lt (.finite 0) then return true
  q.askQuantity.lt (.finite 0)

def Quotes.book (q : Quotes Decimal) (observedAt : Instant) : Option (BookPoint Decimal) := do
  let mid ← (← q.bid.add q.ask).div (.finite 2)
  let spreadBps ← (← (← q.ask.sub q.bid).div mid).mul (.finite 10000)
  let bidLevelNotional ← q.bid.mul q.bidQuantity
  let askLevelNotional ← q.ask.mul q.askQuantity
  return { observedAt, spreadBps, bidLevelNotional, askLevelNotional }

namespace Scanner

variable (scanner : Scanner Decimal)

def recordTicker (symbol : String) (row : Row) (observedAt : Instant) :
    Except Raised (Scanner Decimal) :=
  match tickerOf row observedAt with
  | .error raised => if raised.caught then .ok scanner else .error raised
  | .ok point => scanner.recordPoint symbol point

def recordBook (symbol : String) (row : Row) (observedAt : Instant) :
    Except Raised (Scanner Decimal) :=
  match quotesOf row with
  | .error raised => if raised.caught then .ok scanner else .error raised
  | .ok quotes =>
    match quotes.invalid with
    | none => .error .arithmeticError
    | some true => .ok scanner
    | some false =>
      match quotes.book observedAt with
      | none => .error .arithmeticError
      | some book => .ok (scanner.recordBookPoint symbol book)

end Scanner

inductive Event
  | ticker
  | book
  deriving DecidableEq

def eventOf (row : Row) : Option Event :=
  let eventType := (Dict.get? row "e").getD .null
  if eventType.isText "24hrTicker" then some .ticker
  else if eventType.isText "bookTicker" ∨
      ["u", "b", "B", "a", "A"].all fun key => (Dict.get? row key).isSome then some .book
  else none

def Platform.watched (p : Platform) (allowed : List String) (row : Row) : Option String :=
  let symbol := p.symbolText ((Dict.get? row "s").getD (.str ""))
  if symbol ∉ allowed ∨ ((Dict.get? row "st").getD (.int 1)).isOne = false then none
  else some symbol

namespace Scanner

variable (p : Platform)

/-- One turn of the loop of `process_message`. -/
def processRow (now : Instant) (scanner : Scanner Decimal) : Payload → Except Raised (Scanner Decimal)
  | .obj row =>
    match p.watched scanner.allowedSymbols row with
    | none => .ok scanner
    | some symbol => do
      let observedAt ← p.observedAt row now
      match eventOf row with
      | some .ticker => scanner.recordTicker symbol row observedAt
      | some .book => scanner.recordBook symbol row observedAt
      | none => .ok scanner
  | _ => .ok scanner

def processRows (now : Instant) (scanner : Scanner Decimal) (rows : List Payload) :
    Except Raised (Scanner Decimal) :=
  rows.foldlM (processRow p now) scanner

/-- `data if isinstance(data, list) else (data,)`. -/
def rowsOf (payload : Row) : List Payload :=
  match Dict.get? payload "data" with
  | some (.arr rows) => rows
  | some data => [data]
  | none => [.obj payload]

def processMessage (now : Instant) (scanner : Scanner Decimal) (payload : Row) :
    Except Raised (Scanner Decimal) :=
  scanner.processRows p now (rowsOf payload)

end Scanner

end ChainQuantStudio.Universe
