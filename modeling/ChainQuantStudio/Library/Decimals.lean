import ChainQuantStudio.Library.FloatArith
import ChainQuantStudio.Library.PythonText
import Mathlib.Data.Int.Log
import Mathlib.Data.Prod.Lex

/-!
# Python's `decimal` and `int`

Decimals as values: exact numbers, infinities and not-a-numbers. Arithmetic rounds to 28 digits in
the default context, where an invalid operation, a division by zero and an overflow raise; texts are
read exactly. `none` is an exception throughout.
-/

namespace ChainQuantStudio

inductive Decimal
  | finite (value : ℚ)
  | infinity (negative : Bool)
  | nan (signaling : Bool)
  deriving DecidableEq

namespace Decimal

open PythonText

def quantum (x : ℚ) : ℤ := max (Int.log 10 |x| - 27) (-1000026)

def rounded (x : ℚ) : Option ℚ :=
  let unit : ℚ := 10 ^ quantum x
  let result := FloatArith.ratRound (x / unit) * unit
  if 999999 < Int.log 10 |result| then none else some result

def finite? : Decimal → Option ℚ
  | .finite value => some value
  | _ => none

/-- The place in the order of the numbers, which a not-a-number does not have. -/
def place : Decimal → Option (ℤ ×ₗ ℚ)
  | .finite value => some (toLex (0, value))
  | .infinity negative => some (toLex (if negative then -1 else 1, 0))
  | .nan _ => none

/-- `a <= b`. -/
def le (a b : Decimal) : Option Bool :=
  match a.place, b.place with
  | some x, some y => some (x ≤ y)
  | _, _ => none

/-- `a < b`. -/
def lt (a b : Decimal) : Option Bool :=
  match a.place, b.place with
  | some x, some y => some (x < y)
  | _, _ => none

def neg : Decimal → Decimal
  | .finite value => .finite (-value)
  | .infinity negative => .infinity !negative
  | .nan signaling => .nan signaling

def quiet (signaling : Bool) : Option Decimal := if signaling then none else some (.nan false)

def add : Decimal → Decimal → Option Decimal
  | .nan s, .nan t => quiet (s || t)
  | .nan s, _ | _, .nan s => quiet s
  | .infinity p, .infinity q => if p = q then some (.infinity p) else none
  | .infinity p, _ | _, .infinity p => some (.infinity p)
  | .finite x, .finite y => (rounded (x + y)).map .finite

def sub (a b : Decimal) : Option Decimal := a.add b.neg

def isNegative : Decimal → Bool
  | .finite value => value < 0
  | .infinity negative => negative
  | .nan _ => false

def mul : Decimal → Decimal → Option Decimal
  | .nan s, .nan t => quiet (s || t)
  | .nan s, _ | _, .nan s => quiet s
  | .finite x, .finite y => (rounded (x * y)).map .finite
  | a, b =>
    if a = .finite 0 ∨ b = .finite 0 then none
    else some (.infinity (a.isNegative ^^ b.isNegative))

def div : Decimal → Decimal → Option Decimal
  | .nan s, .nan t => quiet (s || t)
  | .nan s, _ | _, .nan s => quiet s
  | .infinity _, .infinity _ => none
  | .infinity p, b => some (.infinity (p ^^ b.isNegative))
  | .finite _, .infinity _ => some (.finite 0)
  | .finite x, .finite y => if y = 0 then none else (rounded (x / y)).map .finite

def digitOf (c : Char) : Option ℕ :=
  (digitZeros.find? fun first => first ≤ c.toNat && c.toNat < first + 10).map (c.toNat - ·)

def natOf (digits : List ℕ) : ℕ := digits.foldl (fun value digit => 10 * value + digit) 0

def takeDigits (text : Text) : List ℕ × Text :=
  let digits := text.takeWhile isDecimal
  (digits.filterMap digitOf, text.drop digits.length)

def takeSign : Text → Bool × Text
  | '-' :: rest => (true, rest)
  | '+' :: rest => (false, rest)
  | text => (false, text)

def exponentOf : Text → Option ℤ
  | [] => some 0
  | c :: rest =>
    if c = 'e' ∨ c = 'E' then
      let (negative, rest) := takeSign rest
      let (digits, rest) := takeDigits rest
      if digits = [] ∨ rest ≠ [] then none
      else some (if negative then -natOf digits else natOf digits)
    else none

def InRange (coefficient : ℕ) (exponent : ℤ) : Prop :=
  -1999999999999999997 ≤ exponent ∧ exponent + Nat.log 10 coefficient ≤ 999999999999999999

instance (coefficient : ℕ) (exponent : ℤ) : Decidable (InRange coefficient exponent) :=
  inferInstanceAs (Decidable (_ ∧ _))

def numberOf (negative : Bool) (text : Text) : Option Decimal :=
  let (whole, rest) := takeDigits text
  let (fraction, rest) := match rest with
    | '.' :: rest => takeDigits rest
    | rest => ([], rest)
  match exponentOf rest with
  | none => none
  | some exponent =>
    let coefficient := natOf (whole ++ fraction)
    let exponent := exponent - fraction.length
    if whole ++ fraction ≠ [] ∧ InRange coefficient exponent then
      let value : ℚ := coefficient * 10 ^ exponent
      some (.finite (if negative then -value else value))
    else none

/-- `Decimal(text)`. White space around it and underscores do not count. -/
def ofText (text : Text) : Option Decimal :=
  let (negative, body) := takeSign ((strip text).filter (· ≠ '_'))
  let word := body.map Char.toLower
  if word = "inf".toList ∨ word = "infinity".toList then some (.infinity negative)
  else if (afterLiteral "nan".toList word).any fun rest => rest.all isDecimal then some (.nan false)
  else if (afterLiteral "snan".toList word).any fun rest => rest.all isDecimal then some (.nan true)
  else numberOf negative body

/-- The white space that `int` skips. -/
def isIntSpace (c : Char) : Bool :=
  let n := c.toNat
  (9 ≤ n && n ≤ 13) || n == 32 || (128 ≤ n && isSpace c)

/-- `int(text)`: digits, with single underscores between them. -/
def intOfText (text : Text) : Option ℤ :=
  let trimmed := ((text.dropWhile isIntSpace).reverse.dropWhile isIntSpace).reverse
  let (negative, body) := takeSign trimmed
  let groups := body.splitOnP (· = '_')
  let digits := groups.flatten.filterMap digitOf
  if groups.all (fun group => group ≠ [] && group.all isDecimal) ∧ digits.length ≤ 4300 then
    some (if negative then -natOf digits else natOf digits)
  else none

example : ofText " -1_0.50E-1 ".toList = some (.finite (-105 / 100)) := by decide +kernel
example : ofText "sNaN1".toList = some (.nan true) ∧ ofText "1.2.3".toList = none := by
  decide +kernel
example : intOfText " +1_000 ".toList = some 1000 ∧ intOfText "1__0".toList = none := by
  decide +kernel

end Decimal

end ChainQuantStudio
