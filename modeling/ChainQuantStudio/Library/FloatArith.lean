import Mathlib.Algebra.Order.Field.Rat
import Mathlib.Algebra.Order.Floor.Ring
import Mathlib.Data.Rat.Floor
import Mathlib.Tactic.Linarith

/-!
# Float operations as parameters

The operations that a program applies to floats, taken as fixed functions of their operands. A
result over every such arithmetic holds of IEEE doubles whatever they round to. Exact rationals
are one instance, with which small runs can be computed.
-/

namespace ChainQuantStudio

class FloatArith (F : Type*) where
  isFinite : F → Bool
  isZero : F → Bool
  lt : F → F → Bool
  le : F → F → Bool
  add : F → F → F
  sub : F → F → F
  mul : F → F → F
  div : F → F → F
  abs : F → F
  log1p : F → F
  sqrt : F → F
  /-- The sum of a list in order, which need not be a fold of `add`. -/
  sum : List F → F
  /-- The float that a literal or an integer denotes. -/
  ofRat : ℚ → F
  /-- The nearest integer, absent for infinities and not-a-numbers. -/
  round : F → Option ℤ
  /-- The integer part towards zero. -/
  trunc : F → Option ℤ
  ceil : F → Option ℤ
  /-- Closeness with the default relative tolerance and an absolute one of `1e-9`. -/
  isClose : F → F → Bool
  repr : F → String

/-- Scaling a deviation that is not zero does not make it zero. -/
class LawfulFloatArith (F : Type*) [FloatArith F] : Prop where
  isZero_scale : ∀ x : F, FloatArith.isZero x = false →
    FloatArith.isZero (FloatArith.mul (FloatArith.ofRat (14826 / 10000)) x) = false

class OrderedFloatArith (F : Type*) [LinearOrder F] [FloatArith F] : Prop
    extends LawfulFloatArith F where
  lt_iff : ∀ x y : F, FloatArith.lt x y = true ↔ x < y
  le_iff : ∀ x y : F, FloatArith.le x y = true ↔ x ≤ y
  sub_le_sub : ∀ x y z w : F, x ≤ y → z ≤ w → FloatArith.sub x w ≤ FloatArith.sub y z
  sub_self : FloatArith.sub (FloatArith.ofRat 1) (FloatArith.ofRat 1) = (FloatArith.ofRat 0 : F)
  sub_zero : FloatArith.sub (FloatArith.ofRat 1) (FloatArith.ofRat 0) = (FloatArith.ofRat 1 : F)
  div_le_div : ∀ x y c : F, FloatArith.ofRat 0 < c → x ≤ y →
    FloatArith.div x c ≤ FloatArith.div y c
  div_self : ∀ c : F, FloatArith.ofRat 0 < c → FloatArith.div c c = FloatArith.ofRat 1
  zero_div : ∀ c : F, FloatArith.ofRat 0 < c →
    FloatArith.div (FloatArith.ofRat 0) c = FloatArith.ofRat 0

section

open FloatArith

/-- What IEEE doubles keep of the order of exact arithmetic. A value that is not `le` itself is not a
number, and a positive number that is not finite is infinite. -/
class RoundedFloatArith (F : Type*) [FloatArith F] : Prop extends LawfulFloatArith F where
  le_trans : ∀ x y z : F, le x y = true → le y z = true → le x z = true
  le_total : ∀ x y : F, le x x = true → le y y = true → le x y = true ∨ le y x = true
  le_self : ∀ x y : F, le x y = true → le x x = true ∧ le y y = true
  lt_iff : ∀ x y : F, lt x y = true ↔ le x y = true ∧ le y x = false
  le_of_isFinite : ∀ x : F, isFinite x = true → le x x = true
  isFinite_zero : isFinite (ofRat 0 : F) = true
  isFinite_between : ∀ x y z : F, isFinite x = true → isFinite z = true → le x y = true →
    le y z = true → isFinite y = true
  -- subtraction from one, and of one
  sub_one_mono : ∀ x y : F, le x y = true → le (sub x (ofRat 1)) (sub y (ofRat 1)) = true
  one_sub_anti : ∀ x y : F, le x y = true → le (sub (ofRat 1) y) (sub (ofRat 1) x) = true
  sub_undefined : ∀ x : F, le x x = false → le (sub x (ofRat 1)) (sub x (ofRat 1)) = false ∧
    le (sub (ofRat 1) x) (sub (ofRat 1) x) = false
  one_sub_one : sub (ofRat 1) (ofRat 1) = (ofRat 0 : F)
  one_sub_zero : sub (ofRat 1) (ofRat 0) = (ofRat 1 : F)
  zero_sub_one : le (sub (ofRat 0) (ofRat 1)) (ofRat 0 : F) = true
  -- division by a positive number
  div_mono : ∀ x y c : F, isFinite c = true → lt (ofRat 0) c = true → le x y = true →
    le (div x c) (div y c) = true
  div_self : ∀ c : F, isFinite c = true → lt (ofRat 0) c = true → div c c = ofRat 1
  zero_div : ∀ c : F, isFinite c = true → lt (ofRat 0) c = true → div (ofRat 0) c = ofRat 0
  div_undefined : ∀ x c : F, le x x = false ∨ le c c = false →
    le (div x c) (div x c) = false
  div_infinite : ∀ x c : F, isFinite c = false → lt (ofRat 0) c = true → isFinite x = true →
    le (div x c) (ofRat 0) = true ∧ le (ofRat 0) (div x c) = true
  infinite_div : ∀ x c : F, isFinite c = false → lt (ofRat 0) c = true → isFinite x = false →
    le (div x c) (div x c) = false

end

namespace FloatArith

def ratSqrt (x : ℚ) : ℚ := (Nat.sqrt x.num.toNat : ℚ) / (Nat.sqrt x.den : ℚ)

def ratRound (x : ℚ) : ℤ :=
  let below := ⌊x⌋
  let rest := x - below
  if rest < 1 / 2 then below
  else if 1 / 2 < rest then below + 1
  else if below % 2 = 0 then below else below + 1

/-- Exact arithmetic; `log1p` is its Padé approximant, which no computed run uses. -/
instance : FloatArith ℚ where
  isFinite _ := true
  isZero x := x == 0
  lt x y := x < y
  le x y := x ≤ y
  add x y := x + y
  sub x y := x - y
  mul x y := x * y
  div x y := x / y
  abs x := |x|
  log1p x := x / (1 + x / 2)
  sqrt := ratSqrt
  sum xs := xs.sum
  ofRat x := x
  round x := some (ratRound x)
  trunc x := some (if 0 ≤ x then ⌊x⌋ else ⌈x⌉)
  ceil x := some ⌈x⌉
  isClose x y := |x - y| ≤ max (1 / 1000000000 * max |x| |y|) (1 / 1000000000)
  repr := toString

instance : LawfulFloatArith ℚ where
  isZero_scale x hx := by
    have hne : x ≠ 0 := by simpa [isZero] using hx
    have hscale : (14826 / 10000 : ℚ) * x ≠ 0 := mul_ne_zero (by norm_num) hne
    simpa [isZero, mul, ofRat] using hscale

instance : OrderedFloatArith ℚ where
  lt_iff := by simp [lt]
  le_iff := by simp [le]
  sub_le_sub x y z w hxy hzw := by
    simp only [sub]
    linarith
  sub_self := by simp [sub, ofRat]
  sub_zero := by simp [sub, ofRat]
  div_le_div x y c hc hxy := by
    simp only [div]
    exact div_le_div_of_nonneg_right hxy (le_of_lt hc)
  div_self c hc := by
    have hne : c ≠ 0 := ne_of_gt hc
    simp [div, ofRat, hne]
  zero_div c hc := by simp [div, ofRat]

instance : RoundedFloatArith ℚ where
  le_trans x y z hxy hyz := by
    simp only [le, decide_eq_true_eq] at *
    exact hxy.trans hyz
  le_total x y _ _ := by simpa [le] using le_total x y
  le_self x y _ := by simp [le]
  lt_iff x y := by
    simp only [lt, le, decide_eq_true_eq, decide_eq_false_iff_not, not_le]
    exact ⟨fun h => ⟨h.le, h⟩, And.right⟩
  le_of_isFinite x _ := by simp [le]
  isFinite_zero := rfl
  isFinite_between _ _ _ _ _ _ _ := rfl
  sub_one_mono x y h := by simpa [le, sub] using h
  one_sub_anti x y h := by
    simp only [le, sub, decide_eq_true_eq] at *
    exact sub_le_sub_left h _
  sub_undefined x h := by simp [le] at h
  one_sub_one := by simp [sub, ofRat]
  one_sub_zero := by simp [sub, ofRat]
  zero_sub_one := by simp [le, sub, ofRat]
  div_mono x y c _ hc hxy := by
    simp only [lt, le, ofRat, div, decide_eq_true_eq] at *
    exact div_le_div_of_nonneg_right hxy (le_of_lt hc)
  div_self c _ hc := by
    have hne : c ≠ 0 := ne_of_gt (by simpa [lt, ofRat] using hc)
    simp [div, ofRat, hne]
  zero_div c _ hc := by simp [div, ofRat]
  div_undefined x c h := by simp [le] at h
  div_infinite x c h := by simp [isFinite] at h
  infinite_div x c h := by simp [isFinite] at h

end FloatArith

end ChainQuantStudio
