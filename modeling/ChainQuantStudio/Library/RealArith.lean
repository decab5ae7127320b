import ChainQuantStudio.Library.FloatArith
import Mathlib.Analysis.SpecialFunctions.Log.Basic
import Mathlib.Analysis.SpecialFunctions.Pow.Real

/-!
# Exact real arithmetic

Float operations without rounding, infinities or not-a-numbers.
-/

namespace ChainQuantStudio.FloatArith

noncomputable def realRound (x : ℝ) : ℤ :=
  let below := ⌊x⌋
  let rest := x - below
  if rest < 1 - rest then below
  else if 1 - rest < rest then below + 1
  else if below % 2 = 0 then below else below + 1

/-- Real numbers have no text, so `repr` gives none. -/
noncomputable instance : FloatArith ℝ where
  isFinite _ := true
  isZero x := x = 0
  lt x y := x < y
  le x y := x ≤ y
  add x y := x + y
  sub x y := x - y
  mul x y := x * y
  div x y := x / y
  abs x := |x|
  log1p x := Real.log (1 + x)
  sqrt x := √x
  sum xs := xs.sum
  ofRat x := x
  round x := some (realRound x)
  trunc x := some (if 0 ≤ x then ⌊x⌋ else ⌈x⌉)
  ceil x := some ⌈x⌉
  isClose x y := |x - y| ≤ max (1 / 1000000000 * max |x| |y|) (1 / 1000000000)
  repr _ := ""

end ChainQuantStudio.FloatArith
