import Mathlib.Algebra.Order.Field.Basic
import Mathlib.Algebra.Order.Ring.Pow
import Mathlib.Algebra.BigOperators.Fin
import Mathlib.Tactic.Linarith

/-!
# Delays that grow up to a maximum

`capped` is the delay after so many failures in a row, without its random part, and `jittered` adds
that part. Each failure multiplies the delay by a factor.
-/

namespace ChainQuantStudio.Backoff

variable {K : Type*} [Field K] [LinearOrder K] [IsStrictOrderedRing K]
  {factor base maximum backoff jitter : K}

def capped (factor base maximum : K) (failures : ℕ) : K := min maximum (base * factor ^ failures)

def jittered (maximum backoff jitter : K) : K := min maximum (backoff + jitter)

omit [IsStrictOrderedRing K] in
theorem capped_le (factor base maximum : K) (failures : ℕ) :
    capped factor base maximum failures ≤ maximum := min_le_left _ _

theorem capped_mono (hfactor : 1 ≤ factor) (hbase : 0 ≤ base) (maximum : K) :
    Monotone (capped factor base maximum) := by
  intro m n hmn
  have hpow : factor ^ m ≤ factor ^ n := pow_le_pow_right₀ hfactor hmn
  exact min_le_min_left maximum (mul_le_mul_of_nonneg_left hpow hbase)

theorem base_le_capped (hfactor : 1 ≤ factor) (hbase : 0 ≤ base) (hle : base ≤ maximum)
    (failures : ℕ) : base ≤ capped factor base maximum failures := by
  have hfirst : capped factor base maximum 0 = base := by simp [capped, hle]
  calc base = capped factor base maximum 0 := hfirst.symm
    _ ≤ capped factor base maximum failures :=
        capped_mono hfactor hbase maximum (Nat.zero_le failures)

theorem capped_min (hfactor : 1 ≤ factor) (hbase : 0 ≤ base) {bound : ℕ}
    (hbound : maximum ≤ base * factor ^ bound) (failures : ℕ) :
    capped factor base maximum (min failures bound) = capped factor base maximum failures := by
  rcases le_total failures bound with hle | hle
  · rw [min_eq_left hle]
  · have hlast : capped factor base maximum bound = maximum := min_eq_left hbound
    have hmore : maximum ≤ capped factor base maximum failures :=
      hlast.symm.le.trans (capped_mono hfactor hbase maximum hle)
    rw [min_eq_right hle, hlast]
    exact le_antisymm hmore (capped_le factor base maximum failures)

omit [IsStrictOrderedRing K] in
theorem jittered_le (maximum backoff jitter : K) : jittered maximum backoff jitter ≤ maximum :=
  min_le_left _ _

theorem le_jittered (hbackoff : backoff ≤ maximum) (hjitter : 0 ≤ jitter) :
    backoff ≤ jittered maximum backoff jitter :=
  le_min hbackoff (le_add_of_nonneg_right hjitter)

end ChainQuantStudio.Backoff
