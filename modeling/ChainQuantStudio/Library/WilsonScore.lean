import Mathlib.Analysis.SpecialFunctions.Pow.Real

/-!
# The Wilson score bound

The lower end of the Wilson interval of an observed proportion `p` is the least probability `q` from
which `p` is no farther than the score test allows: `(p - q)² ≤ c q (1 - q)`, where `c` is the
squared quantile over the number of trials. Its range and its growth in `p` follow from that.
-/

namespace ChainQuantStudio.WilsonScore

noncomputable def lowerBound (p c : ℝ) : ℝ :=
  (p + c / 2 - √(c * (p * (1 - p)) + c ^ 2 / 4)) / (1 + c)

def Accepted (p c q : ℝ) : Prop := (p - q) ^ 2 ≤ c * (q * (1 - q))

variable {p p' c q : ℝ}

theorem radicand_nonneg (hp : 0 ≤ p ∧ p ≤ 1) (hc : 0 ≤ c) :
    0 ≤ c * (p * (1 - p)) + c ^ 2 / 4 := by
  have hvariance : 0 ≤ p * (1 - p) := mul_nonneg hp.1 (sub_nonneg.mpr hp.2)
  positivity

theorem lowerBound_spec (hc : 0 < c) :
    √(c * (p * (1 - p)) + c ^ 2 / 4) = p + c / 2 - (1 + c) * lowerBound p c := by
  have hne : 1 + c ≠ 0 := by positivity
  rw [lowerBound, mul_div_cancel₀ _ hne]
  ring

theorem score_lowerBound (hp : 0 ≤ p ∧ p ≤ 1) (hc : 0 < c) :
    (p - lowerBound p c) ^ 2 = c * (lowerBound p c * (1 - lowerBound p c)) := by
  have hsquare := Real.sq_sqrt (radicand_nonneg hp hc.le)
  rw [lowerBound_spec hc] at hsquare
  have hne : 1 + c ≠ 0 := by positivity
  have hfactor : (1 + c) * ((p - lowerBound p c) ^ 2 -
      c * (lowerBound p c * (1 - lowerBound p c))) = 0 := by
    linear_combination hsquare
  linarith [(mul_eq_zero.mp hfactor).resolve_left hne]

theorem lowerBound_le_of_accepted (hp : 0 ≤ p ∧ p ≤ 1) (hc : 0 < c) (hq : Accepted p c q) :
    lowerBound p c ≤ q := by
  have hsquare := Real.sq_sqrt (radicand_nonneg hp hc.le)
  have hpos : 0 < 1 + c := by positivity
  have hbelow : (p + c / 2 - (1 + c) * q) ^ 2 ≤ √(c * (p * (1 - p)) + c ^ 2 / 4) ^ 2 := by
    have hscaled := mul_le_mul_of_nonneg_left hq hpos.le
    rw [hsquare]
    linarith
  have hroot := (abs_le_of_sq_le_sq' hbelow (Real.sqrt_nonneg _)).2
  rw [lowerBound_spec hc] at hroot
  exact le_of_mul_le_mul_left (by linarith) hpos

theorem isLeast_lowerBound (hp : 0 ≤ p ∧ p ≤ 1) (hc : 0 < c) :
    IsLeast {q | Accepted p c q} (lowerBound p c) :=
  ⟨(score_lowerBound hp hc).le, fun _ hq => lowerBound_le_of_accepted hp hc hq⟩

theorem Accepted.nonneg (hc : 0 < c) (hq : Accepted p c q) : 0 ≤ q := by
  by_contra hneg
  have hq' : q < 0 := not_le.mp hneg
  have hvariance : q * (1 - q) < 0 := mul_neg_of_neg_of_pos hq' (by linarith)
  have hbound := mul_neg_of_pos_of_neg hc hvariance
  unfold Accepted at hq
  linarith [sq_nonneg (p - q)]

theorem lowerBound_nonneg (hp : 0 ≤ p ∧ p ≤ 1) (hc : 0 < c) : 0 ≤ lowerBound p c :=
  Accepted.nonneg hc (isLeast_lowerBound hp hc).1

theorem lowerBound_le (hp : 0 ≤ p ∧ p ≤ 1) (hc : 0 < c) : lowerBound p c ≤ p := by
  refine lowerBound_le_of_accepted hp hc ?_
  have hvariance : 0 ≤ p * (1 - p) := mul_nonneg hp.1 (sub_nonneg.mpr hp.2)
  rw [Accepted, sub_self, zero_pow two_ne_zero]
  positivity

theorem lowerBound_lt (hp : 0 ≤ p ∧ p ≤ 1) (hp' : 0 ≤ p' ∧ p' ≤ 1) (hc : 0 < c) (h : p < p') :
    lowerBound p c < lowerBound p' c := by
  by_contra hle
  have hle : lowerBound p' c ≤ lowerBound p c := not_lt.mp hle
  have hscore := score_lowerBound hp' hc
  have hbelow := lowerBound_le hp hc
  have hcloser : (p - lowerBound p' c) ^ 2 < (p' - lowerBound p' c) ^ 2 :=
    pow_lt_pow_left₀ (by linarith) (by linarith) two_ne_zero
  have haccepted : Accepted p c (lowerBound p' c) := (hcloser.trans_eq hscore).le
  have heq := le_antisymm hle (lowerBound_le_of_accepted hp hc haccepted)
  rw [hscore, heq, ← score_lowerBound hp hc] at hcloser
  exact lt_irrefl _ hcloser

end ChainQuantStudio.WilsonScore
