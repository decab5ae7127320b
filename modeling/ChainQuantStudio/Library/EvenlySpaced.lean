import Mathlib.Algebra.Order.Floor.Ring
import Mathlib.Data.List.Chain
import Mathlib.Data.List.Sort
import Mathlib.Data.Rat.Floor
import Mathlib.Tactic.Linarith
import Mathlib.Tactic.Ring

/-!
# Evenly spaced times

Times that are one step apart hold every time of their grid between the first and the last. How far
the latest time of a grid can be from a known one follows from the time that has gone by.
-/

namespace ChainQuantStudio.EvenlySpaced

def Spaced (step : ℤ) (times : List ℤ) : Prop := times.IsChain fun a b => b - a = step

variable {step first last s t : ℤ} {times times' : List ℤ}

theorem Spaced.pairwise (h : Spaced step times) (hstep : 0 < step) : times.Pairwise (· < ·) := by
  refine List.isChain_iff_pairwise.mp (h.imp fun a b hab => ?_)
  omega

theorem Spaced.dvd (h : Spaced step times) (hlast : times.getLast? = some last) (hs : s ∈ times) :
    step ∣ last - s := by
  induction times generalizing s with
  | nil => cases hlast
  | cons first rest ih =>
    cases rest with
    | nil =>
      obtain rfl : first = last := Option.some.inj hlast
      rw [List.mem_singleton.mp hs, sub_self]
      exact dvd_zero step
    | cons second rest =>
      obtain ⟨hsecond, hrest⟩ := List.isChain_cons_cons.mp h
      rcases List.mem_cons.mp hs with rfl | hmem
      · obtain ⟨k, hk⟩ := ih hrest hlast List.mem_cons_self
        exact ⟨k + 1, by rw [mul_add, ← hk, ← hsecond]; ring⟩
      · exact ih hrest hlast hmem

theorem Spaced.mem (h : Spaced step times) (hstep : 0 < step) (hlast : times.getLast? = some last)
    (hgrid : step ∣ last - t) (hfirst : ∃ s ∈ times, s ≤ t) (hle : t ≤ last) : t ∈ times := by
  induction times with
  | nil => cases hlast
  | cons first rest ih =>
    have hdvd := h.dvd hlast List.mem_cons_self
    have hfirst' : first ≤ t := by
      obtain ⟨s, hs, hst⟩ := hfirst
      rcases List.mem_cons.mp hs with rfl | hmem
      · exact hst
      · exact ((List.pairwise_cons.mp (h.pairwise hstep)).1 s hmem).le.trans hst
    cases rest with
    | nil =>
      obtain rfl : first = last := Option.some.inj hlast
      rw [le_antisymm hle hfirst']
      exact List.mem_singleton_self _
    | cons second rest =>
      obtain ⟨hsecond, hrest⟩ := List.isChain_cons_cons.mp h
      by_cases hlater : second ≤ t
      · exact List.mem_cons_of_mem _ (ih hrest hlast ⟨second, List.mem_cons_self, hlater⟩)
      · -- less than a step after the first time of the grid
        have hzero : t - first = 0 := by
          have hdiff : step ∣ t - first := by
            have heq : t - first = (last - first) - (last - t) := by ring
            rw [heq]
            exact dvd_sub hdvd hgrid
          exact Int.eq_zero_of_dvd_of_nonneg_of_lt (by omega) (by omega) hdiff
        have heq : t = first := by omega
        rw [heq]
        exact List.mem_cons_self

theorem Spaced.suffix_concat (h : Spaced step times) (hlast : times.getLast? = some last)
    (hsuffix : times' <:+ times ++ [last + step]) : Spaced step times' := by
  refine List.IsChain.suffix (h.append (List.isChain_singleton _) ?_) hsuffix
  intro x hx y hy
  rw [hlast] at hx
  obtain rfl : last = x := Option.some.inj hx
  obtain rfl : last + step = y := Option.some.inj hy
  ring

theorem spaced_range (first step : ℤ) (count : ℕ) :
    Spaced step ((List.range count).map fun i : ℕ => first + i * step) := by
  unfold Spaced
  rw [List.isChain_map, List.isChain_iff_getElem]
  intro i hi
  simp only [List.getElem_range]
  push_cast
  ring

theorem spaced_of_perm (hstep : 0 < step) (h : Spaced step times') (hperm : times.Perm times')
    (hsorted : times.Pairwise (· ≤ ·)) : Spaced step times := by
  have hsorted' : times'.Pairwise (· ≤ ·) := (h.pairwise hstep).imp le_of_lt
  rw [hperm.eq_of_pairwise' hsorted hsorted']
  exact h

theorem le_ceil_add_two (hstep : 0 < step) {known now elapsed later : ℚ} {ahead : ℤ}
    (hknown : now < known + 2 * step) (hlater : later ≤ now + elapsed + step)
    (hahead : known + ahead * step ≤ later) : ahead ≤ ⌈elapsed / step⌉ + 2 := by
  have hstep' : (0 : ℚ) < step := by exact_mod_cast hstep
  have hlt : (ahead : ℚ) - 3 < elapsed / step := by
    rw [lt_div_iff₀ hstep']
    linarith
  have hceil : ((ahead - 3 : ℤ) : ℚ) < ⌈elapsed / step⌉ := by
    push_cast
    exact hlt.trans_le (Int.le_ceil _)
  have := Int.cast_lt.mp hceil
  omega

end ChainQuantStudio.EvenlySpaced
