import ChainQuantStudio.Library.SortedPrefix
import Mathlib.Algebra.Order.Group.Defs
import Mathlib.Data.List.Basic
import Mathlib.Tactic.Abel
import Mathlib.Tactic.Linarith

/-!
# Times within every window of a length

A list of times in order has at most `most` of them in each half-open window of a length, wherever
it lies, when each time comes to fewer than `most` that are newer than the window that it ends.
-/

namespace ChainQuantStudio.SlidingWindow

variable {R : Type*} [AddCommGroup R] [LinearOrder R]

/-- The times newer than `now - period`. -/
def recent (period now : R) (times : List R) : List R := times.filter fun time => now - period < time

/-- The times in `(t - period, t]`. -/
def within (period t : R) (times : List R) : List R :=
  times.filter fun time => t - period < time ∧ time ≤ t

def Bounded (most : ℕ) (period : R) (times : List R) : Prop :=
  ∀ t, (within period t times).length ≤ most

variable {period now earlier : R} {times : List R} {most : ℕ}

theorem dropWhile_eq_recent (h : times.Pairwise (· ≤ ·)) :
    (times.dropWhile fun time => time ≤ now - period) = recent period now times := by
  rw [SortedPrefix.dropWhile_eq_filter]
  · apply List.filter_congr
    intro time _
    rcases le_or_gt time (now - period) with hold | hnew
    · simp [hold, hold.not_gt]
    · simp [hnew, hnew.not_ge]
  · refine h.imp fun hle hold => ?_
    have hold := of_decide_eq_true hold
    exact decide_eq_true (hle.trans hold)

theorem bounded_nil : Bounded most period ([] : List R) := fun _ => Nat.zero_le _

variable [IsOrderedAddMonoid R]

theorem recent_recent (h : earlier ≤ now) :
    recent period now (recent period earlier times) = recent period now times := by
  unfold recent
  rw [List.filter_filter]
  apply List.filter_congr
  intro time _
  have hcut : earlier - period ≤ now - period := sub_le_sub_right h period
  simp only [Bool.and_eq_decide, decide_eq_true_eq, decide_eq_decide]
  exact ⟨fun hboth => hboth.1, fun hnew => ⟨hnew, hcut.trans_lt hnew⟩⟩

theorem recent_concat (hperiod : 0 < period) :
    recent period now (times ++ [now]) = recent period now times ++ [now] := by
  have hnow : now - period < now := sub_lt_self now hperiod
  simp [recent, List.filter_append, hnow]

theorem Bounded.concat (h : Bounded most period times)
    (hroom : (recent period now times).length < most) : Bounded most period (times ++ [now]) := by
  intro t
  have hsplit : within period t (times ++ [now]) =
      within period t times ++ within period t [now] := List.filter_append _ _
  rw [hsplit, List.length_append]
  by_cases hnow : now ≤ t
  · have hsub : (within period t times).Sublist (recent period now times) := by
      apply List.monotone_filter_right
      intro time htime
      have hcut : now - period ≤ t - period := sub_le_sub_right hnow period
      simp only [decide_eq_true_eq] at htime ⊢
      exact hcut.trans_lt htime.1
    have hone : (within period t [now]).length ≤ 1 := List.length_filter_le _ _
    have hle := hsub.length_le
    omega
  · have hnone : within period t [now] = [] := by simp [within, hnow]
    rw [hnone, List.length_nil, Nat.add_zero]
    exact h t

end ChainQuantStudio.SlidingWindow
