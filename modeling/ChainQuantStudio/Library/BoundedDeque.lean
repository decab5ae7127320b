import Mathlib.Data.List.Basic
import Mathlib.Data.List.DropRight
import Mathlib.Tactic.Common

/-!
# Double-ended queues of bounded length

A queue with a maximum length drops entries from its front when it is appended to. The lemmas say
what an append keeps: membership, the last entry, the bound and any order the entries stand in.
-/

namespace ChainQuantStudio.BoundedDeque

variable {α : Type*} {limit : ℕ} {xs : List α} {x y : α}

def pushBack (limit : ℕ) (xs : List α) (x : α) : List α :=
  (xs ++ [x]).drop (xs.length + 1 - limit)

theorem pushBack_sublist : (pushBack limit xs x).Sublist (xs ++ [x]) := List.drop_sublist _ _

theorem mem_of_mem_pushBack (h : y ∈ pushBack limit xs x) : y ∈ xs ∨ y = x := by
  have hmem := pushBack_sublist.subset h
  simpa using hmem

theorem length_pushBack_le : (pushBack limit xs x).length ≤ limit := by
  simp only [pushBack, List.length_drop, List.length_append, List.length_singleton]
  omega

theorem pushBack_of_lt (h : xs.length < limit) : pushBack limit xs x = xs ++ [x] := by
  have hzero : xs.length + 1 - limit = 0 := by omega
  rw [pushBack, hzero, List.drop_zero]

theorem pushBack_cons_of_length_eq (h : (y :: xs).length = limit) :
    pushBack limit (y :: xs) x = xs ++ [x] := by
  have hone : (y :: xs).length + 1 - limit = 1 := by omega
  rw [pushBack, hone, List.cons_append, List.drop_one, List.tail_cons]

theorem getLast?_pushBack (h : 0 < limit) : (pushBack limit xs x).getLast? = some x := by
  have hlt : xs.length + 1 - limit < (xs ++ [x]).length := by
    rw [List.length_append, List.length_singleton]
    omega
  rw [pushBack, List.getLast?_drop, if_neg (by omega)]
  simp

theorem pushBack_rtake : pushBack limit (xs.rtake limit) x = (xs ++ [x]).rtake limit := by
  simp only [pushBack, List.rtake]
  rw [List.length_drop, List.length_append, List.length_singleton]
  rcases Nat.le_total limit xs.length with hle | hle
  · rw [← List.drop_append_of_le_length (Nat.sub_le _ _), List.drop_drop]
    congr 1
    omega
  · have hzero : xs.length - limit = 0 := by omega
    rw [hzero, List.drop_zero, Nat.sub_zero]

theorem pairwise_pushBack {R : α → α → Prop} (h : xs.Pairwise R) (hx : ∀ y ∈ xs, R y x) :
    (pushBack limit xs x).Pairwise R := by
  apply List.Pairwise.sublist pushBack_sublist
  rw [List.pairwise_append]
  exact ⟨h, List.pairwise_singleton R x, fun y hy z hz => by
    rw [List.mem_singleton.mp hz]
    exact hx y hy⟩

section Owner

variable {p : α → Bool} {ys : List α}

theorem pushBack_suffix : pushBack limit xs x <:+ xs ++ [x] := List.drop_suffix _ _

theorem length_pushBack : (pushBack limit xs x).length = min (xs.length + 1) limit := by
  simp only [pushBack, List.length_drop, List.length_append, List.length_singleton]
  omega

theorem filter_pushBack_other (hx : p x = false) (h : xs.filter p <:+ ys) :
    (pushBack limit xs x).filter p <:+ ys := by
  have hsuffix := (pushBack_suffix : pushBack limit xs x <:+ xs ++ [x]).filter p
  rw [List.filter_append, List.filter_singleton, hx] at hsuffix
  simpa using hsuffix.trans (by simpa using h)

theorem filter_pushBack_own (hx : p x = true) (h : xs.filter p <:+ ys) :
    (pushBack limit xs x).filter p <:+ pushBack limit ys x := by
  have hleft : (pushBack limit xs x).filter p <:+ ys ++ [x] := by
    have hsuffix := (pushBack_suffix : pushBack limit xs x <:+ xs ++ [x]).filter p
    rw [List.filter_append, List.filter_singleton, hx] at hsuffix
    exact hsuffix.trans (List.suffix_append_self_iff.mpr h)
  refine List.suffix_of_suffix_length_le hleft pushBack_suffix ?_
  have htotal := hleft.length_le
  have hbound := (List.length_filter_le p (pushBack limit xs x)).trans length_pushBack_le
  rw [List.length_append, List.length_singleton] at htotal
  rw [length_pushBack]
  omega

end Owner

end ChainQuantStudio.BoundedDeque
