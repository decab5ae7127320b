import ChainQuantStudio.Library.Loops
import Mathlib.Data.List.Basic
import Mathlib.Data.Set.Basic
import Mathlib.Data.Set.BooleanAlgebra
import Mathlib.Order.BooleanAlgebra.Set
import Mathlib.Order.CompletePartialOrder
import Mathlib.Order.Disjoint
import Mathlib.Tactic.Common

/-!
# Half-open intervals in a row

Intervals tile a range if each starts where the one before it ends. Then no two of them meet, and
every point of the range lies in one of them. The values of a loop tile a range if each reaches from
one cursor to the next.
-/

namespace ChainQuantStudio.Tiling

open Loops

variable {α β : Type*} [LinearOrder α] {first last : β → α}

def Tiles (first last : β → α) : α → List β → α → Prop
  | a, [], b => a = b
  | a, x :: xs, b => first x = a ∧ a < last x ∧ Tiles first last (last x) xs b

def Covers (first last : β → α) (x : β) (d : α) : Prop := first x ≤ d ∧ d < last x

instance (x : β) (d : α) : Decidable (Covers first last x d) := inferInstanceAs (Decidable (_ ∧ _))

theorem Tiles.le {a b : α} {xs : List β} (h : Tiles first last a xs b) : a ≤ b := by
  induction xs generalizing a with
  | nil => exact le_of_eq h
  | cons x xs ih => exact h.2.1.le.trans (ih h.2.2)

theorem Tiles.mem {a b : α} {xs : List β} (h : Tiles first last a xs b) {x : β} (hx : x ∈ xs) :
    a ≤ first x ∧ last x ≤ b := by
  induction xs generalizing a with
  | nil => cases hx
  | cons y ys ih =>
    obtain ⟨hfirst, hlt, hrest⟩ := h
    rcases List.mem_cons.mp hx with rfl | hx
    · exact ⟨hfirst.ge, hrest.le⟩
    · obtain ⟨hlater, hend⟩ := ih hrest hx
      exact ⟨hlt.le.trans hlater, hend⟩

theorem Tiles.pairwise {a b : α} {xs : List β} (h : Tiles first last a xs b) :
    xs.Pairwise fun x y => last x ≤ first y := by
  induction xs generalizing a with
  | nil => exact .nil
  | cons x xs ih =>
    obtain ⟨-, -, hrest⟩ := h
    exact .cons (fun y hy => (hrest.mem hy).1) (ih hrest)

theorem disjoint_of_le {x y : β} (h : last x ≤ first y) :
    Disjoint {d | Covers first last x d} {d | Covers first last y d} := by
  rw [Set.disjoint_left]
  rintro d ⟨-, hlast⟩ ⟨hfirst, -⟩
  exact absurd (hlast.trans_le (h.trans hfirst)) (lt_irrefl d)

theorem Tiles.count_outside {a b d : α} {xs : List β} (h : Tiles first last a xs b)
    (hd : d < a ∨ b ≤ d) : xs.countP (Covers first last · d) = 0 := by
  rw [List.countP_eq_zero]
  intro x hx hcovers
  obtain ⟨hfirst, hlast⟩ := of_decide_eq_true hcovers
  obtain ⟨hafter, hbefore⟩ := h.mem hx
  rcases hd with hd | hd
  · exact absurd (hd.trans_le (hafter.trans hfirst)) (lt_irrefl d)
  · exact absurd (hlast.trans_le (hbefore.trans hd)) (lt_irrefl d)

theorem Tiles.count_inside {a b d : α} {xs : List β} (h : Tiles first last a xs b) (ha : a ≤ d)
    (hb : d < b) : xs.countP (Covers first last · d) = 1 := by
  induction xs generalizing a with
  | nil =>
    obtain rfl : a = b := h
    exact absurd (ha.trans_lt hb) (lt_irrefl _)
  | cons x xs ih =>
    obtain ⟨hfirst, hlt, hrest⟩ := h
    rw [List.countP_cons]
    rcases lt_or_ge d (last x) with hwithin | hbeyond
    · have hcovers : Covers first last x d := ⟨hfirst.trans_le ha, hwithin⟩
      rw [hrest.count_outside (.inl hwithin), if_pos (decide_eq_true hcovers)]
    · have hnot : ¬ Covers first last x d := fun hcovers => absurd hcovers.2 (not_lt.mpr hbeyond)
      rw [ih hrest hbeyond, if_neg (by rw [decide_eq_true_eq]; exact hnot)]

section

variable {a b a' b' d : α} {xs ys : List β} (h : Tiles first last a xs b)
  (h' : Tiles first last a' ys b') (hlater : b ≤ a')

include h h' hlater

theorem Tiles.disjoint_append : (xs ++ ys).Pairwise fun x y =>
    Disjoint {d | Covers first last x d} {d | Covers first last y d} := by
  rw [List.pairwise_append]
  refine ⟨h.pairwise.imp disjoint_of_le, h'.pairwise.imp disjoint_of_le, fun x hx y hy => ?_⟩
  exact disjoint_of_le ((h.mem hx).2.trans (hlater.trans (h'.mem hy).1))

theorem Tiles.count_append_left (ha : a ≤ d) (hb : d < b) :
    (xs ++ ys).countP (Covers first last · d) = 1 := by
  rw [List.countP_append, h.count_inside ha hb, h'.count_outside (.inl (hb.trans_le hlater))]

theorem Tiles.count_append_right (ha : a' ≤ d) (hb : d < b') :
    (xs ++ ys).countP (Covers first last · d) = 1 := by
  rw [List.countP_append, h.count_outside (.inr (hlater.trans ha)), h'.count_inside ha hb]

end

theorem tiles_of_yields {σ ε : Type*} {turn : Turn σ ε β} (inv : σ → Prop) (place : σ → α)
    {stop : α}
    (hturn : ∀ s, inv s → (turn s = .ok none ∧ place s = stop) ∨
      ∃ x s', turn s = .ok (some ([x], s')) ∧ first x = place s ∧ last x = place s' ∧
        place s < place s' ∧ inv s')
    {s : σ} {xs : List β} (h : Yields turn s xs) (hs : inv s) :
    Tiles first last (place s) xs stop := by
  induction h with
  | stop hstop =>
    rcases hturn _ hs with ⟨-, hplace⟩ | ⟨x, s', hnext, -⟩
    · exact hplace
    · cases hstop.symm.trans hnext
  | next hnext hrest ih =>
    rcases hturn _ hs with ⟨hstop, -⟩ | ⟨x, s', hone, hfirst, hlast, hless, hs'⟩
    · cases hnext.symm.trans hstop
    · cases hnext.symm.trans hone
      refine ⟨hfirst, ?_, ?_⟩
      · rw [hlast]
        exact hless
      · rw [hlast]
        exact ih hs'

end ChainQuantStudio.Tiling
