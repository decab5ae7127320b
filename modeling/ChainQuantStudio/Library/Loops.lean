import Mathlib.Tactic.Common

/-!
# Loops of a generator

A turn of a loop fails, ends the loop, or yields some values and goes on from another state. What a
loop yields is defined where it ends: a loop that fails or turns forever yields nothing here.
-/

namespace ChainQuantStudio.Loops

variable {σ ε β : Type*}

abbrev Turn (σ ε β : Type*) := σ → Except ε (Option (List β × σ))

inductive Yields (turn : Turn σ ε β) : σ → List β → Prop
  | stop {s : σ} (h : turn s = .ok none) : Yields turn s []
  | next {s s' : σ} {out rest : List β} (h : turn s = .ok (some (out, s')))
      (hrest : Yields turn s' rest) : Yields turn s (out ++ rest)

variable {turn : Turn σ ε β}

theorem Yields.unique {s : σ} {xs ys : List β} (hxs : Yields turn s xs) (hys : Yields turn s ys) :
    xs = ys := by
  induction hxs generalizing ys with
  | stop h =>
    cases hys with
    | stop => rfl
    | next h' => cases h.symm.trans h'
  | next h hrest ih =>
    cases hys with
    | stop h' => cases h.symm.trans h'
    | next h' hrest' =>
      cases h.symm.trans h'
      rw [ih hrest']

theorem yields_of_measure (inv : σ → Prop) (measure : σ → ℕ) (collect : ℕ → σ → List β)
    (hturn : ∀ n s, inv s → measure s ≤ n → (turn s = .ok none ∧ collect n s = []) ∨
      ∃ m out s', n = m + 1 ∧ turn s = .ok (some (out, s')) ∧ collect n s = out ++ collect m s' ∧
        inv s' ∧ measure s' < measure s)
    {n : ℕ} {s : σ} (hs : inv s) (hn : measure s ≤ n) : Yields turn s (collect n s) := by
  induction n generalizing s with
  | zero =>
    rcases hturn 0 s hs hn with ⟨hstop, hnil⟩ | ⟨m, out, s', hzero, -⟩
    · rw [hnil]
      exact .stop hstop
    · cases hzero
  | succ n ih =>
    rcases hturn (n + 1) s hs hn with ⟨hstop, hnil⟩ | ⟨m, out, s', hsucc, hnext, hout, hs', hless⟩
    · rw [hnil]
      exact .stop hstop
    · cases hsucc
      rw [hout]
      exact .next hnext (ih hs' (by omega))

end ChainQuantStudio.Loops
