import Mathlib.Data.List.Chain
import Mathlib.Data.List.Nodup
import Mathlib.Data.List.Perm.Subperm

/-!
# Runs of consecutive numbers

In a list of increasing numbers the first `size` entries are consecutive exactly when the list
holds every one of the `size` numbers from its first entry on.
-/

namespace ChainQuantStudio.Consecutive

variable {first size : ℕ} {rest : List ℕ}

theorem succ_head {second : ℕ} (h : (first :: second :: rest).Pairwise (· < ·))
    (hmem : first + 1 ∈ first :: second :: rest) : second = first + 1 := by
  have hlt : first < second := (List.pairwise_cons.mp h).1 second List.mem_cons_self
  rcases List.mem_cons.mp hmem with heq | hmem
  · omega
  rcases List.mem_cons.mp hmem with heq | hmem
  · exact heq.symm
  · have := (List.pairwise_cons.mp (List.pairwise_cons.mp h).2).1 _ hmem
    omega

theorem isChain_take_iff (h : (first :: rest).Pairwise (· < ·)) :
    (∀ i < size, first + i ∈ first :: rest) ↔
      size ≤ (first :: rest).length ∧
        ((first :: rest).take size).IsChain fun a b => b = a + 1 := by
  induction size generalizing first rest with
  | zero => simp
  | succ size ih =>
    cases rest with
    | nil =>
      cases size with
      | zero => simp
      | succ size =>
        refine iff_of_false (fun hall => ?_) fun hlength => ?_
        · have := List.mem_singleton.mp (hall 1 (by omega))
          omega
        · have := hlength.1
          simp at this
    | cons second rest =>
      have htail : (second :: rest).Pairwise (· < ·) := (List.pairwise_cons.mp h).2
      cases size with
      | zero => simp
      | succ size =>
        rw [List.take_succ_cons, List.take_succ_cons, List.isChain_cons_cons]
        rw [← List.take_succ_cons, List.length_cons]
        constructor
        · intro hall
          have hsecond : second = first + 1 := succ_head h (hall 1 (by omega))
          have hnext : ∀ i < size + 1, second + i ∈ second :: rest := by
            intro i hi
            have hmem := hall (i + 1) (by omega)
            have heq : first + (i + 1) = second + i := by omega
            rw [heq] at hmem
            refine (List.mem_cons.mp hmem).resolve_left ?_
            omega
          obtain ⟨hlength, hchain⟩ := (ih htail).mp hnext
          exact ⟨by omega, hsecond, hchain⟩
        · rintro ⟨hlength, hsecond, hchain⟩
          have hnext := (ih htail).mpr ⟨by omega, hchain⟩
          intro i hi
          cases i with
          | zero => exact List.mem_cons_self
          | succ i =>
            have heq : first + (i + 1) = second + i := by omega
            rw [heq]
            exact List.mem_cons_of_mem _ (hnext i (by omega))

theorem length_le_of_forall_le {numbers : List ℕ} {bound : ℕ} (h : numbers.Pairwise (· < ·))
    (hle : ∀ n ∈ numbers, n ≤ bound) : numbers.length ≤ bound + 1 := by
  have hnodup : numbers.Nodup := h.imp fun hlt => hlt.ne
  have hsub : numbers ⊆ List.range (bound + 1) := by
    intro n hn
    have := hle n hn
    exact List.mem_range.mpr (by omega)
  simpa using (List.subperm_of_subset hnodup hsub).length_le

end ChainQuantStudio.Consecutive
