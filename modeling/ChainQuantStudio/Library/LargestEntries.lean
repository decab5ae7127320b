import ChainQuantStudio.Library.SortedPrefix

/-!
# The largest entries of a list

Among entries with distinct keys the `n` largest, in the order of their keys, are what is left of
the sorted list after all but `n` entries are dropped. They depend on the entries alone and not on
their order.
-/

namespace ChainQuantStudio.LargestEntries

variable {α β : Type*} [LinearOrder β] {key : α → β} {l l' : List α} {n : ℕ} {w : List α}

/-- The `n` entries of `l` with the largest keys, in the order of the keys. -/
structure Largest (key : α → β) (l : List α) (n : ℕ) (w : List α) : Prop where
  length_eq : w.length = n
  ordered : w.Pairwise fun a b => key a < key b
  mem : ∀ a ∈ w, a ∈ l
  above : ∀ a ∈ l, a ∉ w → ∀ b ∈ w, key a < key b

/-- Sorting, and keeping the last `n` entries. -/
def largest (key : α → β) (l : List α) (n : ℕ) : List α :=
  let sorted := l.insertionSort fun a b => key a ≤ key b
  sorted.drop (sorted.length - n)

theorem nodup_of_ordered (h : w.Pairwise fun a b => key a < key b) : w.Nodup :=
  h.imp fun hlt heq => hlt.ne (congrArg key heq)

theorem eq_of_ordered_perm (hl : l.Pairwise fun a b => key a < key b)
    (hl' : l'.Pairwise fun a b => key a < key b) (hperm : l.Perm l') : l = l' :=
  hperm.eq_of_pairwise (fun _ _ _ _ hab hba => absurd hba hab.asymm) hl hl'

theorem insertionSort_eq_of_perm (hne : l.Pairwise fun a b => key a ≠ key b) (hperm : l.Perm l') :
    (l.insertionSort fun a b => key a ≤ key b) = l'.insertionSort fun a b => key a ≤ key b := by
  have hne' : l'.Pairwise fun a b => key a ≠ key b := (hperm.pairwise_iff fun h => h.symm).mp hne
  refine eq_of_ordered_perm (SortedPrefix.pairwise_lt_insertionSort key hne)
    (SortedPrefix.pairwise_lt_insertionSort key hne') ?_
  exact (List.perm_insertionSort _ l).trans (hperm.trans (List.perm_insertionSort _ l').symm)

theorem Largest.le_length (h : Largest key l n w) : n ≤ l.length := by
  have hsub : w.Subperm l := List.subperm_of_subset (nodup_of_ordered h.ordered) h.mem
  rw [← h.length_eq]
  exact hsub.length_le

theorem Largest.insertionSort_eq (hne : l.Pairwise fun a b => key a ≠ key b)
    (h : Largest key l n w) : ∃ older, (l.insertionSort fun a b => key a ≤ key b) = older ++ w := by
  classical
  have hl : l.Nodup := hne.imp fun hkeys heq => hkeys (congrArg key heq)
  have hsmaller : (l.filter fun a => a ∉ w).Pairwise fun a b => key a ≠ key b := hne.filter _
  refine ⟨(l.filter fun a => a ∉ w).insertionSort fun a b => key a ≤ key b, ?_⟩
  refine eq_of_ordered_perm (SortedPrefix.pairwise_lt_insertionSort key hne) ?_ ?_
  · refine List.pairwise_append.mpr
      ⟨SortedPrefix.pairwise_lt_insertionSort key hsmaller, h.ordered, ?_⟩
    intro a ha b hb
    have ha : a ∈ l ∧ a ∉ w := by
      simpa using (List.perm_insertionSort _ _).mem_iff.mp ha
    exact h.above a ha.1 ha.2 b hb
  · have hw : (l.filter fun a => a ∈ w).Perm w := by
      refine (List.perm_ext_iff_of_nodup (hl.filter _) (nodup_of_ordered h.ordered)).mpr ?_
      intro a
      simpa using h.mem a
    calc
      (l.insertionSort fun a b => key a ≤ key b).Perm l := List.perm_insertionSort _ l
      l.Perm ((l.filter fun a => a ∉ w) ++ l.filter fun a => a ∈ w) := by
        simpa using (List.filter_append_perm (fun a => a ∉ w) l).symm
      ((l.filter fun a => a ∉ w) ++ l.filter fun a => a ∈ w).Perm _ :=
        (List.perm_insertionSort _ _).symm.append hw

theorem largest_iff (hne : l.Pairwise fun a b => key a ≠ key b) :
    Largest key l n w ↔ n ≤ l.length ∧ w = largest key l n := by
  constructor
  · intro h
    refine ⟨h.le_length, ?_⟩
    obtain ⟨older, hsorted⟩ := h.insertionSort_eq hne
    have hdrop : older.length + w.length - n = older.length := by
      rw [h.length_eq]
      omega
    rw [largest, hsorted, List.length_append, hdrop, List.drop_left]
  · rintro ⟨hn, rfl⟩
    have hsorted := SortedPrefix.pairwise_lt_insertionSort key hne
    have hperm := List.perm_insertionSort (fun a b => key a ≤ key b) l
    have hlength := hperm.length_eq
    unfold largest
    generalize (l.insertionSort fun a b => key a ≤ key b) = sorted at hsorted hperm hlength
    refine ⟨?_, hsorted.sublist (List.drop_sublist _ _), ?_, ?_⟩
    · rw [List.length_drop]
      omega
    · intro a ha
      exact hperm.mem_iff.mp (List.mem_of_mem_drop ha)
    · intro a ha hout b hb
      have ha' : a ∈ sorted.take (sorted.length - n) ++ sorted.drop (sorted.length - n) := by
        rw [List.take_append_drop]
        exact hperm.mem_iff.mpr ha
      rw [← List.take_append_drop (sorted.length - n) sorted] at hsorted
      have holder := (List.mem_append.mp ha').resolve_right hout
      exact (List.pairwise_append.mp hsorted).2.2 a holder b hb

theorem largest_eq_of_perm (hne : l.Pairwise fun a b => key a ≠ key b) (hperm : l.Perm l') :
    largest key l n = largest key l' n := by
  unfold largest
  rw [insertionSort_eq_of_perm hne hperm]

end ChainQuantStudio.LargestEntries
