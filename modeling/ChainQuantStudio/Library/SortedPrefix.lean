import Mathlib.Data.List.Dedup
import Mathlib.Data.List.Sort
import Mathlib.Order.Bounds.Basic

/-!
# Prefixes of a sorted list

When the last element of a prefix is already past everything a test accepts, the rest of the list
holds nothing that the test accepts, and filtering the prefix is filtering the list.
-/

namespace ChainQuantStudio.SortedPrefix

variable {α : Type*} {r : α → α → Prop} {l : List α} {k : ℕ}

theorem rel_getLast_take {last y : α} (hl : l.Pairwise r) (hlast : last ∈ (l.take k).getLast?)
    (hy : y ∈ l.drop k) : r last y := by
  rw [← List.take_append_drop k l] at hl
  exact (List.pairwise_append.mp hl).2.2 last (List.mem_of_mem_getLast? hlast) y hy

theorem filter_take_eq_filter {p : α → Bool} {last : α} (hl : l.Pairwise r)
    (hlast : last ∈ (l.take k).getLast?) (hp : ∀ y, r last y → p y = false) :
    (l.take k).filter p = l.filter p := by
  have hrest : (l.drop k).filter p = [] := by
    apply List.filter_eq_nil_iff.mpr
    intro y hy
    simp [hp y (rel_getLast_take hl hlast hy)]
  calc
    (l.take k).filter p = (l.take k).filter p ++ (l.drop k).filter p := by rw [hrest]; simp
    _ = l.filter p := by rw [← List.filter_append, List.take_append_drop]

theorem dropWhile_eq_filter {p : α → Bool} (h : l.Pairwise fun a b => p b = true → p a = true) :
    l.dropWhile p = l.filter fun a => !p a := by
  induction l with
  | nil => rfl
  | cons a l ih =>
    obtain ⟨hfirst, hrest⟩ := List.pairwise_cons.mp h
    cases hp : p a with
    | true => rw [List.dropWhile_cons_of_pos hp, ih hrest, List.filter_cons_of_neg (by simp [hp])]
    | false =>
      rw [List.dropWhile_cons_of_neg (by simp [hp])]
      refine (List.filter_eq_self.mpr fun b hb => ?_).symm
      rcases List.mem_cons.mp hb with rfl | hmem
      · simp [hp]
      · have hnot : ¬ p b = true := fun hpb => by simp [hfirst b hmem hpb] at hp
        simpa using hnot

theorem pairwise_lt_insertionSort {β : Type*} [LinearOrder β] (key : α → β)
    (hne : l.Pairwise fun a b => key a ≠ key b) :
    (l.insertionSort fun a b => key a ≤ key b).Pairwise fun a b => key a < key b := by
  have : Std.Total fun a b : α => key a ≤ key b := ⟨fun a b => le_total _ _⟩
  have : IsTrans α fun a b => key a ≤ key b := ⟨fun _ _ _ hab hbc => le_trans hab hbc⟩
  have hle := List.pairwise_insertionSort (fun a b => key a ≤ key b) l
  have hsort := List.perm_insertionSort (fun a b => key a ≤ key b) l
  have hne' := (hsort.pairwise_iff fun h => h.symm).mpr hne
  exact hle.imp₂ (fun _ _ h hn => lt_of_le_of_ne h hn) hne'

theorem getLast?_insertionSort {β : Type*} [LinearOrder β] {entries : List β} {last : β} :
    (entries.insertionSort (· ≤ ·)).getLast? = some last ↔ IsGreatest { e | e ∈ entries } last := by
  have hperm := List.perm_insertionSort (· ≤ ·) entries
  have hgreatest : ∀ other, (entries.insertionSort (· ≤ ·)).getLast? = some other →
      IsGreatest { e | e ∈ entries } other := by
    intro other hother
    refine ⟨hperm.mem_iff.mp (List.mem_of_getLast? hother), fun e he => ?_⟩
    have hsorted := List.pairwise_insertionSort (· ≤ ·) entries
    obtain ⟨front, hfront⟩ := List.getLast?_eq_some_iff.mp hother
    rw [hfront] at hsorted
    have hmem := hperm.mem_iff.mpr he
    rw [hfront] at hmem
    rcases List.mem_append.mp hmem with hmem | hmem
    · exact (List.pairwise_append.mp hsorted).2.2 e hmem other (List.mem_singleton_self _)
    · exact (List.mem_singleton.mp hmem).le
  refine ⟨hgreatest last, fun h => ?_⟩
  have hne : entries.insertionSort (· ≤ ·) ≠ [] :=
    List.ne_nil_of_mem (hperm.mem_iff.mpr h.1)
  obtain ⟨other, hother⟩ := Option.isSome_iff_exists.mp (List.getLast?_isSome.mpr hne)
  rw [hother, (hgreatest other hother).unique h]

def sortedSet {β : Type*} [LinearOrder β] (entries : List β) : List β :=
  entries.dedup.insertionSort (· ≤ ·)

theorem sortedSet_pairwise {β : Type*} [LinearOrder β] (entries : List β) :
    (sortedSet entries).Pairwise (· < ·) :=
  pairwise_lt_insertionSort id (List.nodup_dedup entries)

@[simp] theorem mem_sortedSet {β : Type*} [LinearOrder β] {entries : List β} {entry : β} :
    entry ∈ sortedSet entries ↔ entry ∈ entries := by
  unfold sortedSet
  rw [(List.perm_insertionSort _ _).mem_iff, List.mem_dedup]

end ChainQuantStudio.SortedPrefix
