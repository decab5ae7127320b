import Mathlib.Data.Set.Function
import Mathlib.Logic.Function.Basic

/-!
# Maps kept up to date by patches

A patch is a list of keyed values written in order. `Carries patch m m'` is the contract under
which writing the patch over `m` gives `m'`: its values are those of `m'`, and it names every key
at which the two maps differ. A replica that writes patches of different versions holds at each key
what the version had that named the key last.
-/

namespace ChainQuantStudio.VersionedMap

variable {κ ν : Type*} [DecidableEq κ]

def write (m : κ → ν) (patch : List (κ × ν)) : κ → ν :=
  patch.foldl (fun m entry => Function.update m entry.1 entry.2) m

def keys (patch : List (κ × ν)) : Set κ := {k | ∃ entry ∈ patch, entry.1 = k}

structure Carries (patch : List (κ × ν)) (m m' : κ → ν) : Prop where
  lists : ∀ entry ∈ patch, entry.2 = m' entry.1
  names : ∀ k ∉ keys patch, m k = m' k

@[simp] theorem write_nil (m : κ → ν) : write m [] = m := rfl

@[simp] theorem write_cons (m : κ → ν) (entry : κ × ν) (patch : List (κ × ν)) :
    write m (entry :: patch) = write (Function.update m entry.1 entry.2) patch := rfl

omit [DecidableEq κ] in
theorem mem_keys_cons {entry : κ × ν} {patch : List (κ × ν)} {k : κ} :
    k ∈ keys (entry :: patch) ↔ entry.1 = k ∨ k ∈ keys patch := by
  simp [keys]

theorem write_of_not_mem {m : κ → ν} {patch : List (κ × ν)} {k : κ} (h : k ∉ keys patch) :
    write m patch k = m k := by
  induction patch generalizing m with
  | nil => rfl
  | cons entry patch ih =>
    rw [mem_keys_cons, not_or] at h
    rw [write_cons, ih h.2, Function.update_of_ne (Ne.symm h.1)]

theorem write_of_mem {m m' : κ → ν} {patch : List (κ × ν)} {k : κ} (hk : k ∈ keys patch)
    (h : ∀ entry ∈ patch, entry.2 = m' entry.1) : write m patch k = m' k := by
  induction patch generalizing m with
  | nil => simp [keys] at hk
  | cons entry patch ih =>
    have ht : ∀ e ∈ patch, e.2 = m' e.1 := fun e he => h e (by simp [he])
    rw [write_cons]
    by_cases hin : k ∈ keys patch
    · exact ih hin ht
    · have hkey : entry.1 = k := (mem_keys_cons.mp hk).resolve_right hin
      rw [write_of_not_mem hin, ← hkey, Function.update_self]
      exact h entry (by simp)

theorem Carries.write_eq {m m' : κ → ν} {patch : List (κ × ν)} (h : Carries patch m m') :
    write m patch = m' := by
  funext k
  by_cases hin : k ∈ keys patch
  · exact write_of_mem hin h.lists
  · rw [write_of_not_mem hin]
    exact h.names k hin

variable {ι : Type*}

def nameAt (named : κ → Option ι) (version : ι) (patch : List (κ × ν)) : κ → Option ι := fun k =>
  if k ∈ patch.map Prod.fst then some version else named k

def recalled (absent : ν) (versions : ι → κ → ν) (named : κ → Option ι) : κ → ν := fun k =>
  (named k).elim absent (versions · k)

omit [DecidableEq κ] in
theorem mem_keys_iff {patch : List (κ × ν)} {k : κ} : k ∈ keys patch ↔ k ∈ patch.map Prod.fst := by
  simp [keys]

theorem nameAt_of_mem {named : κ → Option ι} {version : ι} {patch : List (κ × ν)} {k : κ}
    (h : k ∈ keys patch) : nameAt named version patch k = some version :=
  if_pos (mem_keys_iff.mp h)

theorem nameAt_of_not_mem {named : κ → Option ι} {version : ι} {patch : List (κ × ν)} {k : κ}
    (h : k ∉ keys patch) : nameAt named version patch k = named k :=
  if_neg fun hk => h (mem_keys_iff.mpr hk)

theorem write_recalled (versions : ι → κ → ν) {absent : ν} {named : κ → Option ι} {version : ι}
    {patch : List (κ × ν)} (h : ∀ entry ∈ patch, entry.2 = versions version entry.1) :
    write (recalled absent versions named) patch =
      recalled absent versions (nameAt named version patch) := by
  funext k
  by_cases hk : k ∈ keys patch
  · rw [write_of_mem hk h, recalled, nameAt_of_mem hk]
    rfl
  · rw [write_of_not_mem hk, recalled, recalled, nameAt_of_not_mem hk]

theorem Carries.recalled_current (versions : ι → κ → ν) {named : κ → Option ι} {before after : ι}
    {patch : List (κ × ν)} (h : Carries patch (versions before) (versions after))
    (hcurrent : ∀ k version, named k = some version → versions version k = versions before k) :
    ∀ k version, nameAt named after patch k = some version →
      versions version k = versions after k := by
  intro k version hk
  by_cases hin : k ∈ keys patch
  · rw [nameAt_of_mem hin] at hk
    rw [← Option.some.inj hk]
  · rw [nameAt_of_not_mem hin] at hk
    rw [hcurrent k version hk, h.names k hin]

end ChainQuantStudio.VersionedMap
