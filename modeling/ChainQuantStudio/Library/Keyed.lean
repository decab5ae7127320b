import Mathlib.Data.List.Nodup
import Mathlib.Tactic.Common

/-!
# Tables with unique keys

An ordered list of records of which no two have the same key. Records are changed in place, keys
never change, and a record is added only under a new key, so a key names one record for good.
-/

namespace ChainQuantStudio

structure Keyed {κ α : Type*} (key : α → κ) where
  entries : List α
  unique : (entries.map key).Nodup

namespace Keyed

variable {κ α : Type*} {key : α → κ}

instance : Membership α (Keyed key) := ⟨fun t a => a ∈ t.entries⟩

theorem mem_def {t : Keyed key} {a : α} : a ∈ t ↔ a ∈ t.entries := Iff.rfl

def empty : Keyed key := ⟨[], List.nodup_nil⟩

@[simp] theorem not_mem_empty (a : α) : a ∉ (empty : Keyed key) := List.not_mem_nil

def mapEntries (t : Keyed key) (f : α → α) (hf : ∀ a, key (f a) = key a) : Keyed key :=
  ⟨t.entries.map f, by
    have h : key ∘ f = key := funext hf
    rw [List.map_map, h]
    exact t.unique⟩

@[simp] theorem mem_mapEntries {t : Keyed key} {f : α → α} {hf : ∀ a, key (f a) = key a} {b : α} :
    b ∈ t.mapEntries f hf ↔ ∃ a ∈ t, f a = b := List.mem_map

theorem eq_of_mem {t : Keyed key} {a b : α} (ha : a ∈ t) (hb : b ∈ t) (h : key a = key b) :
    a = b := List.inj_on_of_nodup_map t.unique ha hb h

section Find

variable [DecidableEq κ]

def find (t : Keyed key) (k : κ) : Option α := t.entries.find? fun a => key a = k

theorem find_eq_some {t : Keyed key} {k : κ} {a : α} : t.find k = some a ↔ a ∈ t ∧ key a = k := by
  constructor
  · intro h
    exact ⟨List.mem_of_find?_eq_some h, by simpa using List.find?_some h⟩
  · rintro ⟨ha, rfl⟩
    cases h : t.find (key a) with
    | none =>
      have hall := List.find?_eq_none.mp h a ha
      simp at hall
    | some b =>
      have hb : b ∈ t := List.mem_of_find?_eq_some h
      have hk : key b = key a := by simpa using List.find?_some h
      rw [eq_of_mem hb ha hk]

theorem find_eq_none {t : Keyed key} {k : κ} : t.find k = none ↔ ∀ a ∈ t, key a ≠ k := by
  simp [find, mem_def]

theorem find_mem {t : Keyed key} {a : α} (ha : a ∈ t) : t.find (key a) = some a :=
  find_eq_some.mpr ⟨ha, rfl⟩

def modify (t : Keyed key) (k : κ) (f : α → α) (hf : ∀ a, key (f a) = key a) : Keyed key :=
  t.mapEntries (fun a => if key a = k then f a else a) (by intro a; split <;> simp [hf])

theorem mem_modify {t : Keyed key} {k : κ} {f : α → α} {hf : ∀ a, key (f a) = key a} {b : α} :
    b ∈ t.modify k f hf ↔ ∃ a ∈ t, (if key a = k then f a else a) = b := mem_mapEntries

theorem mem_modify_of_find {t : Keyed key} {k : κ} {f : α → α} {hf : ∀ a, key (f a) = key a}
    {a b : α} (ha : t.find k = some a) :
    b ∈ t.modify k f hf ↔ b = f a ∨ (b ∈ t ∧ key b ≠ k) := by
  obtain ⟨hat, hka⟩ := find_eq_some.mp ha
  rw [mem_modify]
  constructor
  · rintro ⟨c, hc, hb⟩
    by_cases hk : key c = k
    · have hca : c = a := eq_of_mem hc hat (hk.trans hka.symm)
      rw [if_pos hk] at hb
      left
      rw [← hb, hca]
    · rw [if_neg hk] at hb
      right
      rw [← hb]
      exact ⟨hc, hk⟩
  · rintro (hb | ⟨hb, hk⟩)
    · exact ⟨a, hat, by rw [if_pos hka, hb]⟩
    · exact ⟨b, hb, by rw [if_neg hk]⟩

theorem find_mapEntries (t : Keyed key) (f : α → α) (hf : ∀ a, key (f a) = key a) (k : κ) :
    (t.mapEntries f hf).find k = (t.find k).map f := by
  have h : ((fun a => decide (key a = k)) ∘ f) = fun a => decide (key a = k) := by
    funext a
    simp [hf]
  simp only [find, mapEntries, List.find?_map, h]

@[simp] theorem find_modify_self (t : Keyed key) (k : κ) (f : α → α)
    (hf : ∀ a, key (f a) = key a) : (t.modify k f hf).find k = (t.find k).map f := by
  rw [modify, find_mapEntries]
  cases h : t.find k with
  | none => rfl
  | some a => simp [(find_eq_some.mp h).2]

@[simp] theorem find_modify_of_ne {t : Keyed key} {k k' : κ} {f : α → α}
    {hf : ∀ a, key (f a) = key a} (h : k' ≠ k) : (t.modify k f hf).find k' = t.find k' := by
  rw [modify, find_mapEntries]
  cases hf' : t.find k' with
  | none => rfl
  | some a =>
    have hk : key a ≠ k := by rw [(find_eq_some.mp hf').2]; exact h
    simp [hk]

def append (t : Keyed key) (a : α) (h : t.find (key a) = none) : Keyed key :=
  ⟨t.entries ++ [a], by
    have hn := find_eq_none.mp h
    rw [List.map_append, List.nodup_append]
    refine ⟨t.unique, by simp, ?_⟩
    intro k hk k' hk'
    obtain ⟨b, hb, rfl⟩ := List.mem_map.mp hk
    rw [List.map_singleton, List.mem_singleton] at hk'
    rw [hk']
    exact hn b hb⟩

@[simp] theorem mem_append {t : Keyed key} {a b : α} {h : t.find (key a) = none} :
    b ∈ t.append a h ↔ b ∈ t ∨ b = a := by
  simp [append, mem_def]

/-- Put a record in the place of the one with its key, or at the end. -/
def upsert (t : Keyed key) (a : α) : Keyed key :=
  if h : t.find (key a) = none then t.append a h
  else ⟨t.entries.map fun b => if key b = key a then a else b, by
    have hkey : (key ∘ fun b => if key b = key a then a else b) = key := by
      funext b
      by_cases hb : key b = key a
      · simp [hb]
      · simp [hb]
    rw [List.map_map, hkey]
    exact t.unique⟩

theorem mem_upsert {t : Keyed key} {a b : α} :
    b ∈ t.upsert a ↔ b = a ∨ (b ∈ t ∧ key b ≠ key a) := by
  unfold upsert
  split
  case isTrue h =>
    have hn := find_eq_none.mp h
    rw [mem_append]
    constructor
    · rintro (hb | hb)
      · exact .inr ⟨hb, hn b hb⟩
      · exact .inl hb
    · rintro (hb | hb)
      · exact .inr hb
      · exact .inl hb.1
  case isFalse h =>
    obtain ⟨c, hc⟩ := Option.ne_none_iff_exists'.mp h
    obtain ⟨hct, hck⟩ := find_eq_some.mp hc
    simp only [mem_def, List.mem_map]
    constructor
    · rintro ⟨d, hd, rfl⟩
      by_cases hk : key d = key a
      · simp [hk]
      · right
        simpa [hk] using hd
    · rintro (rfl | ⟨hb, hk⟩)
      · exact ⟨c, hct, by simp [hck]⟩
      · exact ⟨b, hb, by simp [hk]⟩

theorem find_upsert_self (t : Keyed key) (a : α) : (t.upsert a).find (key a) = some a :=
  find_eq_some.mpr ⟨mem_upsert.mpr (.inl rfl), rfl⟩

theorem find_upsert_of_ne {t : Keyed key} {a : α} {k : κ} (h : k ≠ key a) :
    (t.upsert a).find k = t.find k := by
  cases hk : t.find k with
  | none =>
    rw [find_eq_none] at hk ⊢
    intro b hb
    rcases mem_upsert.mp hb with rfl | ⟨hb, -⟩
    · exact h.symm
    · exact hk b hb
  | some b =>
    obtain ⟨hb, rfl⟩ := find_eq_some.mp hk
    exact find_eq_some.mpr ⟨mem_upsert.mpr (.inr ⟨hb, h⟩), rfl⟩

end Find

end Keyed

end ChainQuantStudio
