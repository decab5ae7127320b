import Mathlib.Data.List.Induction
import Mathlib.Data.List.Nodup
import Mathlib.Tactic.Common

/-!
# Dictionaries in insertion order

An assignment to a key that a dictionary has changes the value in its place; a new key goes to the
end. A comprehension assigns the items of a list one after another, so of two items with one key
the later counts.
-/

namespace ChainQuantStudio.Dict

variable {κ α : Type*} [DecidableEq κ]

def set : List (κ × α) → κ → α → List (κ × α)
  | [], key, value => [(key, value)]
  | entry :: rest, key, value =>
    if entry.1 = key then (key, value) :: rest else entry :: set rest key value

def get? (entries : List (κ × α)) (key : κ) : Option α :=
  (entries.find? fun entry => entry.1 = key).map Prod.snd

@[simp] theorem get?_nil (key : κ) : get? ([] : List (κ × α)) key = none := rfl

theorem get?_cons (entry : κ × α) (rest : List (κ × α)) (key : κ) :
    get? (entry :: rest) key = if entry.1 = key then some entry.2 else get? rest key := by
  by_cases h : entry.1 = key
  · simp [get?, h]
  · simp [get?, h]

theorem get?_set (entries : List (κ × α)) (key key' : κ) (value : α) :
    get? (set entries key value) key' = if key = key' then some value else get? entries key' := by
  induction entries with
  | nil => simp [set, get?_cons]
  | cons entry rest ih =>
    by_cases h : entry.1 = key
    · simp only [set, if_pos h, get?_cons]
      by_cases hkey : key = key'
      · simp [hkey]
      · simp [hkey, h]
    · simp only [set, if_neg h, get?_cons, ih]
      by_cases hentry : entry.1 = key'
      · have hne : key ≠ key' := fun heq => h (hentry.trans heq.symm)
        simp [hentry, hne]
      · simp [hentry]

theorem get?_map_value {β : Type*} (f : α → β) (entries : List (κ × α)) (key : κ) :
    get? (entries.map fun entry => (entry.1, f entry.2)) key = (get? entries key).map f := by
  induction entries with
  | nil => rfl
  | cons entry rest ih =>
    rw [List.map_cons, get?_cons, get?_cons, ih]
    split_ifs <;> rfl

theorem set_map_value {β : Type*} (f : α → β) (entries : List (κ × α)) (key : κ) (value : α) :
    (set entries key value).map (fun entry => (entry.1, f entry.2)) =
      set (entries.map fun entry => (entry.1, f entry.2)) key (f value) := by
  induction entries with
  | nil => rfl
  | cons entry rest ih =>
    rw [set, List.map_cons, set]
    split_ifs
    · rfl
    · rw [List.map_cons, ih]

theorem mem_set {entries : List (κ × α)} {key : κ} {value : α} {entry : κ × α}
    (h : entry ∈ set entries key value) : entry ∈ entries ∨ entry = (key, value) := by
  induction entries with
  | nil => exact .inr (List.mem_singleton.mp h)
  | cons head rest ih =>
    by_cases hkey : head.1 = key
    · rw [set, if_pos hkey, List.mem_cons] at h
      rcases h with h | h
      · exact .inr h
      · exact .inl (List.mem_cons_of_mem _ h)
    · rw [set, if_neg hkey, List.mem_cons] at h
      rcases h with h | h
      · exact .inl (h ▸ List.mem_cons_self)
      · exact (ih h).imp_left (List.mem_cons_of_mem _)

theorem mem_set_self (entries : List (κ × α)) (key : κ) (value : α) :
    (key, value) ∈ set entries key value := by
  induction entries with
  | nil => exact List.mem_singleton_self _
  | cons head rest ih =>
    rw [set]
    split
    · exact List.mem_cons_self
    · exact List.mem_cons_of_mem _ ih

theorem mem_set_of_ne {entries : List (κ × α)} {key : κ} {entry : κ × α} (h : entry ∈ entries)
    (hne : entry.1 ≠ key) (value : α) : entry ∈ set entries key value := by
  induction entries with
  | nil => cases h
  | cons head rest ih =>
    rw [set]
    split
    · rename_i hkey
      rcases List.mem_cons.mp h with rfl | h
      · exact absurd hkey hne
      · exact List.mem_cons_of_mem _ h
    · rcases List.mem_cons.mp h with rfl | h
      · exact List.mem_cons_self
      · exact List.mem_cons_of_mem _ (ih h)

theorem mem_of_get? {entries : List (κ × α)} {key : κ} {value : α}
    (h : get? entries key = some value) : (key, value) ∈ entries := by
  obtain ⟨entry, hfind, rfl⟩ := Option.map_eq_some_iff.mp h
  have hkey := List.find?_some hfind
  simp only [decide_eq_true_eq] at hkey
  rw [← hkey]
  exact List.mem_of_find?_eq_some hfind

theorem get?_eq_none {entries : List (κ × α)} {key : κ} :
    get? entries key = none ↔ ∀ entry ∈ entries, entry.1 ≠ key := by
  simp [get?]

theorem nodup_set {entries : List (κ × α)} (h : (entries.map Prod.fst).Nodup) (key : κ)
    (value : α) : ((set entries key value).map Prod.fst).Nodup := by
  induction entries with
  | nil => simp [set]
  | cons head rest ih =>
    rw [List.map_cons, List.nodup_cons] at h
    by_cases hkey : head.1 = key
    · rw [set, if_pos hkey, List.map_cons, List.nodup_cons, ← hkey]
      exact h
    · rw [set, if_neg hkey, List.map_cons, List.nodup_cons]
      refine ⟨fun hmem => ?_, ih h.2⟩
      obtain ⟨entry, hentry, hfst⟩ := List.mem_map.mp hmem
      rcases mem_set hentry with hrest | rfl
      · exact h.1 (List.mem_map.mpr ⟨entry, hrest, hfst⟩)
      · exact hkey hfst.symm

theorem set_of_not_mem {entries : List (κ × α)} {key : κ} (h : key ∉ entries.map Prod.fst)
    (value : α) : set entries key value = entries ++ [(key, value)] := by
  induction entries with
  | nil => rfl
  | cons head rest ih =>
    rw [List.map_cons, List.mem_cons, not_or] at h
    rw [set, if_neg (Ne.symm h.1), ih h.2, List.cons_append]

theorem keys_set_of_mem {entries : List (κ × α)} {key : κ} (h : key ∈ entries.map Prod.fst)
    (value : α) : (set entries key value).map Prod.fst = entries.map Prod.fst := by
  induction entries with
  | nil => cases h
  | cons head rest ih =>
    rw [set]
    split
    · rename_i hkey
      rw [List.map_cons, List.map_cons, hkey]
    · rename_i hkey
      rw [List.map_cons, List.mem_cons] at h
      rw [List.map_cons, List.map_cons, ih (h.resolve_left (Ne.symm hkey))]

theorem isSome_get?_iff {entries : List (κ × α)} {key : κ} :
    (get? entries key).isSome = true ↔ key ∈ entries.map Prod.fst := by
  rw [Option.isSome_iff_ne_none, ne_eq, get?_eq_none]
  simp

theorem get?_of_not_mem_keys {entries : List (κ × α)} {key : κ}
    (h : key ∉ entries.map Prod.fst) : get? entries key = none := by
  rw [← Option.not_isSome_iff_eq_none]
  exact fun hsome => h (isSome_get?_iff.mp hsome)

theorem get?_of_mem {entries : List (κ × α)} (h : (entries.map Prod.fst).Nodup) {entry : κ × α}
    (hentry : entry ∈ entries) : get? entries entry.1 = some entry.2 := by
  induction entries with
  | nil => cases hentry
  | cons head rest ih =>
    rw [List.map_cons, List.nodup_cons] at h
    rw [get?_cons]
    rcases List.mem_cons.mp hentry with rfl | hrest
    · rw [if_pos rfl]
    · rw [if_neg, ih h.2 hrest]
      intro heq
      exact h.1 (heq ▸ List.mem_map_of_mem hrest)

theorem get?_filter {entries : List (κ × α)} (h : (entries.map Prod.fst).Nodup)
    (p : κ × α → Bool) (key : κ) :
    get? (entries.filter p) key = (get? entries key).filter fun value => p (key, value) := by
  induction entries with
  | nil => rfl
  | cons head rest ih =>
    rw [List.map_cons, List.nodup_cons] at h
    obtain ⟨name, value⟩ := head
    by_cases hkey : name = key
    · subst hkey
      have hrest : get? (rest.filter p) name = none := by
        apply get?_eq_none.mpr
        intro entry hentry hfst
        have hold : entry ∈ rest := List.mem_of_mem_filter hentry
        exact h.1 (List.mem_map.mpr ⟨entry, hold, hfst⟩)
      by_cases hp : p (name, value) = true
      · simp [hp, get?_cons, Option.filter]
      · simp [hp, get?_cons, Option.filter, hrest]
    · by_cases hp : p (name, value) = true
      · simp [hp, get?_cons, hkey, ih h.2]
      · simp [hp, get?_cons, hkey, ih h.2]

/-- `{key(item): item for item in items}`; `none` where a key raises. -/
def ofItems (key : α → Option κ) (items : List α) : Option (List (κ × α)) :=
  items.foldlM (fun entries item => (key item).map fun k => set entries k item) []

def lastOf (key : α → Option κ) (items : List α) (k : κ) : Option α :=
  (items.filter fun item => key item = some k).getLast?

structure Collects (key : α → Option κ) (entries : List (κ × α)) (items : List α) : Prop where
  own : ∀ entry ∈ entries, key entry.2 = some entry.1
  unique : (entries.map Prod.fst).Nodup
  last : ∀ k, get? entries k = lastOf key items k

theorem lastOf_concat (key : α → Option κ) (items : List α) (item : α) (k : κ) :
    lastOf key (items ++ [item]) k = if key item = some k then some item else lastOf key items k := by
  by_cases h : key item = some k
  · simp [lastOf, List.filter_append, h]
  · simp [lastOf, List.filter_append, h]

theorem Collects.set {key : α → Option κ} {entries : List (κ × α)} {items : List α}
    (h : Collects key entries items) {item : α} {k : κ} (hk : key item = some k) :
    Collects key (Dict.set entries k item) (items ++ [item]) where
  own entry hentry := by
    rcases mem_set hentry with hold | rfl
    · exact h.own entry hold
    · exact hk
  unique := nodup_set h.unique k item
  last k' := by
    rw [get?_set, lastOf_concat, hk, h.last k']
    simp

theorem collects_ofItems {key : α → Option κ} {items : List α} {entries : List (κ × α)}
    (h : ofItems key items = some entries) : Collects key entries items := by
  induction items using List.reverseRecOn generalizing entries with
  | nil =>
    rw [← Option.some.inj h]
    exact ⟨by simp, by simp, fun k => rfl⟩
  | append_singleton items item ih =>
    simp only [ofItems, List.foldlM_append, List.foldlM_cons, List.foldlM_nil, Option.bind_eq_bind,
      Option.bind_eq_some_iff, Option.map_eq_some_iff] at h
    obtain ⟨earlier, hearlier, later, ⟨k, hk, rfl⟩, hlater⟩ := h
    rw [← Option.some.inj hlater]
    exact (ih hearlier).set hk

theorem lastOf_values {key : α → Option κ} {entries : List (κ × α)}
    (hown : ∀ entry ∈ entries, key entry.2 = some entry.1) (hunique : (entries.map Prod.fst).Nodup)
    (k : κ) : lastOf key (entries.map Prod.snd) k = get? entries k := by
  induction entries with
  | nil => rfl
  | cons head rest ih =>
    rw [List.map_cons, List.nodup_cons] at hunique
    have hrest := ih (fun entry he => hown entry (List.mem_cons_of_mem _ he)) hunique.2
    have hhead : key head.2 = some head.1 := hown head List.mem_cons_self
    rw [get?_cons, ← hrest]
    by_cases hk : head.1 = k
    · have hnone : (rest.map Prod.snd).filter (fun item => key item = some k) = [] := by
        simp only [List.filter_eq_nil_iff, List.mem_map, decide_eq_true_eq]
        rintro item ⟨entry, hentry, rfl⟩ hitem
        have hfst : entry.1 = k := by
          rw [hown entry (List.mem_cons_of_mem _ hentry)] at hitem
          exact Option.some.inj hitem
        exact hunique.1 (List.mem_map.mpr ⟨entry, hentry, hfst.trans hk.symm⟩)
      simp [lastOf, hhead, hk, hnone]
    · simp [lastOf, hhead, hk]

end ChainQuantStudio.Dict
