import ChainQuantStudio.Library.Columns
import ChainQuantStudio.Library.Dict
import Mathlib.Data.List.Perm.Basic

/-!
# Dictionaries collected without conflict

Items are read one after another, each giving at most one entry. An entry that is there already
must agree with the new one. The dictionary that comes out depends on the set of entries alone, so
the order of the items does not matter.
-/

namespace ChainQuantStudio.ConsistentDict

variable {α κ β ε : Type} [DecidableEq κ] [DecidableEq β]

def step (entry : α → Except ε (Option (κ × β))) (conflict : ε) (entries : List (κ × β))
    (item : α) : Except ε (List (κ × β)) := do
  match ← entry item with
  | none => return entries
  | some (key, value) =>
    if (Dict.get? entries key).any (· ≠ value) then throw conflict
    else return Dict.set entries key value

def collect (entry : α → Except ε (Option (κ × β))) (conflict : ε) (items : List α) :
    Except ε (List (κ × β)) :=
  items.foldlM (step entry conflict) []

variable {entry : α → Except ε (Option (κ × β))} {conflict : ε}

structure Collects (entry : α → Except ε (Option (κ × β))) (items : List α)
    (entries : List (κ × β)) : Prop where
  unique : (entries.map Prod.fst).Nodup
  get?_iff : ∀ key value, Dict.get? entries key = some value ↔
    ∃ item ∈ items, entry item = .ok (some (key, value))
  read : ∀ item ∈ items, ∃ found, entry item = .ok found

theorem step_eq_ok {entries entries' : List (κ × β)} {item : α} :
    step entry conflict entries item = .ok entries' ↔
      (entry item = .ok none ∧ entries' = entries) ∨
        ∃ key value, entry item = .ok (some (key, value)) ∧
          (∀ previous, Dict.get? entries key = some previous → previous = value) ∧
          entries' = Dict.set entries key value := by
  unfold step
  rw [Columns.bind_eq_ok]
  constructor
  · rintro ⟨found, hfound, h⟩
    cases found with
    | none => exact .inl ⟨hfound, (Except.ok.inj h).symm⟩
    | some found =>
      obtain ⟨key, value⟩ := found
      simp only at h
      split at h
      · cases h
      · rename_i hconflict
        refine .inr ⟨key, value, hfound, fun previous hprevious => ?_, (Except.ok.inj h).symm⟩
        by_contra hne
        exact hconflict (by simp [hprevious, hne])
  · rintro (⟨hnone, rfl⟩ | ⟨key, value, hsome, hagree, rfl⟩)
    · exact ⟨none, hnone, rfl⟩
    · refine ⟨some (key, value), hsome, ?_⟩
      simp only
      rw [if_neg]
      · rfl
      · simp only [Option.any_eq_true, not_exists, not_and, decide_eq_true_eq, not_not]
        exact hagree

omit [DecidableEq β] in
theorem collects_nil : Collects entry [] [] :=
  ⟨List.nodup_nil, by simp, by simp⟩

theorem Collects.step {items : List α} {entries entries' : List (κ × β)} {item : α}
    (h : Collects entry items entries) (hstep : step entry conflict entries item = .ok entries') :
    Collects entry (items ++ [item]) entries' := by
  rcases step_eq_ok.mp hstep with ⟨hnone, rfl⟩ | ⟨key, value, hsome, hagree, rfl⟩
  · refine ⟨h.unique, fun k v => ?_, fun other hother => ?_⟩
    · rw [h.get?_iff]
      simp [hnone, or_and_right, exists_or]
    · rcases List.mem_append.mp hother with hother | hother
      · exact h.read other hother
      · exact ⟨none, List.mem_singleton.mp hother ▸ hnone⟩
  · refine ⟨Dict.nodup_set h.unique key value, fun k v => ?_, fun other hother => ?_⟩
    · rw [Dict.get?_set]
      simp only [List.mem_append, List.mem_singleton, or_and_right, exists_or, exists_eq_left]
      rw [← h.get?_iff, hsome]
      split_ifs with hk
      · subst hk
        simp only [Option.some.injEq, Except.ok.injEq, Prod.mk.injEq, true_and]
        constructor
        · exact .inr
        · rintro (hbefore | hvalue)
          · exact (hagree v hbefore).symm
          · exact hvalue
      · simp [hk]
    · rcases List.mem_append.mp hother with hother | hother
      · exact h.read other hother
      · exact ⟨_, List.mem_singleton.mp hother ▸ hsome⟩

theorem collects_of_foldlM {seen items : List α} {entries entries' : List (κ × β)}
    (h : Collects entry seen entries)
    (hfold : items.foldlM (ConsistentDict.step entry conflict) entries = .ok entries') :
    Collects entry (seen ++ items) entries' := by
  induction items generalizing seen entries with
  | nil =>
    obtain rfl : entries = entries' := Except.ok.inj hfold
    rwa [List.append_nil]
  | cons item items ih =>
    rw [List.foldlM_cons] at hfold
    obtain ⟨next, hstep, hrest⟩ := Columns.bind_eq_ok.mp hfold
    have hall := ih (h.step hstep) hrest
    rwa [List.append_assoc, List.singleton_append] at hall

theorem collects_of_collect {items : List α} {entries : List (κ × β)}
    (h : collect entry conflict items = .ok entries) : Collects entry items entries := by
  have hall := collects_of_foldlM collects_nil h
  rwa [List.nil_append] at hall

def Agree (entry : α → Except ε (Option (κ × β))) (items : List α) : Prop :=
  (∀ item ∈ items, ∃ found, entry item = .ok found) ∧
    ∀ item ∈ items, ∀ other ∈ items, ∀ key value value',
      entry item = .ok (some (key, value)) → entry other = .ok (some (key, value')) → value = value'

theorem exists_foldlM {seen items : List α} {entries : List (κ × β)}
    (h : Collects entry seen entries) (hagree : Agree entry (seen ++ items)) :
    ∃ entries', items.foldlM (ConsistentDict.step entry conflict) entries = .ok entries' := by
  induction items generalizing seen entries with
  | nil => exact ⟨entries, rfl⟩
  | cons item items ih =>
    have hmem : item ∈ seen ++ item :: items := by simp
    obtain ⟨found, hfound⟩ := hagree.1 item hmem
    obtain ⟨next, hnext⟩ : ∃ next, ConsistentDict.step entry conflict entries item = .ok next := by
      cases found with
      | none => exact ⟨entries, step_eq_ok.mpr (.inl ⟨hfound, rfl⟩)⟩
      | some found =>
        refine ⟨Dict.set entries found.1 found.2, step_eq_ok.mpr (.inr ⟨_, _, hfound, ?_, rfl⟩)⟩
        intro previous hprevious
        obtain ⟨other, hother, hentry⟩ := (h.get?_iff _ _).mp hprevious
        exact hagree.2 other (List.mem_append_left _ hother) item hmem _ _ _ hentry hfound
    have hrest : Agree entry ((seen ++ [item]) ++ items) := by
      rwa [List.append_assoc, List.singleton_append]
    obtain ⟨entries', hentries⟩ := ih (h.step hnext) hrest
    exact ⟨entries', by rw [List.foldlM_cons, hnext]; exact hentries⟩

theorem exists_collect_iff {items : List α} :
    (∃ entries, collect entry conflict items = .ok entries) ↔ Agree entry items := by
  constructor
  · rintro ⟨entries, h⟩
    have hcollects := collects_of_collect h
    refine ⟨hcollects.read, fun item hitem other hother key value value' hentry hentry' => ?_⟩
    have hvalue := (hcollects.get?_iff key value).mpr ⟨item, hitem, hentry⟩
    have hvalue' := (hcollects.get?_iff key value').mpr ⟨other, hother, hentry'⟩
    exact Option.some.inj (hvalue.symm.trans hvalue')
  · intro h
    exact exists_foldlM collects_nil (by rwa [List.nil_append])

omit [DecidableEq β] in
theorem Collects.mem_keys_iff {items : List α} {entries : List (κ × β)}
    (h : Collects entry items entries) {key : κ} :
    key ∈ entries.map Prod.fst ↔ ∃ item ∈ items, ∃ value, entry item = .ok (some (key, value)) := by
  constructor
  · intro hmem
    have hsome : Dict.get? entries key ≠ none := by
      intro hnone
      obtain ⟨stored, hstored, hkey⟩ := List.mem_map.mp hmem
      exact Dict.get?_eq_none.mp hnone stored hstored hkey
    obtain ⟨found, hfound⟩ := Option.ne_none_iff_exists'.mp hsome
    obtain ⟨item, hitem, hread⟩ := (h.get?_iff key found).mp hfound
    exact ⟨item, hitem, found, hread⟩
  · rintro ⟨item, hitem, value, hread⟩
    exact List.mem_map_of_mem (Dict.mem_of_get? ((h.get?_iff key value).mpr ⟨item, hitem, hread⟩))

omit [DecidableEq β] in
theorem Collects.perm {items items' : List α} {entries entries' : List (κ × β)}
    (h : Collects entry items entries) (h' : Collects entry items' entries')
    (hperm : items.Perm items') :
    (entries.map Prod.fst).Perm (entries'.map Prod.fst) ∧
      ∀ key, Dict.get? entries' key = Dict.get? entries key := by
  refine ⟨(List.perm_ext_iff_of_nodup h.unique h'.unique).mpr fun key => ?_, fun key => ?_⟩
  · rw [h.mem_keys_iff, h'.mem_keys_iff]
    simp only [hperm.mem_iff]
  · apply Option.ext
    intro value
    simp only [h.get?_iff, h'.get?_iff, hperm.mem_iff]

omit [DecidableEq κ] [DecidableEq β] in
theorem Agree.perm {items items' : List α} (h : Agree entry items) (hperm : items.Perm items') :
    Agree entry items' := by
  simpa only [Agree, hperm.mem_iff] using h

end ChainQuantStudio.ConsistentDict
