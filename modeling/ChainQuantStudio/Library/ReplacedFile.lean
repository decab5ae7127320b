import ChainQuantStudio.Library.Run

/-!
# Files rewritten by replacement

A store keeps its value in one file. An update reads the file, changes the value, writes the new
one to a temporary file and moves that over the target. A read may fail, and the process may stop
at any point of the write. A reader that takes a failed read for an empty file makes the next
write replace what was committed by a change of the empty value.
-/

namespace ChainQuantStudio.ReplacedFile

variable {δ α κ : Type*}

inductive Content (δ : Type*)
  | document (value : δ)
  | malformed
  | undecodable

structure Disk (δ : Type*) where
  target : Option (Content δ) := none
  temporary : Option (Content δ) := none

inductive Reading
  | contents
  | osError
  | malformed
  | undecodable
  deriving DecidableEq, Repr

inductive Writing (δ : Type*)
  | refused
  | torn (left : Content δ)
  | unreplaced
  | replaced

structure Format (δ α : Type*) where
  accept : δ → Option α
  document : α → δ
  empty : α
  accept_document : ∀ value, accept (document value) = some value

def Reading.Fails (reading : Reading) : Prop := reading = .osError ∨ reading = .malformed

instance (reading : Reading) : Decidable reading.Fails :=
  inferInstanceAs (Decidable (_ ∨ _))

def Writing.completes : Writing δ → Bool
  | .replaced => true
  | _ => false

variable (format : Format δ α)

/-- The value a read returns; `none` where it raises. -/
def load (disk : Disk δ) (reading : Reading) : Option α :=
  match disk.target with
  | none => some format.empty
  | some content =>
    match reading with
    | .osError | .malformed => some format.empty
    | .undecodable => none
    | .contents =>
      match content with
      | .document value => some ((format.accept value).getD format.empty)
      | .malformed => some format.empty
      | .undecodable => none

def save (disk : Disk δ) (value : α) : Writing δ → Disk δ
  | .refused => disk
  | .torn left => { disk with temporary := some left }
  | .unreplaced => { disk with temporary := some (.document (format.document value)) }
  | .replaced => { target := some (.document (format.document value)), temporary := none }

/-- One read, change and write. The change is `none` where it raises or writes nothing. -/
structure Update (δ α : Type*) where
  mutation : α → Option α
  reading : Reading := .contents
  writing : Writing δ := .replaced

def update (disk : Disk δ) (u : Update δ α) : Disk δ :=
  match (load format disk u.reading).bind u.mutation with
  | none => disk
  | some value => save format disk value u.writing

def held (disk : Disk δ) : α :=
  match disk.target with
  | some (.document value) => (format.accept value).getD format.empty
  | _ => format.empty

/-- The target is missing or holds a document of the store. -/
def Decodes (disk : Disk δ) : Prop :=
  ∀ content, disk.target = some content →
    ∃ value, content = .document value ∧ (format.accept value).isSome

def commits (disk : Disk δ) (u : Update δ α) : Bool :=
  ((load format disk u.reading).bind u.mutation).isSome && u.writing.completes

/-- An update whose read fails and whose write completes finds nothing committed. -/
def Harmless (disk : Disk δ) (u : Update δ α) : Prop :=
  u.reading.Fails → (u.mutation format.empty).isSome → u.writing.completes →
    held format disk = format.empty

def completed (disk : Disk δ) : List (Update δ α) → List (α → Option α)
  | [] => []
  | u :: us =>
    if commits format disk u then u.mutation :: completed (update format disk u) us
    else completed (update format disk u) us

def replay (value : α) (mutations : List (α → Option α)) : α :=
  mutations.foldl (fun value mutation => (mutation value).getD value) value

variable {format}

@[simp] theorem replay_nil (value : α) : replay value [] = value := rfl

@[simp] theorem replay_cons (value : α) (mutation : α → Option α)
    (mutations : List (α → Option α)) :
    replay value (mutation :: mutations) = replay ((mutation value).getD value) mutations := rfl

@[simp] theorem held_save_replaced (disk : Disk δ) (value : α) :
    held format (save format disk value .replaced) = value := by
  simp [held, save, format.accept_document]

theorem save_target {disk : Disk δ} {value : α} {writing : Writing δ}
    (h : writing.completes = false) : (save format disk value writing).target = disk.target := by
  cases writing with
  | replaced => cases h
  | refused | torn left | unreplaced => rfl

theorem update_target {disk : Disk δ} {u : Update δ α} (h : commits format disk u = false) :
    (update format disk u).target = disk.target := by
  unfold update
  cases hvalue : (load format disk u.reading).bind u.mutation with
  | none => rfl
  | some value =>
    have hwriting : u.writing.completes = false := by simpa [commits, hvalue] using h
    exact save_target hwriting

theorem update_of_commits {disk : Disk δ} {u : Update δ α} (h : commits format disk u = true) :
    ∃ value result, load format disk u.reading = some value ∧ u.mutation value = some result ∧
      update format disk u = save format disk result .replaced := by
  simp only [commits, Bool.and_eq_true, Option.isSome_iff_exists, Option.bind_eq_some_iff] at h
  obtain ⟨⟨result, value, hload, hresult⟩, hwriting⟩ := h
  have hreplaced : u.writing = .replaced := by
    cases hw : u.writing with
    | replaced => rfl
    | refused | torn left | unreplaced => simp [hw, Writing.completes] at hwriting
  refine ⟨value, result, hload, hresult, ?_⟩
  simp [update, hload, hresult, hreplaced]

theorem load_eq_held {disk : Disk δ} {reading : Reading} {value : α}
    (h : load format disk reading = some value) :
    value = held format disk ∨ (reading.Fails ∧ value = format.empty) := by
  unfold load at h
  unfold held
  split at h
  case h_1 htarget => simp_all
  case h_2 content htarget =>
    cases reading with
    | osError => exact .inr ⟨.inl rfl, (Option.some.inj h).symm⟩
    | malformed => exact .inr ⟨.inr rfl, (Option.some.inj h).symm⟩
    | undecodable => cases h
    | contents =>
      left
      cases content with
      | document document => simpa [htarget] using h.symm
      | malformed => simpa [htarget] using h.symm
      | undecodable => cases h

theorem held_of_target {disk disk' : Disk δ} (h : disk'.target = disk.target) :
    held format disk' = held format disk := by
  simp only [held, h]

theorem mutation_held {disk : Disk δ} {u : Update δ α} (hu : Harmless format disk u)
    (h : commits format disk u = true) :
    u.mutation (held format disk) = some (held format (update format disk u)) := by
  obtain ⟨value, result, hload, hresult, hupdate⟩ := update_of_commits h
  have hvalue : value = held format disk := by
    rcases load_eq_held hload with hheld | ⟨hfails, hempty⟩
    · exact hheld
    · have hsome : (u.mutation format.empty).isSome := by rw [← hempty, hresult]; rfl
      have hwriting : u.writing.completes := by
        simp only [commits, Bool.and_eq_true] at h
        exact h.2
      rw [hempty]
      exact (hu hfails hsome hwriting).symm
  rw [hupdate, held_save_replaced, ← hvalue]
  exact hresult

theorem decodes_update {disk : Disk δ} (h : Decodes format disk) (u : Update δ α) :
    Decodes format (update format disk u) := by
  intro content hcontent
  cases hc : commits format disk u with
  | false =>
    rw [update_target hc] at hcontent
    exact h content hcontent
  | true =>
    obtain ⟨value, result, -, -, hupdate⟩ := update_of_commits hc
    rw [hupdate] at hcontent
    refine ⟨format.document result, (Option.some.inj hcontent).symm, ?_⟩
    simp [format.accept_document]

theorem held_run {disk : Disk δ} {us : List (Update δ α)}
    (h : Run.Guarded (update format) (Harmless format) disk us) :
    held format (Run.run (update format) disk us) =
      replay (held format disk) (completed format disk us) := by
  induction us generalizing disk with
  | nil => rfl
  | cons u us ih =>
    rw [Run.run_cons, ih h.2, completed]
    cases hc : commits format disk u with
    | false =>
      rw [held_of_target (update_target hc)]
      rfl
    | true =>
      rw [if_pos rfl, replay_cons, mutation_held h.1 hc, Option.getD_some]

/-- What holds of the value in the target, of its change and, where a failed read leads to a
replacement, of the change of the empty value, holds of the value in the target afterwards. -/
theorem kept_update {disk : Disk δ} {u : Update δ α} (kept : α → Prop)
    (hheld : kept (held format disk))
    (hkeeps : ∀ result, u.mutation (held format disk) = some result → kept result)
    (hempty : u.reading.Fails → u.writing.completes →
      ∀ result, u.mutation format.empty = some result → kept result) :
    kept (held format (update format disk u)) := by
  cases hc : commits format disk u with
  | false =>
    rw [held_of_target (update_target hc)]
    exact hheld
  | true =>
    obtain ⟨value, result, hload, hresult, hupdate⟩ := update_of_commits hc
    rw [hupdate, held_save_replaced]
    rcases load_eq_held hload with rfl | ⟨hfails, rfl⟩
    · exact hkeeps result hresult
    · simp only [commits, Bool.and_eq_true] at hc
      exact hempty hfails hc.2 result hresult

theorem held_update_of_fails {disk : Disk δ} {u : Update δ α} {result : α}
    (hfails : u.reading.Fails) (hwriting : u.writing.completes)
    (hresult : u.mutation format.empty = some result) :
    held format (update format disk u) = result := by
  have hload : load format disk u.reading = some format.empty := by
    unfold load
    rcases hfails with hreading | hreading
    · cases disk.target <;> simp [hreading]
    · cases disk.target <;> simp [hreading]
  have hc : commits format disk u = true := by simp [commits, hload, hresult, hwriting]
  obtain ⟨value, result', hload', hresult', hupdate⟩ := update_of_commits hc
  have hvalue : format.empty = value := Option.some.inj (hload.symm.trans hload')
  rw [hupdate, held_save_replaced]
  rw [← hvalue, hresult] at hresult'
  exact (Option.some.inj hresult').symm

end ChainQuantStudio.ReplacedFile
