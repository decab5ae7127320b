import ChainQuantStudio.Studio.OrderMoves

/-!
# Writes of one order

Every write of the runner rewrites one entry and leaves the others.
-/

namespace ChainQuantStudio.Studio

theorem Durable.find_eq_some {d : Durable} {identifier : String} {order : WorkOrder} :
    d.find identifier = some order ↔ order ∈ d.store.workOrders ∧ order.id = identifier :=
  Keyed.find_eq_some

theorem Durable.find_mem {d : Durable} {x : Entry} (hx : x ∈ d) :
    d.find x.order.id = some x.order := Keyed.find_mem hx.1

theorem Durable.exists_mem {d : Durable} {identifier : String} {order : WorkOrder}
    (h : d.find identifier = some order) :
    (⟨order, d.artifacts.find identifier⟩ : Entry) ∈ d := by
  obtain ⟨hm, rfl⟩ := find_eq_some.mp h
  exact ⟨hm, rfl⟩

theorem Durable.eq_of_mem {d : Durable} {x y : Entry} (hx : x ∈ d) (hy : y ∈ d)
    (h : x.order.id = y.order.id) : x = y := by
  obtain ⟨o, r⟩ := x
  obtain ⟨o', r'⟩ := y
  have ho : o = o' := Keyed.eq_of_mem hx.1 hy.1 h
  subst ho
  have hr : r = r' := hx.2.trans hy.2.symm
  rw [hr]

def Rewritten (d d' : Durable) (x' : Entry) : Prop :=
  ∀ y, y ∈ d' ↔ y = x' ∨ (y ∈ d ∧ y.order.id ≠ x'.order.id)

theorem Rewritten.mem {d d' : Durable} {x' : Entry} (h : Rewritten d d' x') : x' ∈ d' :=
  (h x').mpr (.inl rfl)

theorem Rewritten.mem_of_ne {d d' : Durable} {x' y : Entry} (h : Rewritten d d' x') (hy : y ∈ d)
    (hne : y.order.id ≠ x'.order.id) : y ∈ d' := (h y).mpr (.inr ⟨hy, hne⟩)

theorem Rewritten.self {d : Durable} {x : Entry} (hx : x ∈ d) : Rewritten d d x := by
  intro y
  constructor
  · intro hy
    by_cases h : y.order.id = x.order.id
    · exact .inl (Durable.eq_of_mem hy hx h)
    · exact .inr ⟨hy, h⟩
  · rintro (rfl | ⟨hy, -⟩)
    · exact hx
    · exact hy

theorem Rewritten.trans {d d₁ d₂ : Durable} {x₁ x₂ : Entry} (h : Rewritten d d₁ x₁)
    (h' : Rewritten d₁ d₂ x₂) (hid : x₂.order.id = x₁.order.id) : Rewritten d d₂ x₂ := by
  intro y
  rw [h' y, h y]
  constructor
  · rintro (hy | ⟨rfl | hy, hne⟩)
    · exact .inl hy
    · exact absurd hid.symm hne
    · exact .inr ⟨hy.1, hne⟩
  · rintro (hy | ⟨hy, hne⟩)
    · exact .inl hy
    · exact .inr ⟨.inr ⟨hy, hid ▸ hne⟩, hne⟩

theorem Rewritten.modify {d : Durable} {x : Entry} (hx : x ∈ d) (f : WorkOrder → WorkOrder)
    (hf : ∀ order, (f order).id = order.id) :
    Rewritten d (d.modify x.order.id f hf) ⟨f x.order, x.record⟩ := by
  rintro ⟨o, r⟩
  have hmem : o ∈ (d.modify x.order.id f hf).store.workOrders ↔
      o = f x.order ∨ (o ∈ d.store.workOrders ∧ o.id ≠ x.order.id) := by
    apply Keyed.mem_modify_of_find
    · exact hf
    · exact Keyed.find_mem hx.1
  simp only [Durable.mem_def, hmem, Entry.mk.injEq, hf]
  constructor
  · rintro ⟨rfl | ⟨ho, hne⟩, hr⟩
    · left
      rw [hf] at hr
      exact ⟨rfl, hr.trans hx.2.symm⟩
    · exact .inr ⟨⟨ho, hr⟩, hne⟩
  · rintro (⟨rfl, rfl⟩ | ⟨⟨ho, hr⟩, hne⟩)
    · refine ⟨.inl rfl, ?_⟩
      rw [hf]
      exact hx.2
    · exact ⟨.inr ⟨ho, hne⟩, hr⟩

theorem Rewritten.upsert {d : Durable} {x : Entry} (hx : x ∈ d) {record : ArtifactRecord}
    (hr : record.workOrder = x.order.id) :
    Rewritten d { d with artifacts := d.artifacts.upsert record } ⟨x.order, some record⟩ := by
  rintro ⟨o, r⟩
  simp only [Durable.mem_def, Entry.mk.injEq]
  by_cases ho : o.id = x.order.id
  · have hfind : (d.artifacts.upsert record).find o.id = some record := by
      rw [ho, ← hr]
      exact Keyed.find_upsert_self _ _
    rw [hfind]
    constructor
    · rintro ⟨hmem, hrec⟩
      exact .inl ⟨Keyed.eq_of_mem hmem hx.1 ho, hrec⟩
    · rintro (⟨rfl, hrec⟩ | ⟨-, hne⟩)
      · exact ⟨hx.1, hrec⟩
      · exact absurd ho hne
  · have hfind : (d.artifacts.upsert record).find o.id = d.artifacts.find o.id :=
      Keyed.find_upsert_of_ne (by rw [hr]; exact ho)
    rw [hfind]
    constructor
    · intro h
      exact .inr ⟨h, ho⟩
    · rintro (⟨rfl, -⟩ | ⟨h, -⟩)
      · exact absurd rfl ho
      · exact h

variable {outside : Outside}

theorem artifactRecord_workOrder {order : WorkOrder} {record : ArtifactRecord}
    (h : artifactRecord outside order = .ok record) : record.workOrder = order.id := by
  unfold artifactRecord at h
  split at h
  · cases h
  · split at h
    · cases h
    · split at h
      · cases h
      · rw [← Except.ok.inj h]
  · split at h
    · cases h
    · split at h
      · cases h
      · rw [← Except.ok.inj h]

theorem artifactRecord_names {order : WorkOrder} {record : ArtifactRecord}
    (h : artifactRecord outside order = .ok record) : record.Names order :=
  fun _ hv => artifactRecord_version h hv

theorem recordArtifact_spec (outside : Outside) {d : Durable} {x : Entry} (hx : x ∈ d) :
    ∃ record, Rewritten d (d.recordArtifact outside x.order).1 ⟨x.order, record⟩ ∧
      KeepsRecord x ⟨x.order, record⟩ ∧
      ((d.recordArtifact outside x.order).2 = none →
        ∃ r, record = some r ∧ r.Names x.order) := by
  unfold Durable.recordArtifact
  cases h : artifactRecord outside x.order with
  | error failure => exact ⟨x.record, .self hx, .inl rfl, by simp⟩
  | ok record =>
    have hnames := artifactRecord_names h
    exact ⟨some record, .upsert hx (artifactRecord_workOrder h), .inr ⟨record, rfl, hnames⟩,
      fun _ => ⟨record, rfl, hnames⟩⟩

theorem KeepsRecord.refl (x : Entry) : KeepsRecord x x := .inl rfl

theorem KeepsRecord.of_record {x x' : Entry} (h : x'.record = x.record) : KeepsRecord x x' := .inl h

theorem ArtifactRecord.Names.of_artifact {record : ArtifactRecord} {order next : WorkOrder}
    (h : record.Names order) (ha : next.artifact = order.artifact) : record.Names next := by
  obtain ⟨hid, hversion⟩ := Prod.mk.inj ha
  intro version hv
  rw [hversion] at hv
  rw [hid]
  exact h version hv

theorem KeepsRecord.trans {x x₁ x₂ : Entry} (h : KeepsRecord x x₁) (h' : KeepsRecord x₁ x₂)
    (ha : x₂.order.artifact = x₁.order.artifact) : KeepsRecord x x₂ := by
  rcases h' with h' | h'
  · rcases h with h | ⟨record, hr, hn⟩
    · exact .inl (h'.trans h)
    · exact .inr ⟨record, h'.trans hr, hn.of_artifact ha⟩
  · exact .inr h'

theorem checkpoint_spec (outside : Outside) {d : Durable} {x : Entry} (hx : x ∈ d)
    (stage : Stage) (results : Results) (artifactId artifactVersion : Option String) :
    ∃ record,
      Rewritten d
        (d.checkpoint outside x.order.id stage results artifactId artifactVersion).1
        ⟨x.order.checkpointed stage results artifactId artifactVersion, record⟩ ∧
      KeepsRecord x ⟨x.order.checkpointed stage results artifactId artifactVersion, record⟩ ∧
      (stage ≠ .reviewImplementation → record = x.record ∧
        (d.checkpoint outside x.order.id stage results artifactId artifactVersion).2 = none) ∧
      ((d.checkpoint outside x.order.id stage results artifactId artifactVersion).2 = none →
        stage = .reviewImplementation →
        (x.order.checkpointed stage results artifactId artifactVersion).artifactVersion.isSome →
        ∃ r, record = some r ∧
          r.Names (x.order.checkpointed stage results artifactId artifactVersion)) := by
  have hmod := Rewritten.modify hx (·.checkpointed stage results artifactId artifactVersion)
    (by simp)
  unfold Durable.checkpoint
  rw [Durable.find_mem hx]
  dsimp only
  split
  case isTrue h =>
    obtain ⟨record, hrec, hkeep, hnamed⟩ := recordArtifact_spec outside hmod.mem
    refine ⟨record, hmod.trans hrec rfl, hkeep, ?_, ?_⟩
    · intro hne
      exact absurd h.1 hne
    · intro hnone _ _
      exact hnamed hnone
  case isFalse h =>
    refine ⟨x.record, hmod, .of_record rfl, fun _ => ⟨rfl, rfl⟩, ?_⟩
    intro _ hs hv
    exact absurd ⟨hs, hv⟩ h

theorem recordArtifact_unnamed {d : Durable} {order : WorkOrder} {failure : Failure}
    (h : (d.recordArtifact outside order).2 = some failure) : failure.Unnamed := by
  unfold Durable.recordArtifact at h
  split at h
  · rename_i hrecord
    rw [← Option.some.inj h]
    exact artifactRecord_unnamed hrecord
  · cases h

theorem checkpoint_unnamed {d : Durable} {x : Entry} (hx : x ∈ d) {stage : Stage}
    {results : Results} {artifactId artifactVersion : Option String} {failure : Failure}
    (h : (d.checkpoint outside x.order.id stage results artifactId artifactVersion).2 =
      some failure) : failure.Unnamed := by
  unfold Durable.checkpoint at h
  rw [Durable.find_mem hx] at h
  dsimp only at h
  split at h
  · exact recordArtifact_unnamed h
  · cases h

theorem finish_unnamed {d : Durable} {x : Entry} (hx : x ∈ d) {status : Status} {stage : Stage}
    {results : Results} {failure : Failure}
    (h : (d.finish outside x.order.id status stage results).2 = some failure) :
    failure.Unnamed := by
  unfold Durable.finish at h
  rw [Durable.find_mem hx] at h
  exact recordArtifact_unnamed h

theorem finish_spec (outside : Outside) {d : Durable} {x : Entry} (hx : x ∈ d) (status : Status)
    (stage : Stage) (results : Results) :
    ∃ record,
      Rewritten d (d.finish outside x.order.id status stage results).1
        ⟨x.order.finished status stage results, record⟩ ∧
      KeepsRecord x ⟨x.order.finished status stage results, record⟩ := by
  have hmod := Rewritten.modify hx (·.finished status stage results) (by simp)
  unfold Durable.finish
  rw [Durable.find_mem hx]
  obtain ⟨record, hrec, hkeep, _⟩ := recordArtifact_spec outside hmod.mem
  exact ⟨record, hmod.trans hrec rfl, hkeep⟩

theorem Rewritten.congr {d d₁ d₂ : Durable} {x' : Entry} (h : Rewritten d d₁ x')
    (ho : d₂.store.workOrders = d₁.store.workOrders) (ha : d₂.artifacts = d₁.artifacts) :
    Rewritten d d₂ x' := by
  intro y
  rw [← h y, Durable.mem_def, Durable.mem_def, ho, ha]

theorem requeue_spec (config : RunnerConfig) {d : Durable} {x : Entry} (hx : x ∈ d) (r : Requeue) :
    Rewritten d (d.requeue config x.order.id r).1 ⟨r.apply config x.order, x.record⟩ ∧
      (d.requeue config x.order.id r).2 = none := by
  have hmod := Rewritten.modify hx (r.apply config) (by simp)
  unfold Durable.requeue
  rw [Durable.find_mem hx]
  dsimp only
  split
  · exact ⟨hmod.congr rfl rfl, rfl⟩
  · split
    · exact ⟨hmod.congr rfl rfl, rfl⟩
    · exact ⟨hmod.congr rfl rfl, rfl⟩

end ChainQuantStudio.Studio
