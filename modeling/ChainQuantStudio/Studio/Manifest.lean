import ChainQuantStudio.Studio.QuotaReset
import ChainQuantStudio.Studio.WorkOrder

/-!
# Version manifests

The implemented artifacts on disk, as the runner finds them for a work order: the one exact manifest
of an artifact version, the version a Strategy handoff identifies, and the record kept of it.
-/

namespace ChainQuantStudio.Studio

open DateTimes PythonText

/-- The directories of implemented artifacts. -/
inductive Registry
  | signals
  | strategies
  deriving DecidableEq, Repr

def ArtifactKind.registry : ArtifactKind → Option Registry
  | .signal => some .signals
  | .strategy => some .strategies
  | .maintenance => none

/-- A decodable manifest file. A field that is missing or not a string is `none`. -/
structure ManifestFile where
  registry : Registry
  path : String
  stem : String
  workOrder : Option String
  stableId : Option String
  version : Option String
  sha256 : String
  deriving DecidableEq, Repr

/-- An exception, with the name of its type unless it is a `TimeoutError`. -/
inductive Failure
  | timeout
  | error (typeName message : String)
  deriving DecidableEq, Repr

def valueError (message : String) : Failure := .error "ValueError" message

def runtimeError (message : String) : Failure := .error "RuntimeError" message

def Failure.Unnamed : Failure → Prop
  | .timeout => True
  | .error typeName message => resetOf (typeName ++ ": " ++ message).toList = .unnamed

instance : DecidablePred Failure.Unnamed
  | .timeout => inferInstanceAs (Decidable True)
  | .error _ _ => inferInstanceAs (Decidable (_ = _))

structure RecordError where
  failure : Failure
  unnamed : failure.Unnamed

def Clocked (now ahead : ℤ) : Prop :=
  -dayLength < ahead ∧ ahead < dayLength ∧ Ranged (now - 3 * dayLength) ∧
    Ranged (now + 3 * dayLength)

instance (now ahead : ℤ) : Decidable (Clocked now ahead) := inferInstanceAs (Decidable (_ ∧ _))

theorem clocked_epoch : Clocked 0 0 := by decide

/-- What a step reads from outside the store: the clock and how far the local one is ahead, the
manifests on disk, an error that the files around an artifact record raise, and the native evidence
found for an order. -/
structure Outside where
  now : ℤ := 0
  ahead : ℤ := 0
  clocked : Clocked now ahead := by exact Studio.clocked_epoch
  manifests : List ManifestFile := []
  recordError : Option RecordError := none
  localBacktestEvidence : String → ArtifactKind → Option String := fun _ _ => none

namespace Outside

variable (outside : Outside)

theorem localNow_ranged : Ranged (outside.now + outside.ahead) := by
  have h := outside.clocked
  unfold Clocked Ranged dayLength at *
  omega

/-- `datetime.now().astimezone()`. -/
def localNow : Aware ℤ where
  wall := outside.now + outside.ahead
  zone := outside.ahead
  ranged := outside.localNow_ranged

/-- What `_execute` gets from `open` when it fails for `reason`. -/
def retryAt (reason : String) : Except OutOfRange ℤ :=
  (({} : CircuitBreaker ℤ).openCircuit fixedOffsets reason outside.localNow).1.map
    fixedOffsets.instant

theorem retryAt_unnamed {reason : String} (h : resetOf reason.toList = .unnamed) :
    outside.retryAt reason = .ok (outside.now + 3600 * 1000000) := by
  have hranged : Ranged (outside.localNow.wall + 3600 * 1000000) := by
    have hc := outside.clocked
    unfold Clocked Ranged dayLength at *
    simp only [localNow]
    omega
  unfold retryAt
  rw [CircuitBreaker.openCircuit_fst, CircuitBreaker.endOf_unnamed fixedOffsets h hranged]
  simp only [Except.map, Zones.instant, fixedOffsets, fixedOffset, localNow]
  congr 1
  omega

end Outside

/-- The tests `_implemented_manifest_for_work_order` makes on one manifest. -/
def ManifestFile.implements (m : ManifestFile) (identifier : String) (kind : ArtifactKind)
    (artifactId version : Option String) : Bool :=
  kind.registry.all (· == m.registry) && m.workOrder == some identifier &&
    artifactId.all (m.stableId == some ·) && version.all (m.version == some ·) &&
    m.version == some m.stem

/-- `_implemented_manifest_for_work_order`. -/
def implementedManifest (manifests : List ManifestFile) (identifier : String) (kind : ArtifactKind)
    (artifactId version : Option String) : Except Failure (Option ManifestFile) :=
  if identifier = "" then .ok none
  else
    match manifests.filter (·.implements identifier kind artifactId version) with
    | [] => .ok none
    | [m] => .ok (some m)
    | _ => .error (valueError "work order has multiple manifests; specify artifact_version")

theorem implementedManifest_eq_some {manifests : List ManifestFile} {identifier : String}
    {kind : ArtifactKind} {artifactId version : Option String} {m : ManifestFile}
    (h : implementedManifest manifests identifier kind artifactId version = .ok (some m)) :
    m ∈ manifests ∧ m.implements identifier kind artifactId version = true := by
  unfold implementedManifest at h
  split at h
  · cases h
  · split at h <;> try cases h
    rename_i hm
    exact List.mem_filter.mp (by rw [hm]; exact List.mem_singleton_self m)

def ManifestFile.candidate (m : ManifestFile) (order : WorkOrder) :
    Option (ManifestFile × String × String) :=
  match m.stableId, m.version with
  | some stableId, some version =>
    if order.artifactKind.registry = some m.registry ∧ m.workOrder = some order.id ∧
        m.stem = version ∧ order.artifactId.all (stableId == ·) then
      some (m, stableId, version)
    else none
  | _, _ => none

/-- The handoff names exactly this version: its number stands alone in the text, and the text has
`id@version`, the manifest's path or the number in backticks. -/
def mentioned (evidence : Text) : ManifestFile × String × String → Bool
  | (m, stableId, version) =>
    containsApart (fun c => c.isDigit || c == '.') version.toList evidence &&
      (contains (stableId ++ "@" ++ version).toList evidence ||
        contains m.path.toList (evidence.map fun c => if c = '\\' then '/' else c) ||
        contains ("`" ++ version ++ "`").toList evidence)

/-- The identity the matching rule of `_bind_artifact_identity_from_evidence` finds. -/
def identifiedArtifact (manifests : List ManifestFile) (order : WorkOrder) (evidence : String) :
    Option (String × String) :=
  match manifests.filterMap (·.candidate order) with
  | [found] => some found.2
  | found =>
    match found.filter (mentioned evidence.toList) with
    | [named] => some named.2
    | _ => none

/-- `_bind_artifact_identity_from_evidence`. An order that has a version keeps it. -/
def bindArtifactIdentity (manifests : List ManifestFile) (order : WorkOrder) (evidence : String) :
    WorkOrder :=
  if order.artifactVersion.isSome then order
  else
    match identifiedArtifact manifests order evidence with
    | some (stableId, version) =>
      { order with artifactId := some stableId, artifactVersion := some version }
    | none => order

/-- The record of an order's artifact, or the exception that ends `_record_artifact` before it is
kept. -/
def artifactRecord (outside : Outside) (order : WorkOrder) : Except Failure ArtifactRecord :=
  match implementedManifest outside.manifests order.id order.artifactKind order.artifactId
      order.artifactVersion with
  | .error failure => .error failure
  | .ok none =>
    if order.artifactVersion.isSome then
      .error (valueError "exact work-order artifact version manifest does not exist")
    else
      match outside.recordError with
      | some raised => .error raised.failure
      | none => .ok { workOrder := order.id, artifactKind := order.artifactKind }
  | .ok (some m) =>
    match outside.recordError with
    | some raised => .error raised.failure
    | none =>
      match m.stableId with
      | none => .error (.error "KeyError" "'stable_id'")
      | some stableId =>
        .ok { workOrder := order.id, artifactKind := order.artifactKind,
              artifactId := some stableId, artifactVersion := m.version,
              manifestSha256 := some m.sha256 }

@[simp] theorem bindArtifactIdentity_id (manifests : List ManifestFile) (order : WorkOrder)
    (evidence : String) : (bindArtifactIdentity manifests order evidence).id = order.id := by
  unfold bindArtifactIdentity
  split
  · rfl
  · split <;> rfl

theorem artifactRecord_unnamed {outside : Outside} {order : WorkOrder} {failure : Failure}
    (h : artifactRecord outside order = .error failure) : failure.Unnamed := by
  unfold artifactRecord at h
  split at h
  case h_1 hmanifest =>
    obtain rfl := Except.error.inj h
    unfold implementedManifest at hmanifest
    split at hmanifest
    · cases hmanifest
    · split at hmanifest
      · cases hmanifest
      · cases hmanifest
      · rw [← Except.error.inj hmanifest]
        decide +kernel
  case h_2 =>
    split at h
    · rw [← Except.error.inj h]
      decide +kernel
    · split at h
      · rename_i raised _
        rw [← Except.error.inj h]
        exact raised.unnamed
      · cases h
  case h_3 =>
    split at h
    · rename_i raised _
      rw [← Except.error.inj h]
      exact raised.unnamed
    · split at h
      · rw [← Except.error.inj h]
        decide +kernel
      · cases h

theorem artifactRecord_version {outside : Outside} {order : WorkOrder} {record : ArtifactRecord}
    {version : String} (h : artifactRecord outside order = .ok record)
    (hv : order.artifactVersion = some version) :
    record.artifactVersion = some version ∧
      ∀ artifactId, order.artifactId = some artifactId → record.artifactId = some artifactId := by
  unfold artifactRecord at h
  split at h
  · cases h
  · simp [hv] at h
  · rename_i m hm
    obtain ⟨_, himp⟩ := implementedManifest_eq_some hm
    split at h
    · cases h
    · split at h
      · cases h
      · rename_i stableId hs
        have hrec := Except.ok.inj h
        simp [ManifestFile.implements, hv] at himp
        rw [← hrec]
        refine ⟨himp.1.2, ?_⟩
        intro artifactId ha
        simpa [ha, hs] using himp.1.1.2

end ChainQuantStudio.Studio
