import ChainQuantStudio.Library.Decimals
import ChainQuantStudio.Library.Dict
import ChainQuantStudio.Library.SortedPrefix
import ChainQuantStudio.Studio.ReviewReport
import ChainQuantStudio.Studio.StartSignal
import Mathlib.Data.String.Basic

/-!
# The live registry

The dashboard shows each implemented artifact with one version and one status. The version is the
last of the names of its manifests as texts, and the status is found by the identifier alone, while
approvals and the running process are about one version. The manifests of a strategy are looked for
in another directory than the one it is registered by.
-/

namespace ChainQuantStudio.Studio

open Columns PythonText

/-- The directories under `implemented`, each with the names of the files in it. -/
structure ImplementedRoot where
  directories : List (String × List String) := []
  unique : (directories.map Prod.fst).Nodup := by decide

inductive RegistryKind
  | signal
  | strategy
  deriving DecidableEq

def RegistryKind.value : RegistryKind → String
  | .signal => "signal"
  | .strategy => "strategy"

/-- The directory of the project that `_registered_artifacts` reads. -/
def RegistryKind.registeredIn : RegistryKind → String
  | .signal => "signals"
  | .strategy => "strategies"

/-- The one that `_live_registry` reads the versions from: the kind with an s, so `strategys`. -/
def RegistryKind.versionsIn (kind : RegistryKind) : String := kind.value ++ "s"

structure RuntimeStatus where
  running : Bool := false
  signalId : Option String := none
  signalVersion : Option String := none

inductive RegistryStatus
  | running
  | approved
  | implemented
  deriving DecidableEq

structure RegistryEntry where
  id : String
  kind : RegistryKind
  version : Option String
  running : Bool
  status : RegistryStatus
  deriving DecidableEq

/-- `glob("*.toml")`. -/
def isToml (name : String) : Bool := ".toml".toList.isSuffixOf name.toList

/-- `path.stem` of such a file; a name that is all suffix is its own stem. -/
def stem (name : String) : String :=
  if name = ".toml" then name else String.ofList (name.toList.take (name.length - 5))

/-- The versions that the files of a directory name. -/
def stems (files : List String) : List String := (files.filter isToml).map stem

def ImplementedRoot.registeredArtifacts (root : ImplementedRoot) : List String :=
  ((root.directories.filter fun directory => directory.2.any isToml).map Prod.fst).insertionSort
    (· ≤ ·)

def ImplementedRoot.versions (root : ImplementedRoot) (identifier : String) : List String :=
  (stems ((Dict.get? root.directories identifier).getD [])).insertionSort (· ≤ ·)

section

variable (approved : List (String × String)) (runtime : RuntimeStatus)

/-- What `_approved_signal_versions` holds for an identifier: a later order overrides. -/
def approvedVersionOf (identifier : String) : Option String := approved.reverse.lookup identifier

def registryEntry (kind : RegistryKind) (identifier : String) (versions : List String) :
    RegistryEntry :=
  let version := versions.getLast?
  let running := kind = .signal ∧ runtime.running ∧ some identifier = runtime.signalId ∧
    (runtime.signalVersion = none ∨ version = runtime.signalVersion)
  let isApproved := kind = .signal ∧ (approvedVersionOf approved identifier).isSome
  { id := identifier
    kind := kind
    version := version
    running := running
    status := if running then .running else if isApproved then .approved else .implemented }

end

/-- `implemented` has what is under `implemented` in each directory of the project. -/
def liveRegistry (sha256 : List UInt8 → String) (stores : Stores) (runtime : RuntimeStatus)
    (implemented : String → ImplementedRoot) : Except Json.PyError (List RegistryEntry) := do
  let approved ← approvedSignalVersions sha256 stores
  return [RegistryKind.signal, .strategy].flatMap fun kind =>
    (implemented kind.registeredIn).registeredArtifacts.map fun identifier =>
      registryEntry approved runtime kind identifier
        ((implemented kind.versionsIn).versions identifier)

def versionKey (text : String) : Option (ℕ ×ₗ ℕ ×ₗ ℕ) :=
  let number (part : Text) : ℕ := Decimal.natOf (part.filterMap Decimal.digitOf)
  match isSemanticVersion text, text.toList.splitOn '.' with
  | true, [major, minor, patch] =>
    some (toLex (number major, toLex (number minor, number patch)))
  | _, _ => none

/-- No semantic version among these is above `version`. -/
def GreatestVersion (versions : List String) (version : String) : Prop :=
  version ∈ versions ∧ ∀ other ∈ versions, ∀ key, versionKey other = some key →
    ∃ key', versionKey version = some key' ∧ key ≤ key'

section

variable (approved : List (String × String)) (runtime : RuntimeStatus)

/-- An approved entry names the approved version, a running one the version that runs, and any
other one the greatest. -/
def Labelled (implemented : String → ImplementedRoot) (entry : RegistryEntry) : Prop :=
  match entry.status with
  | .approved => entry.kind = .signal ∧ ∃ version, entry.version = some version ∧
      approvedVersionOf approved entry.id = some version
  | .running => entry.kind = .signal ∧ runtime.running = true ∧ runtime.signalId = some entry.id ∧
      ∃ version, entry.version = some version ∧ runtime.signalVersion = some version
  | .implemented => ∃ version, entry.version = some version ∧
      GreatestVersion ((implemented entry.kind.registeredIn).versions entry.id) version

def MayRun (kind : RegistryKind) (identifier version : String) : Prop :=
  kind = .signal ∧ runtime.running = true ∧ runtime.signalId = some identifier ∧
    (runtime.signalVersion = none ∨ runtime.signalVersion = some version)

instance (kind : RegistryKind) (identifier version : String) :
    Decidable (MayRun runtime kind identifier version) :=
  inferInstanceAs (Decidable (_ ∧ _))

/-- The version to show: the one that the process names, or else the approved one, or else the
greatest. -/
def RightVersion (kind : RegistryKind) (identifier : String) (versions : List String)
    (version : String) : Prop :=
  if MayRun runtime kind identifier version then runtime.signalVersion = some version
  else
    match kind, approvedVersionOf approved identifier with
    | .signal, some approvedVersion => approvedVersion = version
    | _, _ => GreatestVersion versions version

end

section

variable {approved : List (String × String)} {runtime : RuntimeStatus}
  {implemented : String → ImplementedRoot} {kind : RegistryKind} {identifier last : String}
  {shown : List String}

theorem labelled_registryEntry (hlast : shown.getLast? = some last) :
    Labelled approved runtime implemented
        (registryEntry approved runtime kind identifier shown) ↔
      RightVersion approved runtime kind identifier
        ((implemented kind.registeredIn).versions identifier) last := by
  have hruns : (kind = .signal ∧ runtime.running = true ∧ some identifier = runtime.signalId ∧
      (runtime.signalVersion = none ∨ some last = runtime.signalVersion)) ↔
        MayRun runtime kind identifier last := by
    unfold MayRun
    rw [eq_comm (a := some identifier), eq_comm (a := some last)]
  unfold Labelled RightVersion registryEntry
  simp only [hlast, hruns]
  by_cases hrun : MayRun runtime kind identifier last
  · simp only [if_pos hrun]
    obtain ⟨hkind, hrunning, hid, -⟩ := hrun
    simp [hkind, hrunning, hid]
  · simp only [if_neg hrun]
    cases kind with
    | strategy => simp
    | signal =>
      cases approvedVersionOf approved identifier with
      | none => simp
      | some version => simp

theorem not_labelled_of_versionless (hnone : shown.getLast? = none) :
    ¬ Labelled approved runtime implemented
      (registryEntry approved runtime kind identifier shown) := by
  have hversion : (registryEntry approved runtime kind identifier shown).version = none := hnone
  unfold Labelled
  rw [hversion]
  cases (registryEntry approved runtime kind identifier shown).status with
  | running => rintro ⟨-, -, -, version, hversion, -⟩; cases hversion
  | approved => rintro ⟨-, version, hversion, -⟩; cases hversion
  | implemented => rintro ⟨version, hversion, -⟩; cases hversion

theorem mem_registeredArtifacts {root : ImplementedRoot} :
    identifier ∈ root.registeredArtifacts ↔
      ∃ files, (identifier, files) ∈ root.directories ∧ stems files ≠ [] := by
  unfold ImplementedRoot.registeredArtifacts
  rw [(List.perm_insertionSort _ _).mem_iff]
  simp [stems, List.filter_eq_nil_iff]

theorem versions_of_mem {root : ImplementedRoot} {files : List String}
    (h : (identifier, files) ∈ root.directories) :
    root.versions identifier = (stems files).insertionSort (· ≤ ·) := by
  unfold ImplementedRoot.versions
  rw [Dict.get?_of_mem root.unique h]
  rfl

theorem greatest_versions {root : ImplementedRoot}
    (h : (root.versions identifier).getLast? = some last) :
    IsGreatest { version | version ∈ root.versions identifier } last := by
  unfold ImplementedRoot.versions at h ⊢
  have hlast := (SortedPrefix.getLast?_insertionSort (β := String)).mp h
  simpa [(List.perm_insertionSort (· ≤ ·) _).mem_iff] using hlast

theorem rightVersion_congr {versions versions' : List String}
    (h : ∀ version, version ∈ versions ↔ version ∈ versions') :
    RightVersion approved runtime kind identifier versions last ↔
      RightVersion approved runtime kind identifier versions' last := by
  unfold RightVersion GreatestVersion
  simp only [h]

theorem labelled_directory_iff {files : List String}
    (h : (identifier, files) ∈ (implemented kind.registeredIn).directories) :
    Labelled approved runtime implemented (registryEntry approved runtime kind identifier
        ((implemented kind.versionsIn).versions identifier)) ↔
      ∃ last, IsGreatest { version | version ∈ (implemented kind.versionsIn).versions identifier }
          last ∧
        RightVersion approved runtime kind identifier (stems files) last := by
  have hcongr (last : String) : RightVersion approved runtime kind identifier
      ((implemented kind.registeredIn).versions identifier) last ↔
        RightVersion approved runtime kind identifier (stems files) last := by
    refine rightVersion_congr fun version => ?_
    rw [versions_of_mem h]
    exact (List.perm_insertionSort _ _).mem_iff
  cases hshown : ((implemented kind.versionsIn).versions identifier).getLast? with
  | none =>
    refine iff_of_false (not_labelled_of_versionless hshown) ?_
    rintro ⟨last, hlast, -⟩
    exact List.ne_nil_of_mem hlast.1 (List.getLast?_eq_none_iff.mp hshown)
  | some last =>
    have hgreatest := greatest_versions hshown
    rw [labelled_registryEntry hshown, hcongr]
    constructor
    · intro hright
      exact ⟨last, hgreatest, hright⟩
    · rintro ⟨last', hlast', hright⟩
      rwa [hgreatest.unique hlast']

theorem labelled_entries_iff :
    (∀ entry ∈ [RegistryKind.signal, .strategy].flatMap fun kind =>
      (implemented kind.registeredIn).registeredArtifacts.map fun identifier =>
        registryEntry approved runtime kind identifier
          ((implemented kind.versionsIn).versions identifier),
      Labelled approved runtime implemented entry) ↔
    ∀ kind, ∀ directory ∈ (implemented (RegistryKind.registeredIn kind)).directories,
      stems directory.2 ≠ [] → ∃ last,
        IsGreatest { version |
          version ∈ (implemented kind.versionsIn).versions directory.1 } last ∧
        RightVersion approved runtime kind directory.1 (stems directory.2) last := by
  constructor
  · rintro hall kind ⟨identifier, files⟩ hdirectory hne
    refine (labelled_directory_iff hdirectory).mp (hall _ ?_)
    have hregistered := mem_registeredArtifacts.mpr ⟨files, hdirectory, hne⟩
    have hkind : kind ∈ [RegistryKind.signal, .strategy] := by cases kind <;> simp
    exact List.mem_flatMap.mpr ⟨kind, hkind, List.mem_map_of_mem hregistered⟩
  · intro hall entry hentry
    obtain ⟨kind, -, hmem⟩ := List.mem_flatMap.mp hentry
    obtain ⟨identifier, hregistered, rfl⟩ := List.mem_map.mp hmem
    obtain ⟨files, hdirectory, hne⟩ := mem_registeredArtifacts.mp hregistered
    exact (labelled_directory_iff hdirectory).mpr (hall kind _ hdirectory hne)

end

/-- Whatever the stores, the runtime and the directories are, the labels of the registry are right
exactly if for each registered artifact the textually last of the versions that are looked up is
the one to show. -/
theorem live_registry_labels_iff (sha256 : List UInt8 → String) (stores : Stores)
    (runtime : RuntimeStatus) (implemented : String → ImplementedRoot) :
    (∀ approved entries, approvedSignalVersions sha256 stores = .ok approved →
      liveRegistry sha256 stores runtime implemented = .ok entries →
        ∀ entry ∈ entries, Labelled approved runtime implemented entry) ↔
    ∀ approved, approvedSignalVersions sha256 stores = .ok approved →
      ∀ kind, ∀ directory ∈ (implemented (RegistryKind.registeredIn kind)).directories,
        stems directory.2 ≠ [] → ∃ last,
          IsGreatest { version |
            version ∈ (implemented kind.versionsIn).versions directory.1 } last ∧
          RightVersion approved runtime kind directory.1 (stems directory.2) last := by
  constructor
  · intro h approved happroved
    have hregistry : liveRegistry sha256 stores runtime implemented = .ok _ :=
      bind_eq_ok.mpr ⟨approved, happroved, rfl⟩
    exact labelled_entries_iff.mp (h approved _ happroved hregistry)
  · intro h approved entries happroved hentries
    obtain ⟨approved', happroved', hreturn⟩ := bind_eq_ok.mp hentries
    obtain rfl : approved' = approved := Except.ok.inj (happroved'.symm.trans happroved)
    rw [← Except.ok.inj hreturn]
    exact labelled_entries_iff.mpr (h approved' happroved)

section

def twoVersions (directory : String) : ImplementedRoot :=
  if directory = "signals" then
    { directories := [("rsi-divergence", ["1.0.0.toml", "1.1.0.toml"])] }
  else if directory = "strategies" then
    { directories := [("alpha", ["1.10.0.toml", "1.9.0.toml"])] }
  else {}

/-- The approved version is 1.0.0, but 1.1.0 is shown as approved; of the strategy no version is
shown. -/
theorem live_registry_mislabels :
    approvedSignalVersions (fun bytes => if bytes = [] then emptyManifestHash else "")
      approvedStores = .ok [("rsi-divergence", "1.0.0")] ∧
    liveRegistry (fun bytes => if bytes = [] then emptyManifestHash else "") approvedStores {}
      twoVersions = .ok
        [{ id := "rsi-divergence", kind := .signal, version := some "1.1.0", running := false,
           status := .approved },
         { id := "alpha", kind := .strategy, version := none, running := false,
           status := .implemented }] ∧
    ¬ Labelled [("rsi-divergence", "1.0.0")] {} twoVersions
      { id := "rsi-divergence", kind := .signal, version := some "1.1.0", running := false,
        status := .approved } ∧
    ¬ Labelled [("rsi-divergence", "1.0.0")] {} twoVersions
      { id := "alpha", kind := .strategy, version := none, running := false,
        status := .implemented } := by
  refine ⟨by decide +kernel, by decide +kernel, ?_, ?_⟩
  · rintro ⟨-, version, hversion, happroved⟩
    rw [← Option.some.inj hversion] at happroved
    revert happroved
    decide +kernel
  · rintro ⟨version, hversion, -⟩
    cases hversion

end

end ChainQuantStudio.Studio
