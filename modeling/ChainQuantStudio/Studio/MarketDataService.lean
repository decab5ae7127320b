import ChainQuantStudio.Library.Columns
import ChainQuantStudio.Library.PosixPath
import ChainQuantStudio.Studio.DurableStores
import Mathlib.Data.List.OfFn

/-!
# The versioned market data service

`acquire` serves a dataset from its registry entry when the file of the entry has the recorded
hash, and otherwise stores what the loader returns under a name made from its hash. A file that is
already there under that name is taken for the loaded bytes without a look at its contents.
-/

namespace ChainQuantStudio.Studio

open ReplacedFile

namespace VersionedMarketDataService

abbrev Bytes := List UInt8

/-- What the service takes from Python's library: the 64 digits of a SHA-256 digest, the JSON text
of a provenance (`none` where it raises), `str` and `int` of a decoded value, and
`str.strip().lower()`. -/
structure Platform where
  sha256 : Bytes → Fin 64 → Fin 16
  dumps : Document → Option Bytes
  str : Json → String
  int : Json → Option ℤ
  clean : String → String

def Platform.digits (p : Platform) (payload : Bytes) : List Char :=
  List.ofFn fun i => Nat.digitChar (p.sha256 payload i)

def Platform.hexdigest (p : Platform) (payload : Bytes) : String := String.ofList (p.digits payload)

structure DatasetKey where
  venue : String
  market : String
  symbol : String
  timeframe : String
  start : String
  «end» : String
  schemaVersion : String := "normalized-candle-v1"
  deriving DecidableEq

structure DatasetVersion where
  datasetId : String
  version : String
  path : String
  sha256 : String
  byteCount : ℤ
  key : DatasetKey
  provenancePath : Option String
  provenanceSha256 : Option String
  deriving DecidableEq

inductive Node
  | file (contents : Bytes) (readable : Bool)
  | directory
  deriving DecidableEq

structure Store where
  files : PosixPath → Option Node
  registry : Disk Json

inductive AcquireError
  | unicodeDecodeError
  | keyError (key : String)
  | typeError
  | valueError (message : String)
  | osError
  | loader
  deriving DecidableEq, Repr

/-- A call: the loader may change the disk and may raise. -/
structure Call where
  key : DatasetKey
  loader : Store → Option Bytes × Store
  provenance : Option Document
  reading : Reading := .contents
  writing : Writing Json := .replaced

variable (p : Platform)

def DatasetKey.canonical (key : DatasetKey) : String :=
  "|".intercalate ([key.venue, key.market, key.symbol, key.timeframe, key.start, key.end,
    key.schemaVersion].map p.clean)

def DatasetKey.datasetId (key : DatasetKey) : String :=
  String.ofList ((p.digits (key.canonical p).toUTF8.data.toList).take 24)

def DatasetKey.asDict (key : DatasetKey) : Document :=
  [("venue", .str key.venue), ("market", .str key.market), ("symbol", .str key.symbol),
   ("timeframe", .str key.timeframe), ("start", .str key.start), ("end", .str key.end),
   ("schema_version", .str key.schemaVersion)]

def DatasetVersion.asDict (version : DatasetVersion) : Document :=
  [("dataset_id", .str version.datasetId), ("version", .str version.version),
   ("path", .str version.path), ("sha256", .str version.sha256),
   ("byte_count", .num version.byteCount), ("key", .obj version.key.asDict),
   ("provenance_path", ArtifactRegistry.ofOption version.provenancePath),
   ("provenance_sha256", ArtifactRegistry.ofOption version.provenanceSha256)]

/-- `value[key]`. -/
def item (value : Document) (key : String) : Except AcquireError Json :=
  match Dict.get? value key with
  | some found => .ok found
  | none => .error (.keyError key)

def text (value : Document) (key : String) : Except AcquireError String :=
  (item value key).map p.str

def optionalText (value : Document) (key : String) : Option String :=
  (Dict.get? value key).bind Json.text?

def fromDict (value : Document) : Except AcquireError DatasetVersion := do
  match ← item value "key" with
  | .obj rawKey =>
    let datasetId ← text p value "dataset_id"
    let version ← text p value "version"
    let path ← text p value "path"
    let sha256 ← text p value "sha256"
    let count ← item value "byte_count"
    match p.int count with
    | none => throw .typeError
    | some byteCount =>
      let key : DatasetKey :=
        { venue := ← text p rawKey "venue", market := ← text p rawKey "market",
          symbol := ← text p rawKey "symbol", timeframe := ← text p rawKey "timeframe",
          start := ← text p rawKey "start", «end» := ← text p rawKey "end",
          schemaVersion := ← text p rawKey "schema_version" }
      return { datasetId, version, path, sha256, byteCount, key,
               provenancePath := optionalText value "provenance_path",
               provenanceSha256 := optionalText value "provenance_sha256" }
  | _ => throw (.valueError "invalid data-service registry key")

/-- `path.is_file() and self._sha256(path.read_bytes()) == sha256`. -/
def fileMatches (store : Store) (path : PosixPath) (sha256 : String) : Except AcquireError Bool :=
  match store.files path with
  | some (.file contents true) => .ok (p.hexdigest contents = sha256)
  | some (.file _ false) => .error .osError
  | _ => .ok false

def provenanceValid (store : Store) (version : DatasetVersion) : Except AcquireError Bool :=
  match version.provenancePath, version.provenanceSha256 with
  | some path, some sha256 =>
    let relative := PosixPath.parse path
    if path = "" ∨ sha256 = "" ∨ relative.absolute ∨ ".." ∈ relative.parts then .ok false
    else fileMatches p store relative sha256
  | _, _ => .ok false

/-- `provenance is None or self._provenance_valid(version)`. -/
def provenanceAccepted (store : Store) (call : Call) (version : DatasetVersion) :
    Except AcquireError Bool :=
  if call.provenance.isNone then .ok true else provenanceValid p store version

def served (store : Store) (call : Call) (registry : Document) :
    Except AcquireError (Option DatasetVersion) :=
  match Dict.get? registry (call.key.canonical p) with
  | some (.obj existing) => do
    let version ← fromDict p existing
    let valid ← provenanceAccepted p store call version
    let found ← fileMatches p store (PosixPath.parse version.path) version.sha256
    return if found && valid then some version else none
  | _ => .ok none

abbrev Service := EStateM AcquireError Store

/-- `path.mkdir(parents=True, exist_ok=True)`. -/
def mkdir (parts : List String) : Service Unit := fun store =>
  if ∃ parent ∈ parts.inits, ((store.files ⟨false, parent⟩).any (· ≠ .directory)) = true then
    .error .osError store
  else
    .ok () { store with files := fun path =>
      if path.absolute = false ∧ path.parts ∈ parts.inits then some .directory else store.files path }

def put (path : PosixPath) (node : Option Node) (store : Store) : Store :=
  { store with files := fun other => if other = path then node else store.files other }

def writeBytes (path : PosixPath) (payload : Bytes) : Service Unit := fun store =>
  match store.files path with
  | some .directory => .error .osError store
  | some (.file _ readable) => .ok () (put path (some (.file payload readable)) store)
  | none => .ok () (put path (some (.file payload true)) store)

def replace (source target : PosixPath) : Service Unit := fun store =>
  .ok () (put source none (put target (store.files source) store))

def dataParts (datasetId versionId suffix : String) : List String :=
  ["datasets", datasetId, versionId ++ suffix]

def provenanceParts (datasetId versionId : String) : List String :=
  ["provenance", datasetId, versionId ++ ".json"]

def versionId (payload : Bytes) : String := String.ofList ((p.digits payload).take 16)

def destination (key : DatasetKey) (payload : Bytes) : PosixPath :=
  ⟨false, dataParts (key.datasetId p) (versionId p payload) ".csv"⟩

def storePayload (key : DatasetKey) (payload : Bytes) : Service Unit := do
  mkdir ["datasets", key.datasetId p]
  let store ← get
  if (store.files (destination p key payload)).isSome then return ()
  else
    let temporary : PosixPath :=
      ⟨false, dataParts (key.datasetId p) (versionId p payload) ".tmp"⟩
    writeBytes temporary payload
    replace temporary (destination p key payload)

def storeProvenance (key : DatasetKey) (versionId : String) :
    Option Document → Service (Option (String × String))
  | none => return none
  | some provenance =>
    match p.dumps provenance with
    | none => throw .typeError
    | some payload => do
      let parts := provenanceParts (key.datasetId p) versionId
      mkdir ["provenance", key.datasetId p]
      writeBytes ⟨false, parts⟩ payload
      return some (PosixPath.asPosix parts, p.hexdigest payload)

def writeRegistry (registry : Document) (writing : Writing Json) : Service Unit := fun store =>
  let written := { store with registry := save MarketData.format store.registry registry writing }
  if writing.completes then .ok () written else .error .osError written

def materialize (call : Call) (registry : Document) (payload : Bytes) : Service DatasetVersion := do
  storePayload p call.key payload
  let provenance ← storeProvenance p call.key (versionId p payload) call.provenance
  let version : DatasetVersion :=
    { datasetId := call.key.datasetId p
      version := versionId p payload
      path := PosixPath.asPosix (destination p call.key payload).parts
      sha256 := p.hexdigest payload
      byteCount := payload.length
      key := call.key
      provenancePath := provenance.map Prod.fst
      provenanceSha256 := provenance.map Prod.snd }
  writeRegistry (Dict.set registry (call.key.canonical p) (.obj version.asDict)) call.writing
  return version

def loaded (call : Call) : Service Bytes := fun store =>
  match call.loader store with
  | (none, after) => .error .loader after
  | (some [], after) => .error (.valueError "market dataset loader returned no bytes") after
  | (some payload, after) => .ok payload after

def acquire (call : Call) : Service DatasetVersion := do
  let store ← get
  match load MarketData.format store.registry call.reading with
  | none => throw .unicodeDecodeError
  | some registry =>
    match served p store call registry with
    | .error error => throw error
    | .ok (some version) => return version
    | .ok none => do
      let payload ← loaded call
      materialize p call registry payload

variable {p} {call : Call} {store store' : Store} {version : DatasetVersion}

theorem runs_bind {ε σ α β : Type} {x : EStateM ε σ α} {f : α → EStateM ε σ β} {s s' : σ} {b : β} :
    (x >>= f) s = .ok b s' ↔ ∃ a t, x s = .ok a t ∧ f a t = .ok b s' := by
  change EStateM.bind x f s = _ ↔ _
  unfold EStateM.bind
  cases x s <;> simp

theorem digitChar_clean (d : Fin 16) : Nat.digitChar d ≠ '/' ∧ Nat.digitChar d ≠ '.' := by
  revert d
  decide

theorem clean_digits (payload : Bytes) {n : ℕ} (hn : 0 < n) {suffix : String}
    (hsuffix : '/' ∉ suffix.toList) :
    PosixPath.Clean (String.ofList ((p.digits payload).take n) ++ suffix) := by
  have hdigits : p.digits payload ≠ [] := by simp [Platform.digits]
  have hmem : ∀ c ∈ (p.digits payload).take n, c ≠ '/' ∧ c ≠ '.' := by
    intro c hc
    obtain ⟨i, rfl⟩ := List.mem_ofFn.mp (List.mem_of_mem_take hc)
    exact digitChar_clean _
  obtain ⟨c, cs, hcs⟩ : ∃ c cs, (p.digits payload).take n = c :: cs :=
    List.exists_cons_of_ne_nil (by simp [List.take_eq_nil_iff, hdigits]; omega)
  refine ⟨?_, ?_, ?_⟩
  · simp [hcs]
  · intro hdot
    rw [String.toList_append, String.toList_ofList, hcs] at hdot
    exact (hmem c (hcs ▸ List.mem_cons_self)).2 (List.cons.inj hdot).1
  · rw [String.toList_append, String.toList_ofList, List.mem_append]
    rintro (hslash | hslash)
    · exact (hmem _ hslash).1 rfl
    · exact hsuffix hslash

theorem parse_stored (call : Call) (payload : Bytes) {first suffix : String}
    (hfirst : PosixPath.Clean first) (hsuffix : '/' ∉ suffix.toList) :
    PosixPath.parse (PosixPath.asPosix
        [first, call.key.datasetId p, versionId p payload ++ suffix]) =
      ⟨false, [first, call.key.datasetId p, versionId p payload ++ suffix]⟩ := by
  apply PosixPath.parse_asPosix (List.cons_ne_nil _ _)
  have hid : PosixPath.Clean (call.key.datasetId p ++ "") :=
    clean_digits _ (by decide) (by decide)
  rw [String.append_empty] at hid
  simpa using ⟨hfirst, hid, clean_digits payload (by decide) hsuffix⟩

def Holds (p : Platform) (store : Store) (path sha256 : String) : Prop :=
  ∃ contents readable, store.files (PosixPath.parse path) = some (.file contents readable) ∧
    p.hexdigest contents = sha256

theorem mkdir_ok {parts : List String} (h : mkdir parts store = .ok () store') :
    store'.registry = store.registry ∧
      ∀ path : PosixPath, path.parts ∉ parts.inits → store'.files path = store.files path := by
  unfold mkdir at h
  split at h
  · cases h
  · cases h
    exact ⟨rfl, fun path hpath => if_neg fun hmem => hpath hmem.2⟩

theorem writeBytes_ok {path : PosixPath} {payload : Bytes}
    (h : writeBytes path payload store = .ok () store') :
    ∃ readable, store' = put path (some (.file payload readable)) store := by
  unfold writeBytes at h
  split at h
  · cases h
  all_goals
    cases h
    exact ⟨_, rfl⟩

@[simp] theorem put_registry (path : PosixPath) (node : Option Node) (store : Store) :
    (put path node store).registry = store.registry := rfl

@[simp] theorem put_files_self (path : PosixPath) (node : Option Node) (store : Store) :
    (put path node store).files path = node := if_pos rfl

theorem put_files_of_ne {path other : PosixPath} (h : other ≠ path) (node : Option Node)
    (store : Store) : (put path node store).files other = store.files other := if_neg h

theorem storePayload_ok {key : DatasetKey} {payload : Bytes}
    (h : storePayload p key payload store = .ok () store') :
    store'.registry = store.registry ∧
      (∀ node, store.files (destination p key payload) = some node →
        store'.files (destination p key payload) = some node) ∧
      (store.files (destination p key payload) = none →
        ∃ readable, store'.files (destination p key payload) = some (.file payload readable)) := by
  obtain ⟨_, made, hmade, h⟩ := runs_bind.mp h
  obtain ⟨current, same, hsame, h⟩ := runs_bind.mp h
  obtain ⟨rfl, rfl⟩ : made = current ∧ made = same := by cases hsame; exact ⟨rfl, rfl⟩
  obtain ⟨hregistry, hfiles⟩ := mkdir_ok hmade
  have hkept : made.files (destination p key payload) = store.files (destination p key payload) :=
    hfiles _ (by simp [destination, dataParts])
  rw [← hregistry, ← hkept]
  split at h
  · rename_i hpresent
    cases h
    refine ⟨rfl, fun _ => id, fun hnone => ?_⟩
    rw [hnone] at hpresent
    cases hpresent
  · rename_i habsent
    rw [Bool.not_eq_true, Option.isSome_eq_false_iff, Option.isNone_iff_eq_none] at habsent
    obtain ⟨_, written, hwritten, hreplaced⟩ := runs_bind.mp h
    obtain ⟨readable, rfl⟩ := writeBytes_ok hwritten
    cases hreplaced
    have hne : destination p key payload ≠
        ⟨false, dataParts (key.datasetId p) (versionId p payload) ".tmp"⟩ := by
      simp [destination, dataParts, String.append_right_inj]
    refine ⟨rfl, fun node hnode => ?_, fun _ => ⟨readable, ?_⟩⟩
    · rw [habsent] at hnode
      cases hnode
    · rw [put_files_of_ne hne, put_files_self, put_files_self]

theorem storeProvenance_ok {key : DatasetKey} {name : String} {provenance : Option Document}
    {stored : Option (String × String)}
    (h : storeProvenance p key name provenance store = .ok stored store') :
    store'.registry = store.registry ∧
      (∀ path : PosixPath, path.parts.head? = some "datasets" →
        store'.files path = store.files path) ∧
      (provenance.isSome → ∃ contents, stored =
        some (PosixPath.asPosix (provenanceParts (key.datasetId p) name), p.hexdigest contents) ∧
        ∃ readable, store'.files ⟨false, provenanceParts (key.datasetId p) name⟩ =
          some (.file contents readable)) := by
  cases provenance with
  | none =>
    cases h
    exact ⟨rfl, fun _ _ => rfl, fun hnone => absurd hnone (by simp)⟩
  | some provenance =>
    simp only [storeProvenance] at h
    cases hcontents : p.dumps provenance with
    | none =>
      rw [hcontents] at h
      cases h
    | some contents =>
    rw [hcontents] at h
    obtain ⟨_, made, hmade, h⟩ := runs_bind.mp h
    obtain ⟨_, written, hwritten, h⟩ := runs_bind.mp h
    obtain ⟨readable, rfl⟩ := writeBytes_ok hwritten
    obtain ⟨hregistry, hfiles⟩ := mkdir_ok hmade
    cases h
    refine ⟨hregistry, fun path hpath => ?_, fun _ => ⟨contents, rfl, readable, put_files_self _ _ _⟩⟩
    obtain ⟨absolute, parts⟩ := path
    obtain ⟨rest, rfl⟩ : ∃ rest, parts = "datasets" :: rest := by
      cases parts with
      | nil => cases hpath
      | cons first rest => exact ⟨rest, by rw [Option.some.inj hpath]⟩
    rw [put_files_of_ne (by simp [provenanceParts]), hfiles _ (by simp)]

theorem writeRegistry_ok {registry : Document} {writing : Writing Json}
    (h : writeRegistry registry writing store = .ok () store') :
    store'.files = store.files ∧ held MarketData.format store'.registry = registry := by
  unfold writeRegistry at h
  cases writing with
  | replaced =>
    cases h
    exact ⟨rfl, held_save_replaced store.registry registry⟩
  | refused | torn left | unreplaced => cases h

/-- What a returned version promises about the files. -/
structure Verified (p : Platform) (call : Call) (store : Store) (version : DatasetVersion) :
    Prop where
  data : Holds p store version.path version.sha256
  provenance : call.provenance.isSome → ∃ path sha256, version.provenancePath = some path ∧
    version.provenanceSha256 = some sha256 ∧ Holds p store path sha256

def OthersUnchanged (p : Platform) (call : Call) (store store' : Store) : Prop :=
  ∀ k ≠ call.key.canonical p,
    MarketData.record store'.registry k = MarketData.record store.registry k

/-- The registry entry of the key describes files with the recorded hashes. -/
def Serves (p : Platform) (call : Call) (store : Store) : Prop :=
  ∃ registry version, load MarketData.format store.registry call.reading = some registry ∧
    served p store call registry = .ok (some version)

/-- What the loader leaves at the place of the payload is nothing or a file with its hash. -/
def PlaceSound (p : Platform) (call : Call) (store : Store) : Prop :=
  ∀ payload after, call.loader store = (some payload, after) →
    ∀ node, after.files (destination p call.key payload) = some node →
      ∃ contents readable, node = .file contents readable ∧
        p.hexdigest contents = p.hexdigest payload

/-- A read of the registry that fails has missed no other key. -/
def ReadingSound (p : Platform) (call : Call) (store : Store) : Prop :=
  call.reading.Fails → ∀ k ≠ call.key.canonical p, MarketData.record store.registry k = none

theorem holds_of_fileMatches {path sha256 : String}
    (h : fileMatches p store (PosixPath.parse path) sha256 = .ok true) :
    Holds p store path sha256 := by
  unfold fileMatches at h
  split at h
  · rename_i contents hfile
    exact ⟨contents, true, hfile, by simpa using h⟩
  · cases h
  · cases h

theorem verified_of_served {registry : Document}
    (h : served p store call registry = .ok (some version)) : Verified p call store version := by
  unfold served at h
  split at h
  · obtain ⟨found, -, h⟩ := Columns.bind_eq_ok.mp h
    obtain ⟨valid, hvalid, h⟩ := Columns.bind_eq_ok.mp h
    obtain ⟨matching, hmatching, h⟩ := Columns.bind_eq_ok.mp h
    split_ifs at h with hboth
    · obtain rfl : found = version := Option.some.inj (Except.ok.inj h)
      rw [Bool.and_eq_true] at hboth
      obtain ⟨rfl, rfl⟩ := hboth
      refine ⟨holds_of_fileMatches hmatching, fun hsome => ?_⟩
      rw [provenanceAccepted, if_neg (by
        simpa [Option.isNone_iff_eq_none, Option.isSome_iff_ne_none] using hsome)] at hvalid
      unfold provenanceValid at hvalid
      split at hvalid
      · rename_i path sha256 hpath hsha256
        simp only at hvalid
        split_ifs at hvalid with hrefused
        · cases hvalid
        · exact ⟨path, sha256, hpath, hsha256, holds_of_fileMatches hvalid⟩
      · cases hvalid
    · cases h
  · cases h

theorem loaded_ok {payload : Bytes} (h : loaded call store = .ok payload store') :
    call.loader store = (some payload, store') := by
  unfold loaded at h
  split at h
  · cases h
  · cases h
  · rename_i hloader
    cases h
    exact hloader

theorem verified_materialize_iff {registry : Document} {payload : Bytes}
    (h : materialize p call registry payload store = .ok version store') :
    Verified p call store' version ↔
      ∀ node, store.files (destination p call.key payload) = some node →
        ∃ contents readable, node = .file contents readable ∧
          p.hexdigest contents = p.hexdigest payload := by
  obtain ⟨_, stored, hstored, h⟩ := runs_bind.mp h
  obtain ⟨provenance, recorded, hrecorded, h⟩ := runs_bind.mp h
  obtain ⟨_, written, hwritten, h⟩ := runs_bind.mp h
  cases h
  obtain ⟨-, hpresent, habsent⟩ := storePayload_ok hstored
  obtain ⟨-, hdata, hprovenance⟩ := storeProvenance_ok hrecorded
  obtain ⟨hfiles, -⟩ := writeRegistry_ok hwritten
  have hparse : PosixPath.parse (PosixPath.asPosix (destination p call.key payload).parts) =
      destination p call.key payload :=
    parse_stored call payload (by decide) (by decide)
  have hplace : store'.files (destination p call.key payload) =
      stored.files (destination p call.key payload) := by
    rw [hfiles]
    exact hdata _ rfl
  constructor
  · rintro ⟨⟨contents, readable, hfile, hhash⟩, -⟩ node hnode
    rw [hparse, hplace, hpresent node hnode] at hfile
    exact ⟨contents, readable, Option.some.inj hfile, hhash⟩
  · intro hsound
    refine ⟨?_, fun hsome => ?_⟩
    · unfold Holds
      simp only [hparse, hplace]
      cases hnode : store.files (destination p call.key payload) with
      | none =>
        obtain ⟨readable, hfile⟩ := habsent hnode
        exact ⟨payload, readable, hfile, rfl⟩
      | some node =>
        obtain ⟨contents, readable, rfl, hhash⟩ := hsound node hnode
        exact ⟨contents, readable, hpresent _ hnode, hhash⟩
    · obtain ⟨contents, rfl, readable, hfile⟩ := hprovenance hsome
      refine ⟨_, _, rfl, rfl, contents, readable, ?_, rfl⟩
      rw [provenanceParts, parse_stored call payload (by decide) (by decide), hfiles]
      exact hfile

theorem record_materialize {registry : Document} {payload : Bytes}
    (h : materialize p call registry payload store = .ok version store') {k : String}
    (hk : k ≠ call.key.canonical p) :
    MarketData.record store'.registry k = Dict.get? registry k := by
  obtain ⟨_, stored, hstored, h⟩ := runs_bind.mp h
  obtain ⟨provenance, recorded, hrecorded, h⟩ := runs_bind.mp h
  obtain ⟨_, written, hwritten, h⟩ := runs_bind.mp h
  cases h
  rw [MarketData.record, (writeRegistry_ok hwritten).2, Dict.get?_set, if_neg hk.symm]

theorem entries_of_load {registry : Document}
    (h : load MarketData.format store.registry call.reading = some registry) :
    (∀ k ≠ call.key.canonical p,
        Dict.get? registry k = MarketData.record store.registry k) ↔ ReadingSound p call store := by
  constructor
  · intro hentries hfails k hk
    have hempty : registry = [] := by
      unfold load at h
      cases htarget : store.registry.target with
      | none =>
        rw [htarget] at h
        exact (Option.some.inj h).symm
      | some content =>
        rw [htarget] at h
        rcases hfails with hreading | hreading
        all_goals
          rw [hreading] at h
          exact (Option.some.inj h).symm
    rw [← hentries k hk, hempty, Dict.get?_nil]
  · intro hsound k hk
    rcases load_eq_held h with rfl | ⟨hfails, rfl⟩
    · rfl
    · rw [hsound hfails k hk]
      rfl

theorem acquire_ok (h : acquire p call store = .ok version store') :
    ∃ registry, load MarketData.format store.registry call.reading = some registry ∧
      ((served p store call registry = .ok (some version) ∧ store' = store) ∨
        (served p store call registry = .ok none ∧ ∃ payload after,
          call.loader store = (some payload, after) ∧
          materialize p call registry payload after = .ok version store')) := by
  obtain ⟨current, same, hsame, h⟩ := runs_bind.mp h
  obtain ⟨rfl, rfl⟩ : store = current ∧ store = same := by cases hsame; exact ⟨rfl, rfl⟩
  cases hload : load MarketData.format store.registry call.reading with
  | none =>
    rw [hload] at h
    cases h
  | some registry =>
    rw [hload] at h
    simp only at h
    refine ⟨registry, rfl, ?_⟩
    cases hserved : served p store call registry with
    | error error =>
      rw [hserved] at h
      cases h
    | ok found =>
      rw [hserved] at h
      cases found with
      | some found =>
        cases h
        exact .inl ⟨rfl, rfl⟩
      | none =>
        obtain ⟨payload, after, hpayload, hmaterialize⟩ := runs_bind.mp h
        exact .inr ⟨rfl, payload, after, loaded_ok hpayload, hmaterialize⟩

def registryCall (p : Platform) (call : Call) (store : Store) (version : DatasetVersion) :
    MarketData.Acquire where
  canonical := call.key.canonical p
  serves existing :=
    match served p store call [(call.key.canonical p, .obj existing)] with
    | .error _ => none
    | .ok found => some found.isSome
  version := some version.asDict
  reading := call.reading
  writing := call.writing

theorem registry_materialize {registry : Document} {payload : Bytes}
    (h : materialize p call registry payload store = .ok version store') :
    store'.registry = save MarketData.format store.registry
      (Dict.set registry (call.key.canonical p) (.obj version.asDict)) call.writing := by
  obtain ⟨_, stored, hstored, h⟩ := runs_bind.mp h
  obtain ⟨provenance, recorded, hrecorded, h⟩ := runs_bind.mp h
  obtain ⟨_, written, hwritten, h⟩ := runs_bind.mp h
  cases h
  unfold writeRegistry at hwritten
  split at hwritten
  · cases hwritten
    rw [(storeProvenance_ok hrecorded).1, (storePayload_ok hstored).1]
  · cases hwritten

theorem registry_acquire (h : acquire p call store = .ok version store')
    (hloader : (call.loader store).2.registry = store.registry) :
    store'.registry = MarketData.acquire store.registry (registryCall p call store version) := by
  obtain ⟨registry, hload, hcase⟩ := acquire_ok h
  have hread : load MarketData.format store.registry
      (registryCall p call store version).update.reading = some registry := hload
  unfold MarketData.acquire update
  rw [hread, Option.bind_some]
  have hserves : ∀ existing, Dict.get? registry (call.key.canonical p) = some (.obj existing) →
      (registryCall p call store version).serves existing =
        match served p store call registry with
        | .error _ => none
        | .ok found => some found.isSome := by
    intro existing hexisting
    simp only [registryCall, served, hexisting, Dict.get?_cons, if_true]
  rcases hcase with ⟨hserved, rfl⟩ | ⟨hnone, payload, after, hafter, hmaterialize⟩
  · have hmutation : (registryCall p call store' version).update.mutation registry = none := by
      change MarketData.Acquire.mutation _ registry = none
      unfold MarketData.Acquire.mutation
      cases hentry : Dict.get? registry (registryCall p call store' version).canonical with
      | none =>
        have hentry' : Dict.get? registry (call.key.canonical p) = none := hentry
        simp [served, hentry'] at hserved
      | some entry =>
        have hentry' : Dict.get? registry (call.key.canonical p) = some entry := hentry
        cases entry with
        | obj existing => simp only [hserves existing hentry', hserved, Option.isSome_some]
        | _ => simp [served, hentry'] at hserved
    rw [hmutation]
  · have hmutation : (registryCall p call store version).update.mutation registry =
        some (Dict.set registry (call.key.canonical p) (.obj version.asDict)) := by
      change MarketData.Acquire.mutation _ registry = _
      unfold MarketData.Acquire.mutation
      cases hentry : Dict.get? registry (registryCall p call store version).canonical with
      | none => rfl
      | some entry =>
        cases entry with
        | obj existing =>
          simp only [hserves existing hentry, hnone, Option.isSome_none]
          rfl
        | _ => rfl
    rw [hmutation, registry_materialize hmaterialize]
    rw [hafter] at hloader
    rw [hloader]
    rfl

/-- A version that is returned matches the files, and the entries of the other keys stay, exactly if
the entry of the key is served or both the place of the payload and the reading are sound. -/
theorem acquired_matches_hash_iff (h : acquire p call store = .ok version store') :
    (Verified p call store' version ∧ OthersUnchanged p call store store') ↔
      Serves p call store ∨ (PlaceSound p call store ∧ ReadingSound p call store) := by
  obtain ⟨registry, hload, ⟨hserved, rfl⟩ | ⟨hnone, payload, after, hloader, hmaterialize⟩⟩ :=
    acquire_ok h
  · exact iff_of_true ⟨verified_of_served hserved, fun _ _ => rfl⟩
      (.inl ⟨registry, version, hload, hserved⟩)
  · have hnot : ¬ Serves p call store := by
      rintro ⟨registry', version', hload', hserved'⟩
      obtain rfl : registry = registry' := Option.some.inj (hload.symm.trans hload')
      rw [hnone] at hserved'
      cases hserved'
    rw [or_iff_right hnot, verified_materialize_iff hmaterialize, ← entries_of_load hload]
    refine and_congr ?_ ?_
    · constructor
      · intro hplace payload' after' hloader' node hnode
        rw [hloader] at hloader'
        cases hloader'
        exact hplace node hnode
      · intro hplace node hnode
        exact hplace payload after hloader node hnode
    · refine forall_congr' fun k => forall_congr' fun hk => ?_
      rw [record_materialize hmaterialize hk]

section

def trustedBytes : Bytes := "trusted".toUTF8.data.toList

def corruptBytes : Bytes := "corrupt".toUTF8.data.toList

def hourKey : DatasetKey :=
  { venue := "binance", market := "spot", symbol := "btcusdt", timeframe := "1h",
    start := "2024-01-01", «end» := "2024-02-01" }

def knownDigest (payload : Bytes) : ℕ :=
  if payload = trustedBytes then
    0xa9a089195c68d2adeee23beaa2c3a93b1d4cdf09046e7a9e520b3b166dff3e6a
  else if payload = corruptBytes then
    0x11d510e067d2cdcd7559bd86d27a2f4c20babd43670346b97af99b522c1f0075
  else 0x4baa889803da8a04d137f2c1d57f95ee6f9602e4b0334d100bcd6d04d62ae351

def knownPlatform : Platform where
  sha256 payload i := Fin.ofNat 16 (knownDigest payload / 16 ^ (63 - i.val))
  dumps _ := none
  str value := value.text?.getD ""
  int value := match value with
    | .num count => some count.num
    | _ => none
  clean := id

def trustedCall : Call :=
  { key := hourKey, loader := fun store => (some trustedBytes, store), provenance := none }

def corruptStore : Store where
  files path :=
    if path = destination knownPlatform hourKey trustedBytes then some (.file corruptBytes true)
    else none
  registry := {}

theorem acquired_matches_hash_iff_trusted :
    ∃ version store', acquire knownPlatform trustedCall corruptStore = .ok version store' ∧
      ((Verified knownPlatform trustedCall store' version ∧
          OthersUnchanged knownPlatform trustedCall corruptStore store') ↔
        Serves knownPlatform trustedCall corruptStore ∨
          (PlaceSound knownPlatform trustedCall corruptStore ∧
            ReadingSound knownPlatform trustedCall corruptStore)) := by
  cases h : acquire knownPlatform trustedCall corruptStore with
  | ok version store' => exact ⟨version, store', rfl, acquired_matches_hash_iff h⟩
  | error error store' =>
    have hok : (match acquire knownPlatform trustedCall corruptStore with
      | .ok _ _ => true
      | .error _ _ => false) = true := by decide +kernel
    rw [h] at hok
    cases hok

/-- The altered file is returned under the hash of the loaded bytes. -/
theorem corrupt_file_acquired :
    ∃ version store', acquire knownPlatform trustedCall corruptStore = .ok version store' ∧
      store'.files (PosixPath.parse version.path) = some (.file corruptBytes true) ∧
      ¬ Verified knownPlatform trustedCall store' version := by
  cases h : acquire knownPlatform trustedCall corruptStore with
  | ok version store' =>
    have hreturned : (match acquire knownPlatform trustedCall corruptStore with
      | .ok version store' =>
        decide (store'.files (PosixPath.parse version.path) = some (.file corruptBytes true) ∧
          knownPlatform.hexdigest corruptBytes ≠ version.sha256)
      | .error _ _ => false) = true := by decide +kernel
    rw [h] at hreturned
    obtain ⟨hfile, hhash⟩ := of_decide_eq_true hreturned
    refine ⟨version, store', rfl, hfile, ?_⟩
    rintro ⟨⟨contents, readable, hcontents, hsame⟩, -⟩
    rw [hfile] at hcontents
    cases hcontents
    exact hhash hsame
  | error error store' =>
    have hok : (match acquire knownPlatform trustedCall corruptStore with
      | .ok _ _ => true
      | .error _ _ => false) = true := by decide +kernel
    rw [h] at hok
    cases hok

end

end VersionedMarketDataService

end ChainQuantStudio.Studio
