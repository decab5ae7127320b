import ChainQuantStudio.Library.Dict
import ChainQuantStudio.Library.Json
import ChainQuantStudio.Library.ReplacedFile
import ChainQuantStudio.Studio.Approval

/-!
# The durable stores

The order store, the artifact registry and the registry of market datasets rewrite one JSON file
each, and take a failed read of it for an empty one.
-/

namespace ChainQuantStudio.Studio

open ReplacedFile

abbrev Document := List (String × Json)

/-- A key as a dictionary compares it: `True` is 1, and a list or a dictionary is no key. -/
inductive DictKey
  | none
  | number (value : ℚ)
  | text (value : String)
  deriving DecidableEq

def dictKey : Json → Option DictKey
  | .null => some .none
  | .bool value => some (.number (if value then 1 else 0))
  | .num value => some (.number value)
  | .str value => some (.text value)
  | .arr _ | .obj _ => none

def acceptObject : Json → Option Document
  | .obj fields => some fields
  | _ => none

namespace JsonStateStore

/-- `JsonStateStore._read_unlocked` and `_write_unlocked`. -/
def format : Format Json Document where
  accept := acceptObject
  document := .obj
  empty := [("messages", .arr []), ("work_orders", .arr [])]
  accept_document _ := rfl

def orderIds (state : Document) : List String :=
  match Dict.get? state "work_orders" with
  | some (.arr orders) =>
    orders.filterMap fun order =>
      (acceptObject order).bind fun fields => (Dict.get? fields "id").bind Json.text?
  | _ => []

/-- What a store promises over its updates: the file decodes, to the state after completed
mutations in their order, and an order leaves it only through a mutation that leaves it out. -/
def KeepsCommitted (disk : Disk Json) (updates : List (Update Json Document)) : Prop :=
  ∀ before, before <+: updates →
    Decodes format (Run.run (update format) disk before) ∧
    (∃ done, done <+: completed format disk before ∧
      held format (Run.run (update format) disk before) = replay (held format disk) done) ∧
    ∀ u, before ++ [u] <+: updates →
      ∀ order ∈ orderIds (held format (Run.run (update format) disk before)),
        (∀ state, u.mutation (held format (Run.run (update format) disk before)) = some state →
          order ∈ orderIds state) →
        order ∈ orderIds (held format (Run.run (update format) disk (before ++ [u])))

theorem keepsCommitted_of_guarded {disk : Disk Json} {updates : List (Update Json Document)}
    (hdisk : Decodes format disk)
    (h : Run.Guarded (update format) (Harmless format) disk updates) :
    KeepsCommitted disk updates := by
  intro before hbefore
  obtain ⟨after, rfl⟩ := hbefore
  have hfirst := (Run.guarded_append.mp h).1
  refine ⟨?_, ⟨completed format disk before, List.prefix_rfl, held_run hfirst⟩, ?_⟩
  · exact Run.run_invariant (Decodes format) (fun _ u hs => decodes_update hs u) hdisk before
  · intro u hu order horder hkeeps
    have hrest := (Run.guarded_append.mp h).2
    obtain ⟨rest, rfl⟩ := (List.prefix_append_right_inj before).mp hu
    rw [Run.run_append]
    have hstep : Harmless format (Run.run (update format) disk before) u := hrest.1
    refine kept_update (fun state => order ∈ orderIds state) horder hkeeps ?_
    intro hfails hwriting state hstate
    have hheld := hstep hfails (by simp [hstate]) hwriting
    exact hkeeps state (hheld.symm ▸ hstate)

end JsonStateStore

/-- The other keys' records stay as they are at each step of a run. -/
def KeepsOthers {σ ε κ ρ : Type*} (step : σ → ε → σ) (key : ε → κ) (record : σ → κ → ρ) (s : σ)
    (inputs : List ε) : Prop :=
  ∀ before input, before ++ [input] <+: inputs → ∀ k ≠ key input,
    record (Run.run step s (before ++ [input])) k = record (Run.run step s before) k

theorem keepsOthers_iff_guarded {σ ε κ ρ : Type*} {step : σ → ε → σ} {guard : σ → ε → Prop}
    {key : ε → κ} {record : σ → κ → ρ}
    (hstep : ∀ s input,
      (∀ k ≠ key input, record (step s input) k = record s k) ↔ guard s input)
    {s : σ} {inputs : List ε} :
    KeepsOthers step key record s inputs ↔ Run.Guarded step guard s inputs := by
  rw [Run.guarded_iff_forall_prefix]
  simp only [KeepsOthers, Run.run_append, Run.run_cons, Run.run_nil, hstep]

namespace ArtifactRegistry

def format : Format Json (List Document) where
  accept
    | .arr items => some (items.filterMap acceptObject)
    | _ => none
  document records := .arr (records.map .obj)
  empty := []
  accept_document records := by
    have h : acceptObject ∘ Json.obj = some := rfl
    change some ((records.map Json.obj).filterMap acceptObject) = some records
    rw [List.filterMap_map, h, List.filterMap_some]

def ofOption : Option String → Json
  | none => .null
  | some value => .str value

def asDict (record : ArtifactRecord) : Document :=
  [("work_order", .str record.workOrder), ("artifact_kind", .str record.artifactKind.value),
   ("artifact_id", ofOption record.artifactId),
   ("artifact_version", ofOption record.artifactVersion),
   ("manifest_sha256", ofOption record.manifestSha256)]

/-- `item["work_order"]` as a key, which raises where it is missing or no key. -/
def workOrderKey (item : Document) : Option DictKey :=
  (Dict.get? item "work_order").bind dictKey

structure Upsert where
  record : ArtifactRecord
  reading : Reading := .contents
  writing : Writing Json := .replaced

def Upsert.key (u : Upsert) : DictKey := .text u.record.workOrder

def Upsert.update (u : Upsert) : Update Json (List Document) where
  mutation items :=
    (Dict.ofItems workOrderKey items).map fun values =>
      (Dict.set values u.key (asDict u.record)).map Prod.snd
  reading := u.reading
  writing := u.writing

def upsert (disk : Disk Json) (u : Upsert) : Disk Json := ReplacedFile.update format disk u.update

/-- The record the file holds under a key. -/
def record (disk : Disk Json) (key : DictKey) : Option Document :=
  Dict.lastOf workOrderKey (held format disk) key

theorem workOrderKey_asDict (record : ArtifactRecord) :
    workOrderKey (asDict record) = some (.text record.workOrder) := by
  simp [workOrderKey, asDict, Dict.get?_cons, dictKey]

theorem upsert_others {u : Upsert} {items result : List Document}
    (h : u.update.mutation items = some result) {k : DictKey} (hk : k ≠ u.key) :
    Dict.lastOf workOrderKey result k = Dict.lastOf workOrderKey items k := by
  obtain ⟨values, hvalues, rfl⟩ := Option.map_eq_some_iff.mp h
  have hkey : workOrderKey (asDict u.record) = some u.key := workOrderKey_asDict u.record
  have hset := (Dict.collects_ofItems hvalues).set hkey
  rw [Dict.lastOf_values hset.own hset.unique, hset.last, Dict.lastOf_concat, hkey, if_neg]
  intro heq
  exact hk (Option.some.inj heq).symm

/-- An upsert whose read fails and whose write completes finds no record under another key. -/
def Safe (disk : Disk Json) (u : Upsert) : Prop :=
  u.reading.Fails → u.writing.completes → ∀ k ≠ u.key, record disk k = none

theorem record_upsert_iff (disk : Disk Json) (u : Upsert) :
    (∀ k ≠ u.key, record (upsert disk u) k = record disk k) ↔ Safe disk u := by
  constructor
  · intro h hfails hwriting k hk
    have hresult : u.update.mutation format.empty = some [asDict u.record] := rfl
    have hheld : held format (upsert disk u) = [asDict u.record] :=
      held_update_of_fails hfails hwriting hresult
    rw [← h k hk, record, hheld]
    exact upsert_others hresult hk
  · intro hsafe k hk
    refine kept_update (fun items => Dict.lastOf workOrderKey items k = record disk k) rfl
      (fun _ hresult => upsert_others hresult hk) ?_
    intro hfails hwriting result hresult
    rw [upsert_others hresult hk, hsafe hfails hwriting k hk]
    rfl

end ArtifactRegistry

namespace MarketData

def format : Format Json Document where
  accept := acceptObject
  document := .obj
  empty := []
  accept_document _ := rfl

/-- A call of `acquire`: whether the checks let an entry serve (`none` where they raise), and the
version made from the loaded bytes (`none` where the loader raises or returns nothing). -/
structure Acquire where
  canonical : String
  serves : Document → Option Bool
  version : Option Document
  reading : Reading := .contents
  writing : Writing Json := .replaced

def Acquire.mutation (a : Acquire) (registry : Document) : Option Document :=
  let stored := a.version.map fun version => Dict.set registry a.canonical (.obj version)
  match Dict.get? registry a.canonical with
  | some (.obj existing) =>
    match a.serves existing with
    | some false => stored
    | _ => none
  | _ => stored

def Acquire.update (a : Acquire) : Update Json Document :=
  ⟨a.mutation, a.reading, a.writing⟩

def acquire (disk : Disk Json) (a : Acquire) : Disk Json := ReplacedFile.update format disk a.update

def record (disk : Disk Json) (key : String) : Option Json := Dict.get? (held format disk) key

theorem Acquire.mutation_others {a : Acquire} {registry result : Document}
    (h : a.update.mutation registry = some result) {k : String} (hk : k ≠ a.canonical) :
    Dict.get? result k = Dict.get? registry k := by
  change a.mutation registry = some result at h
  have hstored : (a.version.map fun version => Dict.set registry a.canonical (.obj version)) =
      some result := by
    unfold Acquire.mutation at h
    split at h
    · split at h
      · exact h
      · cases h
    · exact h
  obtain ⟨version, -, rfl⟩ := Option.map_eq_some_iff.mp hstored
  rw [Dict.get?_set, if_neg hk.symm]

/-- A call whose read fails and that goes on to write a version finds no record under another
key. -/
def Safe (disk : Disk Json) (a : Acquire) : Prop :=
  a.reading.Fails → a.version.isSome → a.writing.completes →
    ∀ k ≠ a.canonical, record disk k = none

theorem record_acquire_iff (disk : Disk Json) (a : Acquire) :
    (∀ k ≠ a.canonical, record (acquire disk a) k = record disk k) ↔ Safe disk a := by
  constructor
  · intro h hfails hversion hwriting k hk
    obtain ⟨version, hversion⟩ := Option.isSome_iff_exists.mp hversion
    have hresult : a.update.mutation format.empty = some [(a.canonical, .obj version)] := by
      simp [Acquire.update, Acquire.mutation, format, hversion, Dict.set]
    have hheld : held format (acquire disk a) = [(a.canonical, .obj version)] :=
      held_update_of_fails hfails hwriting hresult
    rw [← h k hk, record, hheld]
    exact Acquire.mutation_others hresult hk
  · intro hsafe k hk
    refine kept_update (fun registry => Dict.get? registry k = record disk k) rfl
      (fun _ hresult => Acquire.mutation_others hresult hk) ?_
    intro hfails hwriting result hresult
    have hversion : a.version.isSome := by
      cases hv : a.version with
      | some version => rfl
      | none => simp [Acquire.update, Acquire.mutation, format, hv] at hresult
    rw [Acquire.mutation_others hresult hk, hsafe hfails hversion hwriting k hk]
    rfl

end MarketData

/-- Where no update that replaces the order store has taken a failed read of a file with contents
for an empty one, the store keeps what was committed. The two registries keep the records of all
other keys exactly where no write after a failed read finds any. -/
theorem stores_keep_committed (orders : Disk Json) (updates : List (Update Json Document))
    (records : Disk Json) (upserts : List ArtifactRegistry.Upsert)
    (datasets : Disk Json) (acquires : List MarketData.Acquire) :
    (Decodes JsonStateStore.format orders →
      Run.Guarded (update JsonStateStore.format) (Harmless JsonStateStore.format) orders updates →
      JsonStateStore.KeepsCommitted orders updates) ∧
    (KeepsOthers ArtifactRegistry.upsert ArtifactRegistry.Upsert.key ArtifactRegistry.record records
      upserts ↔ Run.Guarded ArtifactRegistry.upsert ArtifactRegistry.Safe records upserts) ∧
    (KeepsOthers MarketData.acquire MarketData.Acquire.canonical MarketData.record datasets
      acquires ↔ Run.Guarded MarketData.acquire MarketData.Safe datasets acquires) := by
  refine ⟨?_, ?_, ?_⟩
  · intro hdisk h
    exact JsonStateStore.keepsCommitted_of_guarded hdisk h
  · exact keepsOthers_iff_guarded ArtifactRegistry.record_upsert_iff
  · exact keepsOthers_iff_guarded MarketData.record_acquire_iff

section

def appendOrder (identifier : String) (state : Document) : Option Document :=
  let order : Json := .obj [("id", .str identifier)]
  match Dict.get? state "work_orders" with
  | some (.arr orders) => some (Dict.set state "work_orders" (.arr (orders ++ [order])))
  | _ => some (Dict.set state "work_orders" (.arr [order]))

def harmlessUpdates : List (Update Json Document) :=
  [⟨appendOrder "a", .osError, .replaced⟩, ⟨appendOrder "b", .contents, .unreplaced⟩,
   ⟨appendOrder "c", .malformed, .torn .malformed⟩, ⟨appendOrder "d", .contents, .replaced⟩]

theorem stores_keep_committed_harmless :
    JsonStateStore.KeepsCommitted {} harmlessUpdates ∧
      JsonStateStore.orderIds (held JsonStateStore.format
        (Run.run (update JsonStateStore.format) {} harmlessUpdates)) = ["a", "d"] := by
  refine ⟨(stores_keep_committed {} harmlessUpdates {} [] {} []).1 (by simp [Decodes]) ?_, by decide⟩
  refine ⟨fun _ _ _ => rfl, fun h => ?_, fun _ _ h => ?_, fun h => ?_, trivial⟩
  · rcases h with h | h <;> cases h
  · cases h
  · rcases h with h | h <;> cases h

def forgetfulUpdates : List (Update Json Document) :=
  [{ mutation := appendOrder "a" }, { mutation := appendOrder "b", reading := .osError }]

def forgetfulUpserts : List ArtifactRegistry.Upsert :=
  [{ record := { workOrder := "a", artifactKind := .signal } },
   { record := { workOrder := "b", artifactKind := .signal }, reading := .osError }]

def forgetfulAcquires : List MarketData.Acquire :=
  [{ canonical := "a", serves := fun _ => some true, version := some [] },
   { canonical := "b", serves := fun _ => some true, version := some [], reading := .osError }]

/-- One failed read between two writes: each store has then lost what the first write
committed. -/
theorem failed_reads_lose_records :
    ¬ JsonStateStore.KeepsCommitted {} forgetfulUpdates ∧
    ¬ KeepsOthers ArtifactRegistry.upsert ArtifactRegistry.Upsert.key ArtifactRegistry.record {}
      forgetfulUpserts ∧
    ¬ KeepsOthers MarketData.acquire MarketData.Acquire.canonical MarketData.record {}
      forgetfulAcquires := by
  refine ⟨fun h => ?_, fun h => ?_, fun h => ?_⟩
  · obtain ⟨-, -, hkept⟩ := h [{ mutation := appendOrder "a" }] (by simp [forgetfulUpdates])
    have hlost := hkept { mutation := appendOrder "b", reading := .osError } List.prefix_rfl "a"
      (by decide) (by rintro state ⟨⟩; decide)
    exact absurd hlost (by decide)
  · have hlost := congrArg Option.isSome
      (h [_] _ (List.prefix_rfl (l := forgetfulUpserts)) (.text "a") (by decide))
    exact absurd hlost (by decide)
  · have hlost := congrArg Option.isSome
      (h [_] _ (List.prefix_rfl (l := forgetfulAcquires)) "a" (by decide))
    exact absurd hlost (by decide)

end

end ChainQuantStudio.Studio
