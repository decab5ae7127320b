import ChainQuantStudio.Library.Columns
import ChainQuantStudio.Library.Json
import ChainQuantStudio.Library.PythonText

/-!
# Starting an approved signal

`start_signal` joins three stores that change on their own: the orders, the artifact registry and
the manifests on disk. All three are read here as they are found, whatever they hold.
-/

namespace ChainQuantStudio.Studio

open Columns Json

/-- What a start reads: the orders of the durable store, the records of the registry, and the bytes
of the manifest `signals/implemented/<id>/<version>.toml`, where there is one. -/
structure Stores where
  workOrders : List Json
  records : List Json
  manifest : String → String → Option (List UInt8)

structure StartDecision where
  strategyId : Option String := none
  artifactId : Option String := none

inductive StartOutcome
  | denied (reply : String)
  | selected (signalId version : String)
  deriving DecidableEq, Repr

section

variable (sha256 : List UInt8 → String) (stores : Stores)

def validRecord (record : Json) : Except PyError (Option ((String × String) × String)) := do
  let artifactId ← record.get "artifact_id"
  let version ← record.get "artifact_version"
  let workOrder ← record.get "work_order"
  let expectedHash ← record.get "manifest_sha256"
  match artifactId.nonempty?, version.nonempty?, workOrder.nonempty?, expectedHash.nonempty? with
  | some artifactId, some version, some workOrder, some expectedHash =>
    if (stores.manifest artifactId version).map sha256 ≠ some expectedHash then .ok none
    else .ok (some ((artifactId, version), workOrder))
  | _, _, _, _ => .ok none

def registryOrders (valid : List ((String × String) × String)) (artifactId version : Json) :
    List String :=
  match artifactId.text?, version.text? with
  | some artifactId, some version =>
    (valid.filter fun entry => entry.1 = (artifactId, version)).map Prod.snd
  | _, _ => []

def readyForSignal (order : Json) : Except PyError Bool := do
  let kind ← order.get "artifact_kind"
  let status ← order.get "status"
  let stage ← order.get "stage"
  let operation ← order.get "operation"
  if kind.isText "signal" && status.isText "approved" && stage.isText "ready_for_signal" then
    operation.memOf ["create", "modify", "adopt"]
  else .ok false

def liveIsApproved (order : Json) : Except PyError Bool := do
  let approvals ← order.get "approvals"
  let live ← approvals.orEmpty.get "live"
  if live.isObject then
    let approved ← live.get "approved"
    .ok approved.isTrue
  else .ok false

def recordedVersion (valid : List ((String × String) × String)) (order : Json) :
    Except PyError (Option (String × String)) := do
  let artifactId ← order.get "artifact_id"
  let version ← order.get "artifact_version"
  let workOrder ← order.get "id"
  let operation ← order.get "operation"
  let registryOrders := registryOrders valid artifactId version
  match artifactId.text?, version.text? with
  | some artifactId, some version =>
    if registryOrders.isEmpty then .ok none
    else if operation.isText "adopt" then .ok (some (artifactId, version))
    else
      let recorded ← workOrder.memOf registryOrders
      .ok (if recorded then some (artifactId, version) else none)
  | _, _ => .ok none

def approvedVersion (valid : List ((String × String) × String)) (order : Json) :
    Except PyError (Option (String × String)) := do
  let ready ← readyForSignal order
  if ready then
    let approved ← liveIsApproved order
    if approved then recordedVersion valid order else .ok none
  else .ok none

def approvedSignalVersions : Except PyError (List (String × String)) := do
  let valid ← stores.records.mapM (validRecord sha256 stores)
  let approved ← stores.workOrders.mapM (approvedVersion (valid.filterMap id))
  return approved.filterMap id

/-- `requested.lower().replace("_", "-") if requested else ""`. -/
def signalId (decision : StartDecision) : String :=
  let requested := (decision.strategyId.filter (· ≠ "")).or decision.artifactId
  match requested with
  | none => ""
  | some requested =>
    String.ofList ((PythonText.lower requested.toList).map fun c => if c = '_' then '-' else c)

/-- The `start_signal` action up to the selection: a later order of one id overrides an earlier. -/
def startSignal (decision : StartDecision) : Except PyError StartOutcome := do
  let approved ← approvedSignalVersions sha256 stores
  let signalId := signalId decision
  if signalId = "" then
    return .denied "拒絕啟動：請指定已完成上線批准的 Signal Definition ID。"
  match approved.reverse.lookup signalId with
  | none => return .denied s!"拒絕啟動未核准 Signal {signalId}；請先完成其工作 DAG 與上線批准。"
  | some version => return .selected signalId version

end

/-- The fields that a record must have to vouch for a version. -/
structure Vouches (sha256 : List UInt8 → String) (stores : Stores) (record : Json)
    (artifactId version workOrder : String) : Prop where
  artifact_id : record.get "artifact_id" = .ok (.str artifactId)
  artifact_version : record.get "artifact_version" = .ok (.str version)
  work_order : record.get "work_order" = .ok (.str workOrder)
  manifest : ∃ hash, record.get "manifest_sha256" = .ok (.str hash) ∧
    (stores.manifest artifactId version).map sha256 = some hash

/-- A signal order, live-approved and ready, that is bound to a version. -/
structure ApprovedFor (order : Json) (artifactId version : String) : Prop where
  kind : order.get "artifact_kind" = .ok (.str "signal")
  status : order.get "status" = .ok (.str "approved")
  stage : order.get "stage" = .ok (.str "ready_for_signal")
  live : ∃ approvals live, order.get "approvals" = .ok approvals ∧
    approvals.get "live" = .ok live ∧ live.get "approved" = .ok (.bool true)
  artifact_id : order.get "artifact_id" = .ok (.str artifactId)
  artifact_version : order.get "artifact_version" = .ok (.str version)

variable {sha256 : List UInt8 → String} {stores : Stores} {record order : Json}
  {valid : List ((String × String) × String)} {artifactId version workOrder : String}

theorem validRecord_eq_some
    (h : validRecord sha256 stores record = .ok (some ((artifactId, version), workOrder))) :
    Vouches sha256 stores record artifactId version workOrder := by
  unfold validRecord at h
  obtain ⟨id', hid, h⟩ := bind_eq_ok.mp h
  obtain ⟨version', hversion, h⟩ := bind_eq_ok.mp h
  obtain ⟨order', horder, h⟩ := bind_eq_ok.mp h
  obtain ⟨hash', hhash, h⟩ := bind_eq_ok.mp h
  split at h
  case h_1 _ _ hash hid' hversion' horder' hhash' =>
    split_ifs at h with hmanifest
    · cases h
    · simp only [Except.ok.injEq, Option.some.injEq, Prod.mk.injEq] at h
      obtain ⟨⟨rfl, rfl⟩, rfl⟩ := h
      rw [(nonempty?_eq_some.mp hid').1] at hid
      rw [(nonempty?_eq_some.mp hversion').1] at hversion
      rw [(nonempty?_eq_some.mp horder').1] at horder
      rw [(nonempty?_eq_some.mp hhash').1] at hhash
      exact ⟨hid, hversion, horder, hash, hhash, not_not.mp hmanifest⟩
  case h_2 => cases h

theorem readyForSignal_eq_true (h : readyForSignal order = .ok true) :
    order.get "artifact_kind" = .ok (.str "signal") ∧
      order.get "status" = .ok (.str "approved") ∧
      order.get "stage" = .ok (.str "ready_for_signal") := by
  unfold readyForSignal at h
  obtain ⟨kind, hkind, h⟩ := bind_eq_ok.mp h
  obtain ⟨status, hstatus, h⟩ := bind_eq_ok.mp h
  obtain ⟨stage, hstage, h⟩ := bind_eq_ok.mp h
  obtain ⟨operation, -, h⟩ := bind_eq_ok.mp h
  split_ifs at h with hready
  · simp only [Bool.and_eq_true, isText_iff] at hready
    obtain ⟨⟨rfl, rfl⟩, rfl⟩ := hready
    exact ⟨hkind, hstatus, hstage⟩
  · cases h

theorem liveIsApproved_eq_true (h : liveIsApproved order = .ok true) :
    ∃ approvals live, order.get "approvals" = .ok approvals ∧
      approvals.get "live" = .ok live ∧ live.get "approved" = .ok (.bool true) := by
  unfold liveIsApproved at h
  obtain ⟨approvals, happrovals, h⟩ := bind_eq_ok.mp h
  obtain ⟨live, hlive, h⟩ := bind_eq_ok.mp h
  split_ifs at h with hobject
  · obtain ⟨approved, happroved, h⟩ := bind_eq_ok.mp h
    rw [isTrue_iff.mp (Except.ok.inj h)] at happroved
    unfold orEmpty at hlive
    split_ifs at hlive
    · exact ⟨approvals, live, happrovals, hlive, happroved⟩
    · -- an empty dictionary has no decision
      obtain rfl : Json.null = live := Except.ok.inj hlive
      cases hobject
  · cases h

theorem mem_registryOrders {artifactId' version' : Json} {name : String}
    (h : name ∈ registryOrders valid artifactId' version') (hid : artifactId' = .str artifactId)
    (hversion : version' = .str version) : ((artifactId, version), name) ∈ valid := by
  subst hid hversion
  simp only [registryOrders, text?, List.mem_map, List.mem_filter, decide_eq_true_eq] at h
  obtain ⟨entry, ⟨hentry, hkey⟩, rfl⟩ := h
  rw [← hkey]
  exact hentry

theorem recordedVersion_eq_some
    (h : recordedVersion valid order = .ok (some (artifactId, version))) :
    order.get "artifact_id" = .ok (.str artifactId) ∧
      order.get "artifact_version" = .ok (.str version) ∧
      ∃ name, ((artifactId, version), name) ∈ valid ∧
        (order.get "operation" = .ok (.str "adopt") ∨ order.get "id" = .ok (.str name)) := by
  unfold recordedVersion at h
  obtain ⟨id', hid, h⟩ := bind_eq_ok.mp h
  obtain ⟨version', hversion, h⟩ := bind_eq_ok.mp h
  obtain ⟨name', hname, h⟩ := bind_eq_ok.mp h
  obtain ⟨operation, hoperation, h⟩ := bind_eq_ok.mp h
  dsimp only at h
  split at h
  case h_2 => cases h
  case h_1 artifactId' version'' hid' hversion' =>
    have hid'' := text?_eq_some.mp hid'
    have hversion'' := text?_eq_some.mp hversion'
    split_ifs at h with hempty hadopt
    · cases h
    · simp only [Except.ok.injEq, Option.some.injEq, Prod.mk.injEq] at h
      obtain ⟨rfl, rfl⟩ := h
      obtain ⟨name, hmem⟩ := List.exists_mem_of_ne_nil _ (mt List.isEmpty_iff.mpr hempty)
      refine ⟨hid'' ▸ hid, hversion'' ▸ hversion, name, mem_registryOrders hmem hid'' hversion'', ?_⟩
      exact .inl (isText_iff.mp hadopt ▸ hoperation)
    · obtain ⟨recorded, hrecorded, h⟩ := bind_eq_ok.mp h
      split_ifs at h with hin
      · subst hin
        simp only [Except.ok.injEq, Option.some.injEq, Prod.mk.injEq] at h
        obtain ⟨rfl, rfl⟩ := h
        obtain ⟨name, hmem, rfl⟩ := memOf_eq_ok_true.mp hrecorded
        exact ⟨hid'' ▸ hid, hversion'' ▸ hversion, name,
          mem_registryOrders hmem hid'' hversion'', .inr hname⟩
      · cases h

theorem approvedVersion_eq_some
    (h : approvedVersion valid order = .ok (some (artifactId, version))) :
    ApprovedFor order artifactId version ∧ ∃ name, ((artifactId, version), name) ∈ valid ∧
      (order.get "operation" = .ok (.str "adopt") ∨ order.get "id" = .ok (.str name)) := by
  unfold approvedVersion at h
  obtain ⟨ready, hready, h⟩ := bind_eq_ok.mp h
  cases ready with
  | false => cases h
  | true =>
    obtain ⟨approved, happroved, h⟩ := bind_eq_ok.mp h
    cases approved with
    | false => cases h
    | true =>
      obtain ⟨hkind, hstatus, hstage⟩ := readyForSignal_eq_true hready
      obtain ⟨hid, hversion, hrecorded⟩ := recordedVersion_eq_some h
      exact ⟨⟨hkind, hstatus, hstage, liveIsApproved_eq_true happroved, hid, hversion⟩, hrecorded⟩

theorem mem_approvedSignalVersions {approved : List (String × String)}
    (h : approvedSignalVersions sha256 stores = .ok approved)
    (hmem : (artifactId, version) ∈ approved) :
    ∃ order ∈ stores.workOrders, ApprovedFor order artifactId version ∧
      ∃ record ∈ stores.records, ∃ name, Vouches sha256 stores record artifactId version name ∧
        (order.get "operation" = .ok (.str "adopt") ∨ order.get "id" = .ok (.str name)) := by
  unfold approvedSignalVersions at h
  obtain ⟨valid, hvalid, h⟩ := bind_eq_ok.mp h
  obtain ⟨versions, hversions, h⟩ := bind_eq_ok.mp h
  obtain rfl := Except.ok.inj h
  obtain ⟨found, hfound, heq⟩ := List.mem_filterMap.mp hmem
  obtain rfl : found = some (artifactId, version) := heq
  obtain ⟨order, horder, hversion⟩ := exists_of_forall₂_right (mapM_eq_ok_iff.mp hversions) hfound
  obtain ⟨happroved, name, hname, howner⟩ := approvedVersion_eq_some hversion
  obtain ⟨entry, hentry, heq⟩ := List.mem_filterMap.mp hname
  obtain rfl : entry = some ((artifactId, version), name) := heq
  obtain ⟨record, hrecord, hvouches⟩ := exists_of_forall₂_right (mapM_eq_ok_iff.mp hvalid) hentry
  exact ⟨order, horder, happroved, record, hrecord, name, validRecord_eq_some hvouches, howner⟩

/-- What `start_signal` selects is bound to a ready, live-approved signal order, and the manifest on
disk is the one a registry record of that version holds, recorded for the order or adopted by it. -/
theorem startSignal_selects_approved (sha256 : List UInt8 → String) (stores : Stores)
    (decision : StartDecision) (signalId version : String)
    (h : startSignal sha256 stores decision = .ok (.selected signalId version)) :
    ∃ order ∈ stores.workOrders, ApprovedFor order signalId version ∧
      ∃ record ∈ stores.records, ∃ name, Vouches sha256 stores record signalId version name ∧
        (order.get "operation" = .ok (.str "adopt") ∨ order.get "id" = .ok (.str name)) := by
  unfold startSignal at h
  obtain ⟨approved, happroved, h⟩ := bind_eq_ok.mp h
  dsimp only at h
  split_ifs at h with hempty
  · cases h
  · split at h
    · cases h
    · rename_i found hlookup
      simp only [pure, Except.pure, Except.ok.injEq, StartOutcome.selected.injEq] at h
      obtain ⟨rfl, rfl⟩ := h
      apply mem_approvedSignalVersions happroved
      obtain ⟨later, earlier, heq, -⟩ := List.lookup_eq_some_iff.mp hlookup
      apply List.mem_reverse.mp
      rw [heq]
      exact List.mem_append_right later List.mem_cons_self

/-! One approved order and its record; the manifest on disk is empty. -/

def emptyManifestHash : String :=
  "e3b0c44298fc1c149afbf4c8996fb92427ae41e4649b934ca495991b7852b855"

def approvedStores : Stores where
  workOrders := [.obj
    [("id", .str "strategy-1"), ("artifact_kind", .str "signal"), ("status", .str "approved"),
      ("stage", .str "ready_for_signal"), ("operation", .str "create"),
      ("approvals", .obj [("live", .obj [("approved", .bool true)])]),
      ("artifact_id", .str "rsi-divergence"), ("artifact_version", .str "1.0.0")]]
  records := [.obj
    [("work_order", .str "strategy-1"), ("artifact_id", .str "rsi-divergence"),
      ("artifact_version", .str "1.0.0"), ("manifest_sha256", .str emptyManifestHash)]]
  manifest := fun _ _ => some []

theorem startSignal_selects_approved_of_record :
    ∃ order ∈ approvedStores.workOrders, ApprovedFor order "rsi-divergence" "1.0.0" ∧
      ∃ record ∈ approvedStores.records, ∃ name,
        Vouches (fun bytes => if bytes = [] then emptyManifestHash else "") approvedStores record
          "rsi-divergence" "1.0.0" name ∧
        (order.get "operation" = .ok (.str "adopt") ∨ order.get "id" = .ok (.str name)) :=
  startSignal_selects_approved (fun bytes => if bytes = [] then emptyManifestHash else "")
    approvedStores { strategyId := some "RSI_Divergence" } "rsi-divergence" "1.0.0"
    (by decide +kernel)

end ChainQuantStudio.Studio
