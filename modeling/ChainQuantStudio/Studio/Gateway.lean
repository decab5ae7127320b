import ChainQuantStudio.Library.Run
import ChainQuantStudio.Studio.Approval

/-!
# The gateway as a transition system

One worker executes claimed orders, users decide, cancel, retry and create, and the process may stop
or crash. A step is what happens between two suspensions of the event loop. The history is no part
of the gateway: it notes the agent turns that returned and what each completed strategy stage bound,
for the properties to refer to.
-/

namespace ChainQuantStudio.Studio

/-- The worker task. `claimed` is an execution whose task has not run yet, and `closing` one that
has written its order and waits for its heartbeat to end; an exception out of it stops the worker. -/
inductive Worker
  | stopped
  | starting
  | idle
  | claimed (order : WorkOrder)
  | running (e : Execution) (on : Await)
  | closing (identifier : String) (stops : Bool)

def Worker.activeId : Worker → Option String
  | .claimed order => some order.id
  | .running e _ => some e.order.id
  | .closing identifier _ => some identifier
  | _ => none

structure AgentTurn where
  workOrder : String
  turn : Turn
  reply : String
  deriving DecidableEq, Repr

structure Implementation where
  workOrder : String
  evidence : String
  identified : Option (String × String)
  bound : Option String × Option String
  deriving DecidableEq, Repr

structure History where
  turns : List AgentTurn := []
  implementations : List Implementation := []

structure Gateway where
  durable : Durable := {}
  worker : Worker := .stopped
  cancelRequested : List String := []
  history : History := {}

inductive NewWork
  | maintenance
  | research (kind : ArtifactKind) (backtestRequired : Bool) (operation : Operation)
      (artifactId : Option String) (uploaded : Bool)
  | adoption (kind : ArtifactKind) (artifactId version : String) (backtestRequired : Bool)
      (manifestExists : Bool) (note : String)

inductive Event
  | create (work : NewWork) (stamp : String)
  | start
  | recover
  | claim
  | begin
  | reply (text : String)
  | acquisitionFailed (detail : String)
  | raise (failure : Failure)
  | close
  | cancel (identifier : Option String)
  | stop
  | crash
  | resumeQuota (identifier : Option String)
  | approve (identifier : String) (gate : ApprovalGate) (approved : Bool) (note : String)
  | retry (identifier artifactId artifactVersion reason : String)

structure Input where
  event : Event
  outside : Outside := {}

def inputsOf (outside : Outside) (events : List Event) : List Input :=
  events.map fun event => { event := event, outside := outside }

def Status.adoptionOpen : Status → Bool
  | .queued | .working | .awaitingImplementationApproval | .awaitingBacktestApproval
  | .awaitingLiveApproval | .approved => true
  | _ => false

def WorkOrder.adopts (kind : ArtifactKind) (artifactId version : String) (order : WorkOrder) :
    Bool :=
  order.operation == .adopt && order.artifactKind == kind && order.artifactId == some artifactId &&
    order.artifactVersion == some version && order.status.adoptionOpen

/-- The order a request makes, if the request is accepted. -/
def NewWork.order (work : NewWork) (stamp : String) (store : Store) : Option WorkOrder :=
  match work with
  | .maintenance => some (createWorkOrder stamp .maintenance .maintenance true .create none)
  | .research kind backtestRequired operation artifactId _ =>
    if kind = .maintenance then none
    else some (createWorkOrder stamp .strategy kind backtestRequired operation artifactId)
  | .adoption kind artifactId version backtestRequired manifestExists note =>
    if kind = .maintenance ∨ isKebabCase artifactId = false ∨ isSemanticVersion version = false ∨
        PythonText.isBlank note.toList ∨ manifestExists = false ∨
        store.workOrders.entries.any (·.adopts kind artifactId version) then none
    else
      let registry := if kind = .signal then "signals" else "strategies"
      some (adoptionOrder stamp kind artifactId version
        (registry ++ "/implemented/" ++ artifactId ++ "/" ++ version ++ ".toml") backtestRequired)

theorem NewWork.order_spec {work : NewWork} {stamp : String} {store : Store} {order : WorkOrder}
    (h : work.order stamp store = some order) :
    order.status = .queued ∧
      (order.stage = none ∨ order.stage = some .reviewImplementation) ∧
      order.lastError = none ∧ order.attempts = 0 ∧ order.issueCounts = [] := by
  cases work with
  | maintenance =>
    rw [← Option.some.inj h]
    exact ⟨rfl, .inl rfl, rfl, rfl, rfl⟩
  | research kind backtestRequired operation artifactId uploaded =>
    simp only [NewWork.order] at h
    split at h
    · cases h
    · rw [← Option.some.inj h]
      exact ⟨rfl, .inl rfl, rfl, rfl, rfl⟩
  | adoption kind artifactId version backtestRequired manifestExists note =>
    simp only [NewWork.order] at h
    split at h
    · cases h
    · rw [← Option.some.inj h]
      exact ⟨rfl, .inr rfl, rfl, rfl, rfl⟩

/-- An uploaded specification is put on record before anything is implemented. -/
def NewWork.uploaded : NewWork → Bool
  | .research _ _ _ _ uploaded => uploaded
  | _ => false

namespace WorkOrder

/-- The change `_claim_next` makes. -/
def claimed (order : WorkOrder) : WorkOrder :=
  { order with
    status := .working
    stage := some order.resumeStage
    retryNotBefore := none
    lastError := none
    checkpoints := order.checkpoints ++ [{ stage := order.resumeStage, status := "working" }] }

def due (now : ℤ) (order : WorkOrder) : Bool :=
  order.status == .queued && order.retryNotBefore.all (· ≤ now)

/-- The change `cancel` makes to an order that is not being executed. -/
def cancelledIdle (order : WorkOrder) : WorkOrder :=
  { order with status := .cancelled, stage := some .cancelled }

/-- `resume_after_quota_reset` on one order. -/
def quotaResumed (identifier : Option String) (order : WorkOrder) : WorkOrder :=
  if order.status = .queued ∧ identifier.all (· == order.id) = true ∧
      isRetryableCodexError ("RuntimeError: " ++ order.lastError.getD "") = true then
    { order with retryNotBefore := none }
  else order

theorem claimed_id (order : WorkOrder) : order.claimed.id = order.id := rfl

theorem cancelledIdle_id (order : WorkOrder) : order.cancelledIdle.id = order.id := rfl

@[simp] theorem quotaResumed_id (identifier : Option String) (order : WorkOrder) :
    (order.quotaResumed identifier).id = order.id := by
  unfold quotaResumed
  split <;> rfl

theorem quotaResumed_status (identifier : Option String) (order : WorkOrder) :
    (order.quotaResumed identifier).status = order.status := by
  unfold quotaResumed
  split <;> rfl

end WorkOrder

namespace Gateway

variable (config : RunnerConfig) (g : Gateway)

def create (work : NewWork) (stamp : String) : Gateway :=
  match work.order stamp g.durable.store with
  | none => g
  | some order =>
    if h : g.durable.store.workOrders.find order.id = none then
      { g with
        durable :=
          { store := { g.durable.store with
              workOrders := g.durable.store.workOrders.append order h }
            artifacts :=
              if work.uploaded then
                g.durable.artifacts.upsert
                  { workOrder := order.id, artifactKind := order.artifactKind }
              else g.durable.artifacts } }
    else g

/-- `_circuit_delay` and `_claim_next`. -/
def claim (now : ℤ) : Gateway :=
  match g.worker with
  | .idle =>
    if g.durable.store.codexCircuit.any (now < ·.openUntil) then g
    else
      let store := { g.durable.store with codexCircuit := none }
      match store.workOrders.entries.find? (·.due now) with
      | none => { g with durable := { g.durable with store := store } }
      | some order =>
        { g with
          durable := { g.durable with
            store := { store with
              workOrders := store.workOrders.modify order.id (·.claimed) fun _ => rfl } }
          worker := .claimed order.claimed }
  | _ => g

/-- The worker after a handler of `_execute` ran. -/
def closing (identifier : String) (written : Durable × Option Failure) : Gateway :=
  { g with durable := written.1, worker := .closing identifier written.2.isSome }

/-- The worker after a segment of `_execute`. -/
def proceed (outside : Outside) (identifier : String) : Segment → Gateway
  | .awaiting d e on => { g with durable := d, worker := .running e on }
  | .returned d => { g with durable := d, worker := .closing identifier false }
  | .raised d e failure => g.closing identifier (e.handle config outside failure d)

def begin (outside : Outside) : Gateway :=
  match g.worker with
  | .claimed order =>
    g.proceed config outside order.id
      ((Execution.ofClaimed order).begin outside g.durable)
  | _ => g

def noteReply (outside : Outside) (text : String) (e : Execution) (on : Await)
    (next : Gateway) : History :=
  match on with
  | .dataset => g.history
  | .turn turn =>
    { turns := g.history.turns ++
        [{ workOrder := e.order.id, turn := turn, reply := text }]
      implementations :=
        match turn with
        | .strategy _ =>
          g.history.implementations ++
            [{ workOrder := e.order.id, evidence := text
               identified := identifiedArtifact outside.manifests e.order text
               bound := ((next.durable.find e.order.id).map (·.artifact)).getD (none, none) }]
        | _ => g.history.implementations }

def reply (outside : Outside) (text : String) : Gateway :=
  match g.worker with
  | .running e on =>
    let next := g.proceed config outside e.order.id
      (e.resume config outside on text g.durable)
    { next with history := g.noteReply outside text e on next }
  | _ => g

def acquisitionFailed (outside : Outside) (detail : String) : Gateway :=
  match g.worker with
  | .running e .dataset =>
    g.closing e.order.id (e.acquisitionFailed config outside detail g.durable)
  | _ => g

def raise (outside : Outside) (failure : Failure) : Gateway :=
  match g.worker with
  | .running e _ => g.closing e.order.id (e.handle config outside failure g.durable)
  | _ => g

def close : Gateway :=
  match g.worker with
  | .closing _ stops => { g with worker := if stops then .stopped else .idle }
  | _ => g

/-- A `CancelledError` reaches the worker. -/
def cancelWorker (outside : Outside) : Gateway :=
  match g.worker with
  | .running e _ =>
    let byUser := e.order.id ∈ g.cancelRequested
    let (d, _) := e.cancelled config outside byUser g.durable
    { g with
      durable := d
      worker := .closing e.order.id true
      cancelRequested := g.cancelRequested.filter (· != e.order.id) }
  | .claimed _ => { g with worker := .stopped }
  | _ => g

/-- The queued and working orders a `cancel` may mean. -/
def cancelCandidates (identifier : Option String) : List WorkOrder :=
  g.durable.store.workOrders.entries.filter fun order =>
    (order.status == .queued || order.status == .working) && identifier.all (· == order.id)

def cancel (outside : Outside) (identifier : Option String) : Gateway :=
  match g.cancelCandidates identifier with
  | [selected] =>
    if g.worker.activeId = some selected.id then
      ({ g with cancelRequested := selected.id :: g.cancelRequested } : Gateway).cancelWorker
        config outside
    else
      { g with durable := g.durable.modify selected.id (·.cancelledIdle) fun _ => rfl }
  | _ => g

/-- `close` of the runner. An execution that is closing ends before the worker does. -/
def stop (outside : Outside) : Gateway :=
  match g.worker with
  | .idle | .starting => { g with worker := .stopped }
  | .closing identifier _ => { g with worker := .closing identifier true }
  | _ => g.cancelWorker config outside

def recover (outside : Outside) : Gateway :=
  match g.worker with
  | .starting =>
    let (d, raised) := g.durable.recover config outside
    { g with durable := d, worker := if raised.isSome then .stopped else .idle }
  | _ => g

def resumeQuota (identifier : Option String) : Gateway :=
  if g.worker.activeId.isSome then g
  else
    { g with
      durable := g.durable.onStore fun s =>
        { s.mapOrders (·.quotaResumed identifier) (by simp) with codexCircuit := none }
      worker := .starting }

def approve (identifier : String) (gate : ApprovalGate) (approved : Bool) (note : String) :
    Gateway :=
  if PythonText.isBlank note.toList then g
  else
    match g.durable.find identifier with
    | none => g
    | some order =>
      match order.approval gate approved note with
      | .error _ => g
      | .ok next =>
        { g with
          durable := g.durable.modify identifier
            (fun current => { next with id := current.id }) fun _ => rfl }

/-- The statuses `retry_dead_letter_after_remediation` takes up. -/
def retryable : Status → Bool
  | .deadLetter | .failed | .awaitingUserInput => true
  | _ => false

def retry (outside : Outside) (identifier artifactId artifactVersion reason : String) : Gateway :=
  if PythonText.isBlank reason.toList ∨ isKebabCase artifactId = false ∨
      isSemanticVersion artifactVersion = false then g
  else
    match g.durable.find identifier with
    | none => g
    | some order =>
      if retryable order.status = false then g
      else
        match implementedManifest outside.manifests identifier order.artifactKind
            (some artifactId) (some artifactVersion) with
        | .ok (some _) =>
          let d := g.durable.modify identifier (·.retried artifactId artifactVersion reason)
            (WorkOrder.retried_id · artifactId artifactVersion reason)
          { g with
            durable := { d with
              store := { d.store with
                deadLetters := d.store.deadLetters.filter (·.id != identifier)
                userBlockers := d.store.userBlockers.map fun (key, blocker) =>
                  if key = workOrderBlocker identifier then
                    (key, { blocker with active := false })
                  else (key, blocker) } } }
        | _ => g

def crash : Gateway := { g with worker := .stopped, cancelRequested := [] }

def start : Gateway :=
  match g.worker with
  | .stopped => { g with worker := .starting }
  | _ => g

def step (g : Gateway) (input : Input) : Gateway :=
  match input.event with
  | .create work stamp => g.create work stamp
  | .start => g.start
  | .recover => g.recover config input.outside
  | .claim => g.claim input.outside.now
  | .begin => g.begin config input.outside
  | .reply text => g.reply config input.outside text
  | .acquisitionFailed detail => g.acquisitionFailed config input.outside detail
  | .raise failure => g.raise config input.outside failure
  | .close => g.close
  | .cancel identifier => g.cancel config input.outside identifier
  | .stop => g.stop config input.outside
  | .crash => g.crash
  | .resumeQuota identifier => g.resumeQuota identifier
  | .approve identifier gate approved note => g.approve identifier gate approved note
  | .retry identifier artifactId artifactVersion reason =>
    g.retry input.outside identifier artifactId artifactVersion reason

end Gateway

end ChainQuantStudio.Studio
