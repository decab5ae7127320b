import ChainQuantStudio.Studio.Manifest

/-!
# Durable writes of the work-order runner

`_checkpoint`, `_finish` and `_requeue` rewrite one order of the store. Each returns the durable
state it leaves together with the exception it raised, if any: the order is written before the
artifact is recorded, so a failing record leaves the rewritten order behind.
-/

namespace ChainQuantStudio.Studio

structure RunnerConfig where
  maxAttempts : ℕ
  sameIssueLimit : ℕ
  turnTimeout : String
  fingerprint : String → String
  maxAttempts_pos : 0 < maxAttempts
  sameIssueLimit_pos : 0 < sameIssueLimit

def defaultRunner : RunnerConfig where
  maxAttempts := 30
  sameIssueLimit := 5
  turnTimeout := "3600"
  fingerprint := id
  maxAttempts_pos := by decide
  sameIssueLimit_pos := by decide

namespace WorkOrder

def checkpointed (stage : Stage) (results : Results) (artifactId artifactVersion : Option String)
    (order : WorkOrder) : WorkOrder :=
  { order with
    stage := some stage
    results := results
    artifactId := artifactId.or order.artifactId
    artifactVersion := artifactVersion.or order.artifactVersion
    checkpoints := order.checkpoints ++ [{ stage := stage, status := "working" }] }

def finished (status : Status) (stage : Stage) (results : Results) (order : WorkOrder) :
    WorkOrder :=
  { order with
    status := status
    stage := some stage
    results := results
    checkpoints := order.checkpoints ++ [{ stage := stage, status := status.value }]
    retryNotBefore := none
    lastError := none }

end WorkOrder

/-- The arguments of `_requeue`. -/
structure Requeue where
  stage : Stage
  results : Results
  reason : String
  retryNotBefore : Option ℤ := none
  countAttempt : Bool := true
  issueKeys : List String := []
  userAction : Option String := none

namespace Requeue

variable (config : RunnerConfig) (r : Requeue) (order : WorkOrder)

def attempts : ℕ := order.attempts + if r.countAttempt then 1 else 0

def keys : List String :=
  if r.issueKeys = [] then [issueKey config.fingerprint r.stage.value r.reason]
  else r.issueKeys.dedup

def counts : IssueCounts :=
  if r.countAttempt then (r.keys config).foldl IssueCounts.increment order.issueCounts
  else order.issueCounts

def recurring : List String :=
  (r.keys config).filter fun key => config.sameIssueLimit < (r.counts config order).count key

def exhausted : Prop :=
  r.countAttempt = true ∧
    (config.maxAttempts ≤ r.attempts order ∨ r.recurring config order ≠ [])

instance : Decidable (r.exhausted config order) := inferInstanceAs (Decidable (_ ∧ _))

/-- The order `_requeue` leaves. -/
def apply : WorkOrder :=
  if r.exhausted config order then
    { order with
      status := .deadLetter
      stage := some r.stage
      lastError := some r.reason
      results := r.results
      attempts := r.attempts order
      issueCounts := r.counts config order
      recurringIssues := some (r.recurring config order) }
  else
    { order with
      status := if r.userAction.isSome then .awaitingUserInput else .queued
      stage := some r.stage
      lastError := some r.reason
      results := r.results
      attempts := r.attempts order
      issueCounts := r.counts config order
      retryNotBefore := r.retryNotBefore.or order.retryNotBefore }

end Requeue

def setBlocker (blockers : List (String × UserBlocker)) (key : String) (blocker : UserBlocker) :
    List (String × UserBlocker) :=
  blockers.filter (·.1 != key) ++ [(key, blocker)]

def workOrderBlocker (identifier : String) : String := "work_order:" ++ identifier

def disappeared (identifier : String) : Failure :=
  runtimeError ("work order disappeared: " ++ identifier)

theorem WorkOrder.withStatus_id (order : WorkOrder) (status : Status) :
    { order with status := status }.id = order.id := rfl

@[simp] theorem WorkOrder.checkpointed_id (stage : Stage) (results : Results)
    (artifactId artifactVersion : Option String) (order : WorkOrder) :
    (order.checkpointed stage results artifactId artifactVersion).id = order.id := rfl

@[simp] theorem WorkOrder.finished_id (status : Status) (stage : Stage) (results : Results)
    (order : WorkOrder) : (order.finished status stage results).id = order.id := rfl

@[simp] theorem Requeue.apply_id (config : RunnerConfig) (r : Requeue) (order : WorkOrder) :
    (r.apply config order).id = order.id := by
  unfold Requeue.apply
  split <;> rfl

namespace Durable

variable (config : RunnerConfig) (outside : Outside) (identifier : String)

def find (d : Durable) : Option WorkOrder := d.store.workOrders.find identifier

def modify (f : WorkOrder → WorkOrder) (hf : ∀ order, (f order).id = order.id) (d : Durable) :
    Durable :=
  { d with store := { d.store with workOrders := d.store.workOrders.modify identifier f hf } }

def recordArtifact (order : WorkOrder) (d : Durable) : Durable × Option Failure :=
  match artifactRecord outside order with
  | .error failure => (d, some failure)
  | .ok record => ({ d with artifacts := d.artifacts.upsert record }, none)

def checkpoint (stage : Stage) (results : Results) (artifactId artifactVersion : Option String)
    (d : Durable) : Durable × Option Failure :=
  match d.find identifier with
  | none => (d, some (disappeared identifier))
  | some order =>
    let next := order.checkpointed stage results artifactId artifactVersion
    let d := d.modify identifier (·.checkpointed stage results artifactId artifactVersion)
      (by simp)
    if stage = .reviewImplementation ∧ next.artifactVersion.isSome then
      d.recordArtifact outside next
    else (d, none)

def finish (status : Status) (stage : Stage) (results : Results) (d : Durable) :
    Durable × Option Failure :=
  match d.find identifier with
  | none => (d, some (disappeared identifier))
  | some order =>
    (d.modify identifier (·.finished status stage results) (by simp)).recordArtifact outside
      (order.finished status stage results)

def requeue (r : Requeue) (d : Durable) : Durable × Option Failure :=
  match d.find identifier with
  | none => (d, some (disappeared identifier))
  | some order =>
    let next := r.apply config order
    let store := (d.modify identifier (r.apply config) (by simp)).store
    let store :=
      if next.status = .deadLetter then
        { store with
          deadLetters := store.deadLetters ++
            [{ id := identifier, stage := r.stage, reason := r.reason, attempts := next.attempts,
               recurringIssues := r.recurring config order }] }
      else
        match r.userAction with
        | none => store
        | some action =>
          { store with
            userBlockers := setBlocker store.userBlockers (workOrderBlocker identifier)
              { active := true, detail := "工作單 " ++ identifier ++ "：" ++ action } }
    ({ d with store := store }, none)

/-- `_persist_circuit`, once the circuit was opened for `reason`. -/
def openCircuit (reason : String) (openUntil : ℤ) (d : Durable) : Durable :=
  { d with
    store := { d.store with codexCircuit := some { openUntil := openUntil, reason := reason } } }

end Durable

end ChainQuantStudio.Studio
