import ChainQuantStudio.Studio.Recovery

/-!
# User decisions on a work order

The approval gates, the retry of an order whose artifact was remediated, and the orders a user
creates or adopts.
-/

namespace ChainQuantStudio.Studio

open PythonText

def ApprovalGate.stage : ApprovalGate → Stage
  | .implementation => .implementationApproval
  | .optimization => .optimizationApproval
  | .backtest => .backtestApproval
  | .live => .liveApproval

def ApprovalGate.expected : ApprovalGate → Status
  | .implementation => .awaitingImplementationApproval
  | .optimization => .awaitingOptimizationApproval
  | .backtest => .awaitingBacktestApproval
  | .live => .awaitingLiveApproval

def Approvals.set (approvals : Approvals) (approval : Approval) : ApprovalGate → Approvals
  | .implementation => { approvals with implementation := some approval }
  | .optimization => { approvals with optimization := some approval }
  | .backtest => { approvals with backtest := some approval }
  | .live => { approvals with live := some approval }

def stripped (text : String) : String := String.ofList (strip text.toList)

namespace WorkOrder

variable (order : WorkOrder)

/-- The order with the decision noted in `approvals`. -/
def noteDecision (gate : ApprovalGate) (approved : Bool) (note : String) : WorkOrder :=
  { order with
    approvals := some ((order.approvals.getD {}).set
      { approved := approved, note := stripped note } gate) }

def decided (gate : ApprovalGate) (approved : Bool) (note : String) : Except Failure WorkOrder :=
  let noted := order.noteDecision gate approved note
  match gate, approved with
  | .implementation, false =>
    .ok { noted with status := .queued, stage := some .strategy, results := {} }
  | .implementation, true =>
    if order.needsBacktest then .ok { noted with status := .queued, stage := some .dataset }
    else .ok { noted with status := .awaitingLiveApproval, stage := some .liveApproval }
  | .optimization, approved =>
    match order.results.optimization with
    | none => .error (valueError "optimization approval requires a completed proposal")
    | some proposal =>
      if isBlank proposal.toList then
        .error (valueError "optimization approval requires a completed proposal")
      else
        let noted : WorkOrder := { noted with
          optimizationHistory := noted.optimizationHistory ++
            [{ artifactId := order.artifactId, artifactVersion := order.artifactVersion
               proposal := proposal, backtest := order.results.backtest
               reviewBacktest := order.results.reviewBacktest, approved := approved
               note := stripped note }] }
        if approved then
          .ok { noted with
            status := .queued, stage := some .strategy, operation := .modify
            results := { optimization := some proposal }, attempts := 0, issueCounts := []
            approvals := some {} }
        else
          .ok { noted with status := .awaitingBacktestApproval, stage := some .backtestApproval }
  | .backtest, false =>
    .ok { noted with
      status := .queued, stage := some .backtest
      results := { order.results with backtest := none, reviewBacktest := none,
                                      optimization := none }
      approvals := noted.approvals.map ({ · with optimization := none }) }
  | .backtest, true =>
    .ok { noted with status := .awaitingLiveApproval, stage := some .liveApproval }
  | .live, false =>
    .ok { noted with
      status := .awaitingImplementationApproval, stage := some .implementationApproval }
  | .live, true =>
    .ok { noted with
      status := .approved
      stage := some (if order.artifactKind = .signal then .readyForSignal else .researchApproved) }

/-- `handle_work_order_approval` on the order it finds. -/
def approval (gate : ApprovalGate) (approved : Bool) (note : String) : Except Failure WorkOrder :=
  if order.status ≠ gate.expected then
    .error (valueError ("work order must be " ++ gate.expected.value))
  else
    (order.decided gate approved note).map fun next =>
      { next with
        checkpoints := next.checkpoints ++
          [{ stage := gate.stage, status := if approved then "approved" else "rejected" }] }

/-- The remediation left the approved implementation as it was: `preserve_implementation`. -/
def preservesImplementation (artifactId artifactVersion : String) : Prop :=
  order.agent = .strategy ∧
    (order.stage = some .backtest ∨ order.stage = some .reviewBacktest) ∧
    order.implementationApproval.any (·.approved) = true ∧
    order.artifactId = some artifactId ∧ order.artifactVersion = some artifactVersion ∧
    order.results.strategy.isSome = true ∧ order.results.reviewImplementation.isSome = true

instance (artifactId artifactVersion : String) :
    Decidable (order.preservesImplementation artifactId artifactVersion) :=
  inferInstanceAs (Decidable (_ ∧ _))

/-- `retry_dead_letter_after_remediation` on the order it finds. -/
def retried (artifactId artifactVersion reason : String) : WorkOrder :=
  let preserve : Prop := order.preservesImplementation artifactId artifactVersion
  let stage := if preserve then .backtest else order.agent.stage
  { order with
    status := .queued
    stage := some stage
    attempts := 0
    issueCounts := []
    artifactId := some artifactId
    artifactVersion := some artifactVersion
    remediationRetryCount := order.remediationRetryCount + 1
    results :=
      if preserve then { order.results with backtest := none, reviewBacktest := none }
      else order.results
    approvals :=
      if preserve then
        order.approvals.map ({ · with optimization := none, backtest := none, live := none })
      else if order.agent = .strategy then order.approvals.map fun _ => {}
      else order.approvals
    lastError := none
    retryNotBefore := none
    checkpoints := order.checkpoints ++
      [{ stage := stage, status := "queued_after_remediation", reason := some (stripped reason) }] }

@[simp] theorem retried_id (artifactId artifactVersion reason : String) :
    (order.retried artifactId artifactVersion reason).id = order.id := rfl

theorem approval_eq_ok {gate : ApprovalGate} {approved : Bool} {note : String} {next : WorkOrder}
    (h : order.approval gate approved note = .ok next) :
    order.status = gate.expected ∧ ∃ moved, order.decided gate approved note = .ok moved ∧
      next = { moved with
        checkpoints := moved.checkpoints ++
          [{ stage := gate.stage, status := if approved then "approved" else "rejected" }] } := by
  unfold approval at h
  split at h
  · cases h
  · rename_i hs
    refine ⟨not_not.mp hs, ?_⟩
    cases hd : order.decided gate approved note with
    | error failure => simp [hd, Except.map] at h
    | ok moved =>
      simp only [hd, Except.map] at h
      exact ⟨moved, rfl, (Except.ok.inj h).symm⟩

theorem decided_id {gate : ApprovalGate} {approved : Bool} {note : String} {next : WorkOrder}
    (h : order.decided gate approved note = .ok next) : next.id = order.id := by
  unfold decided at h
  cases gate with
  | implementation =>
    cases approved with
    | false => rw [← Except.ok.inj h]; rfl
    | true =>
      dsimp only at h
      split at h <;> (rw [← Except.ok.inj h]; rfl)
  | optimization =>
    dsimp only at h
    split at h
    · cases h
    · split at h
      · cases h
      · split at h <;> (rw [← Except.ok.inj h]; rfl)
  | backtest => cases approved <;> (rw [← Except.ok.inj h]; rfl)
  | live => cases approved <;> (rw [← Except.ok.inj h]; rfl)

theorem approval_id {gate : ApprovalGate} {approved : Bool} {note : String} {next : WorkOrder}
    (h : order.approval gate approved note = .ok next) : next.id = order.id := by
  obtain ⟨_, moved, hmoved, rfl⟩ := order.approval_eq_ok h
  have hid := order.decided_id hmoved
  exact hid

theorem approval_status {gate : ApprovalGate} {approved : Bool} {note : String} {next : WorkOrder}
    (h : order.approval gate approved note = .ok next) :
    next.status = .queued ∨ next.status = .awaitingImplementationApproval ∨
      next.status = .awaitingBacktestApproval ∨ next.status = .awaitingLiveApproval ∨
      next.status = .approved := by
  obtain ⟨_, moved, hmoved, rfl⟩ := order.approval_eq_ok h
  dsimp only
  unfold decided at hmoved
  cases gate with
  | implementation =>
    cases approved with
    | false => rw [← Except.ok.inj hmoved]; simp
    | true =>
      dsimp only at hmoved
      split at hmoved <;> (rw [← Except.ok.inj hmoved]; simp)
  | optimization =>
    dsimp only at hmoved
    split at hmoved
    · cases hmoved
    · split at hmoved
      · cases hmoved
      · split at hmoved <;> (rw [← Except.ok.inj hmoved]; simp)
  | backtest => cases approved <;> (rw [← Except.ok.inj hmoved]; simp)
  | live => cases approved <;> (rw [← Except.ok.inj hmoved]; simp)

end WorkOrder

def ArtifactKind.value : ArtifactKind → String
  | .signal => "signal"
  | .strategy => "strategy"
  | .maintenance => "maintenance"

def createWorkOrder (stamp : String) (agent : Agent) (kind : ArtifactKind)
    (backtestRequired : Bool) (operation : Operation) (artifactId : Option String) : WorkOrder :=
  let order : WorkOrder :=
    { id := kind.value ++ "-" ++ stamp, agent := agent, artifactKind := kind
      operation := operation, status := .queued, artifactId := artifactId
      checkpoints := [{ stage := agent.stage, status := "queued" }] }
  match agent with
  | .maintenance => order
  | .strategy =>
    { order with
      backtestRequired := some backtestRequired
      optimizationRequired := some (kind == .strategy && backtestRequired)
      approvals := some {} }

def adoptionHandoff (manifest : String) : String :=
  "Existing versioned artifact submitted for independent adoption review: " ++ manifest ++
    ". No implementation mutation is authorized by adoption."

/-- `handle_artifact_adoption`: the order that puts an existing version up for Review. -/
def adoptionOrder (stamp : String) (kind : ArtifactKind) (artifactId version manifest : String)
    (backtestRequired : Bool) : WorkOrder :=
  let order := createWorkOrder stamp .strategy kind backtestRequired .adopt (some artifactId)
  { order with
    artifactVersion := some version
    stage := some .reviewImplementation
    results := { strategy := some (adoptionHandoff manifest) }
    checkpoints := order.checkpoints ++ [{ stage := .reviewImplementation, status := "queued" }] }

@[simp] theorem createWorkOrder_id (stamp : String) (agent : Agent) (kind : ArtifactKind)
    (backtestRequired : Bool) (operation : Operation) (artifactId : Option String) :
    (createWorkOrder stamp agent kind backtestRequired operation artifactId).id =
      kind.value ++ "-" ++ stamp := by
  cases agent <;> rfl

end ChainQuantStudio.Studio
