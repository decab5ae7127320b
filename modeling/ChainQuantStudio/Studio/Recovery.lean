import ChainQuantStudio.Studio.Execution

/-!
# Startup recoveries

What the worker does to the store before it claims anything, in the order of `_run`. All but one of
the recoveries rewrite each order by itself; finishing delayed backtests goes through `_checkpoint`
and `_finish` and may raise, which ends the worker.
-/

namespace ChainQuantStudio.Studio

namespace WorkOrder

variable (config : RunnerConfig) (order : WorkOrder)

/-- `_migrate_optimization_workflow` on one order. -/
def migrateOptimization : WorkOrder :=
  if order.agent ≠ .strategy ∨ order.artifactKind ≠ .strategy ∨
      order.backtestRequired = some false ∨ order.status = .approved ∨
      order.status = .cancelled ∨ order.optimizationRequired.isSome = true then order
  else
    { order with
      optimizationRequired := some true
      approvals := some (order.approvals.getD {}) }

/-- `_recover_interrupted_orders` on one order. -/
def recoverInterrupted : WorkOrder :=
  if order.status = .working then
    { order with status := .queued, stage := some order.resumeStage }
  else order

/-- The orders `_recover_optimizer_stage_regressions` restores. -/
def optimizerRegression : Prop :=
  order.status = .deadLetter ∧ order.agent = .strategy ∧ order.stage = some .strategy ∧
    order.needsOptimization = true ∧ truthy order.results.optimization = false ∧
    order.results.reviewBacktest.any (reviewOutcome · .reviewBacktest == .pass) = true ∧
    order.checkpoints.any (·.stage == .optimize) = true ∧
    ("Codex strategy turn exceeded ".toList.isPrefixOf (order.lastError.getD "").toList) = true

instance : Decidable order.optimizerRegression := inferInstanceAs (Decidable (_ ∧ _))

/-- `_recover_optimizer_stage_regressions` on one order. -/
def recoverOptimizerStage : WorkOrder :=
  if order.optimizerRegression then
    let key := issueKey config.fingerprint "strategy" (order.lastError.getD "")
    { order with
      status := .queued
      stage := some .optimize
      attempts := order.attempts - order.issueCounts.count key
      issueCounts := order.issueCounts.pop key
      lastError := none
      recurringIssues := none
      retryNotBefore := none
      checkpoints := order.checkpoints ++
        [{ stage := .optimize, status := "queued_after_stage_recovery"
           reason := some "Recovered optimizer stage rewritten by legacy claim logic" }] }
  else order

/-- The error text by which `_recover_passed_review_dead_letters` knows its orders. -/
def misreadReview : String := "Review Agent returned FAIL for implementation evidence"

/-- The orders `_recover_passed_review_dead_letters` restores. -/
def passedReviewDeadLetter : Prop :=
  order.status = .deadLetter ∧ order.lastError = some misreadReview ∧
    order.results.reviewImplementation.any reviewPassed = true ∧
    order.implementationApproval = none

instance : Decidable order.passedReviewDeadLetter := inferInstanceAs (Decidable (_ ∧ _))

/-- `_recover_passed_review_dead_letters` on one order. -/
def recoverPassedReview : WorkOrder :=
  if order.passedReviewDeadLetter then
    { order with
      status := .awaitingImplementationApproval
      stage := some .implementationApproval
      lastError := none
      checkpoints := order.checkpoints ++
        [{ stage := .implementationApproval
           status := Status.awaitingImplementationApproval.value
           reason := some "Recovered explicit Review PASS misclassified as FAIL" }] }
  else order

def openedBy : Option ReviewStage :=
  match order.status with
  | .awaitingImplementationApproval => some .reviewImplementation
  | .awaitingBacktestApproval => some .reviewBacktest
  | _ => none

/-- The report of `_recover_failed_review_orders`: one that did not pass, at the gate it opened. -/
def failedReview : Option (ReviewStage × String) :=
  order.openedBy.bind fun stage =>
    (order.results.review stage).bind fun review =>
      if reviewPassed review then none else some (stage, review)

def failedReviewKeys (stage : ReviewStage) (review : String) : List String :=
  match reviewFindings review with
  | [] => [issueKey config.fingerprint stage.value "incomplete legacy review"]
  | findings => (findings.map (issueKey config.fingerprint stage.value)).dedup

def failedReviewCounts (stage : ReviewStage) (review : String) : IssueCounts :=
  (failedReviewKeys config stage review).foldl IssueCounts.increment order.issueCounts

def failedReviewRecurring (stage : ReviewStage) (review : String) : List String :=
  (failedReviewKeys config stage review).filter fun key =>
    config.sameIssueLimit < (order.failedReviewCounts config stage review).count key

def returnStage : ReviewStage → Stage
  | .reviewImplementation => .strategy
  | .reviewBacktest => .backtest

/-- `_recover_failed_review_orders` on one order. -/
def recoverFailedReview : WorkOrder :=
  match order.failedReview with
  | none => order
  | some (stage, review) =>
    let recurring := order.failedReviewRecurring config stage review
    let next := { order with
      stage := some (returnStage stage)
      attempts := order.attempts + 1
      issueCounts := order.failedReviewCounts config stage review
      lastError := some ("Review Agent returned FAIL for " ++ stage.value) }
    if config.maxAttempts ≤ order.attempts + 1 ∨ recurring ≠ [] then
      { next with status := .deadLetter, recurringIssues := some recurring }
    else
      { next with
        status := if userActions review = [] then .queued else .awaitingUserInput
        checkpoints := order.checkpoints ++
          [{ stage := returnStage stage, status := "queued_after_review_fail" }] }

/-- `_clear_terminal_retry_metadata` on one order. -/
def clearTerminalRetry : WorkOrder :=
  if order.status = .queued ∨ order.status = .working then order
  else { order with retryNotBefore := none }

@[simp] theorem migrateOptimization_id : order.migrateOptimization.id = order.id := by
  unfold migrateOptimization
  split <;> rfl

@[simp] theorem recoverInterrupted_id : order.recoverInterrupted.id = order.id := by
  unfold recoverInterrupted
  split <;> rfl

@[simp] theorem recoverOptimizerStage_id : (order.recoverOptimizerStage config).id = order.id := by
  unfold recoverOptimizerStage
  split <;> rfl

@[simp] theorem recoverPassedReview_id : order.recoverPassedReview.id = order.id := by
  unfold recoverPassedReview
  split <;> rfl

@[simp] theorem recoverFailedReview_id : (order.recoverFailedReview config).id = order.id := by
  unfold recoverFailedReview
  split
  · rfl
  · dsimp only
    split <;> rfl

@[simp] theorem clearTerminalRetry_id : order.clearTerminalRetry.id = order.id := by
  unfold clearTerminalRetry
  split <;> rfl

theorem migrateOptimization_status : order.migrateOptimization.status = order.status := by
  unfold migrateOptimization
  split <;> rfl

theorem clearTerminalRetry_status : order.clearTerminalRetry.status = order.status := by
  unfold clearTerminalRetry
  split <;> rfl

theorem clearTerminalRetry_stage : order.clearTerminalRetry.stage = order.stage := by
  unfold clearTerminalRetry
  split <;> rfl

theorem clearTerminalRetry_results : order.clearTerminalRetry.results = order.results := by
  unfold clearTerminalRetry
  split <;> rfl

/-- The verdict `_recover_completed_backtest_orders` writes for evidence it validated itself. -/
def nativeReview : String :=
  "PASS: native recovery validated provenance, dataset hash, final metrics, " ++
    "approval guard, and non-empty chart artifacts."

def completedBacktest (outside : Outside) : Option Results :=
  if order.agent = .strategy ∧ order.status = .queued ∧ order.stage = some .backtest ∧
      order.needsBacktest = true ∧ truthy order.results.strategy = true ∧
      isRetryableCodexError ("RuntimeError: " ++ order.lastError.getD "") = true then
    (outside.localBacktestEvidence order.id order.artifactKind).map fun evidence =>
      { order.results with backtest := some evidence, reviewBacktest := some nativeReview }
  else none

def delayedBacktest (outside : Outside) : Bool :=
  (order.recoverInterrupted.completedBacktest outside).isSome

theorem nativeReview_incomplete : reviewOutcome nativeReview .reviewBacktest = .incomplete := by
  decide +kernel

end WorkOrder

namespace Store

variable (config : RunnerConfig)

def mapOrders (f : WorkOrder → WorkOrder) (hf : ∀ order, (f order).id = order.id) (s : Store) :
    Store :=
  { s with workOrders := s.workOrders.mapEntries f hf }

/-- Drop the dead letters of the orders that `restored` picks in the state before. -/
def withoutDeadLetters (s : Store) (restored : WorkOrder → Bool) (before : Store) : Store :=
  { s with
    deadLetters := s.deadLetters.filter fun item =>
      !before.workOrders.entries.any fun order => restored order && order.id == item.id }

def recoverOptimizerStages (s : Store) : Store :=
  (s.mapOrders (·.recoverOptimizerStage config) (by simp)).withoutDeadLetters
    (fun order => decide order.optimizerRegression) s

def recoverPassedReviews (s : Store) : Store :=
  (s.mapOrders (·.recoverPassedReview) (by simp)).withoutDeadLetters
    (fun order => decide order.passedReviewDeadLetter) s

def recoverFailedReviews (s : Store) : Store :=
  let failed := s.workOrders.entries.filterMap fun order =>
    order.failedReview.map fun (stage, review) => (order, stage, review)
  let dead := failed.filter fun (order, _) =>
    (order.recoverFailedReview config).status = .deadLetter
  let blocked := failed.filter fun (order, _) =>
    (order.recoverFailedReview config).status = .awaitingUserInput
  { s.mapOrders (·.recoverFailedReview config) (by simp) with
    deadLetters := s.deadLetters ++ dead.map fun (order, stage, review) =>
      { id := order.id, stage := WorkOrder.returnStage stage
        reason := "Review Agent returned FAIL for " ++ stage.value
        attempts := order.attempts + 1
        recurringIssues := order.failedReviewRecurring config stage review }
    userBlockers := blocked.foldl (fun blockers (order, _, review) =>
      setBlocker blockers (workOrderBlocker order.id)
        { active := true
          detail := String.ofList
            ((String.intercalate "; " (userActions review)).toList.take 1000) }) s.userBlockers }

end Store

namespace Durable

variable (config : RunnerConfig) (outside : Outside)

/-- One order of `_recover_completed_backtest_orders`. -/
def completeBacktest (order : WorkOrder) (results : Results) (d : Durable) :
    Durable × Option Failure :=
  if order.needsOptimization then
    match d.checkpoint outside order.id .optimize results none none with
    | (d, some failure) => (d, some failure)
    | (d, none) =>
      (d.modify order.id ({ · with status := .queued }) (WorkOrder.withStatus_id · .queued), none)
  else d.finish outside order.id .awaitingBacktestApproval .backtestApproval results

def completeBacktests : List (WorkOrder × Results) → Durable → Durable × Option Failure
  | [], d => (d, none)
  | (order, results) :: rest, d =>
    match d.completeBacktest outside order results with
    | (d, some failure) => (d, some failure)
    | (d, none) => completeBacktests rest d

/-- `_recover_completed_backtest_orders`: the orders are picked first. -/
def recoverCompletedBacktests (d : Durable) : Durable × Option Failure :=
  completeBacktests outside (d.store.workOrders.entries.filterMap fun order =>
    (order.completedBacktest outside).map fun results => (order, results)) d

def onStore (f : Store → Store) (d : Durable) : Durable := { d with store := f d.store }

/-- The recoveries of `_run`, in order. -/
def recover (d : Durable) : Durable × Option Failure :=
  let d := d.onStore fun s =>
    (((s.mapOrders (·.migrateOptimization) (by simp)).mapOrders (·.recoverInterrupted)
      (by simp)).recoverOptimizerStages config).recoverPassedReviews.recoverFailedReviews config
  match d.recoverCompletedBacktests outside with
  | (d, some failure) => (d, some failure)
  | (d, none) => (d.onStore (·.mapOrders (·.clearTerminalRetry) (by simp)), none)

end Durable

end ChainQuantStudio.Studio
