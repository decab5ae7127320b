import Mathlib.Data.Int.Notation
import Mathlib.Data.Nat.Notation
import ChainQuantStudio.Library.Keyed
import ChainQuantStudio.Studio.ReviewReport

/-!
# Work orders and the durable store

The records the gateway keeps in its state file, and the artifact registry beside it. A field that
an order may lack is an option, and an order without results has the empty results.
-/

namespace ChainQuantStudio.Studio

inductive Agent
  | strategy
  | maintenance
  deriving DecidableEq, Repr

inductive ArtifactKind
  | signal
  | strategy
  | maintenance
  deriving DecidableEq, Repr

inductive Operation
  | create
  | modify
  | adopt
  deriving DecidableEq, Repr

inductive Stage
  | strategy
  | reviewImplementation
  | dataset
  | backtest
  | reviewBacktest
  | optimize
  | maintenance
  | implementationApproval
  | optimizationApproval
  | backtestApproval
  | liveApproval
  | readyForSignal
  | researchApproved
  | cancelled
  | failed
  deriving DecidableEq, Repr

inductive Status
  | queued
  | working
  | awaitingImplementationApproval
  | awaitingOptimizationApproval
  | awaitingBacktestApproval
  | awaitingLiveApproval
  | awaitingUserInput
  | approved
  | deadLetter
  | failed
  | cancelled
  deriving DecidableEq, Repr

inductive ApprovalGate
  | implementation
  | optimization
  | backtest
  | live
  deriving DecidableEq, Repr

def Stage.value : Stage → String
  | .strategy => "strategy"
  | .reviewImplementation => "review_implementation"
  | .dataset => "dataset"
  | .backtest => "backtest"
  | .reviewBacktest => "review_backtest"
  | .optimize => "optimize"
  | .maintenance => "maintenance"
  | .implementationApproval => "implementation_approval"
  | .optimizationApproval => "optimization_approval"
  | .backtestApproval => "backtest_approval"
  | .liveApproval => "live_approval"
  | .readyForSignal => "ready_for_signal"
  | .researchApproved => "research_approved"
  | .cancelled => "cancelled"
  | .failed => "failed"

def Status.value : Status → String
  | .queued => "queued"
  | .working => "working"
  | .awaitingImplementationApproval => "awaiting_implementation_approval"
  | .awaitingOptimizationApproval => "awaiting_optimization_approval"
  | .awaitingBacktestApproval => "awaiting_backtest_approval"
  | .awaitingLiveApproval => "awaiting_live_approval"
  | .awaitingUserInput => "awaiting_user_input"
  | .approved => "approved"
  | .deadLetter => "dead_letter"
  | .failed => "failed"
  | .cancelled => "cancelled"

/-- The stage named after an agent. -/
def Agent.stage : Agent → Stage
  | .strategy => .strategy
  | .maintenance => .maintenance

def ReviewStage.stage : ReviewStage → Stage
  | .reviewImplementation => .reviewImplementation
  | .reviewBacktest => .reviewBacktest

/-- `_EXECUTABLE_STAGES`. -/
def Stage.executable : Stage → Bool
  | .strategy | .reviewImplementation | .dataset | .backtest | .reviewBacktest | .optimize
  | .maintenance => true
  | _ => false

@[simp] theorem Agent.stage_executable (a : Agent) : a.stage.executable = true := by
  cases a <;> rfl

structure Approval where
  approved : Bool
  note : String
  deriving DecidableEq, Repr

structure Approvals where
  implementation : Option Approval := none
  optimization : Option Approval := none
  backtest : Option Approval := none
  live : Option Approval := none
  deriving DecidableEq, Repr

structure Results where
  dataset : Option String := none
  strategy : Option String := none
  reviewImplementation : Option String := none
  backtest : Option String := none
  reviewBacktest : Option String := none
  optimization : Option String := none
  maintenance : Option String := none
  error : Option String := none
  deriving DecidableEq, Repr

def Results.review (results : Results) : ReviewStage → Option String
  | .reviewImplementation => results.reviewImplementation
  | .reviewBacktest => results.reviewBacktest

def Results.setReview (results : Results) (report : String) : ReviewStage → Results
  | .reviewImplementation => { results with reviewImplementation := some report }
  | .reviewBacktest => { results with reviewBacktest := some report }

structure Checkpoint where
  stage : Stage
  status : String
  reason : Option String := none
  deriving DecidableEq, Repr

/-- An entry of `optimization_history`. -/
structure OptimizationDecision where
  artifactId : Option String
  artifactVersion : Option String
  proposal : String
  backtest : Option String
  reviewBacktest : Option String
  approved : Bool
  note : String
  deriving DecidableEq, Repr

abbrev IssueCounts := List (String × ℕ)

def IssueCounts.count (counts : IssueCounts) (key : String) : ℕ := (counts.lookup key).getD 0

def IssueCounts.increment (counts : IssueCounts) (key : String) : IssueCounts :=
  if counts.any (·.1 == key) then
    counts.map fun entry => if entry.1 == key then (entry.1, entry.2 + 1) else entry
  else counts ++ [(key, 1)]

def IssueCounts.pop (counts : IssueCounts) (key : String) : IssueCounts :=
  counts.filter (·.1 != key)

structure WorkOrder where
  id : String
  agent : Agent
  artifactKind : ArtifactKind
  operation : Operation
  status : Status
  stage : Option Stage := none
  artifactId : Option String := none
  artifactVersion : Option String := none
  backtestRequired : Option Bool := none
  optimizationRequired : Option Bool := none
  approvals : Option Approvals := none
  results : Results := {}
  attempts : ℕ := 0
  issueCounts : IssueCounts := []
  recurringIssues : Option (List String) := none
  lastError : Option String := none
  retryNotBefore : Option ℤ := none
  checkpoints : List Checkpoint := []
  optimizationHistory : List OptimizationDecision := []
  remediationRetryCount : ℕ := 0
  deriving DecidableEq, Repr

namespace WorkOrder

/-- `order.get("backtest_required", True) is not False`. -/
def needsBacktest (order : WorkOrder) : Bool := order.backtestRequired != some false

def needsOptimization (order : WorkOrder) : Bool := order.optimizationRequired == some true

def implementationApproval (order : WorkOrder) : Option Approval :=
  order.approvals.bind (·.implementation)

def resumeStage (order : WorkOrder) : Stage :=
  let stage := order.stage.getD order.agent.stage
  if stage.executable then stage else order.agent.stage

def artifact (order : WorkOrder) : Option String × Option String :=
  (order.artifactId, order.artifactVersion)

end WorkOrder

structure DeadLetter where
  id : String
  stage : Stage
  reason : String
  attempts : ℕ
  recurringIssues : List String
  deriving DecidableEq, Repr

structure UserBlocker where
  active : Bool
  detail : String
  deriving DecidableEq, Repr

structure OpenCircuit where
  openUntil : ℤ
  reason : String
  deriving DecidableEq, Repr

structure Store where
  workOrders : Keyed WorkOrder.id := .empty
  deadLetters : List DeadLetter := []
  userBlockers : List (String × UserBlocker) := []
  codexCircuit : Option OpenCircuit := none

structure ArtifactRecord where
  workOrder : String
  artifactKind : ArtifactKind
  artifactId : Option String := none
  artifactVersion : Option String := none
  manifestSha256 : Option String := none
  deriving DecidableEq, Repr

/-- What survives a crash of the gateway. -/
structure Durable where
  store : Store := {}
  artifacts : Keyed ArtifactRecord.workOrder := .empty

end ChainQuantStudio.Studio
