import Mathlib.Logic.Relation
import ChainQuantStudio.Studio.Gateway

/-!
# What can happen to one order

The moves of a single order, each with its artifact record, as the steps of the gateway make them:
what the worker makes of an order it works on, the startup recoveries, and the decisions of users.
Every invariant of the orders is a case analysis over these moves.
-/

namespace ChainQuantStudio.Studio

/-- An order and the record the artifact registry has under its identifier. -/
structure Entry where
  order : WorkOrder
  record : Option ArtifactRecord

instance : Membership Entry Durable :=
  ⟨fun d x => x.order ∈ d.store.workOrders ∧ x.record = d.artifacts.find x.order.id⟩

theorem Durable.mem_def {d : Durable} {x : Entry} :
    x ∈ d ↔ x.order ∈ d.store.workOrders ∧ x.record = d.artifacts.find x.order.id := Iff.rfl

def ArtifactRecord.Names (record : ArtifactRecord) (order : WorkOrder) : Prop :=
  ∀ version, order.artifactVersion = some version →
    record.artifactVersion = some version ∧
      ∀ artifactId, order.artifactId = some artifactId → record.artifactId = some artifactId

inductive SentBack : Stage → Results → Stage → Results → Prop
  | same (s : Stage) (r : Results) : SentBack s r s r
  | maintenance (s : Stage) (r : Results) : SentBack s r .maintenance r
  | dataset {s : Stage} (r : Results) : s = .dataset ∨ s = .backtest → SentBack s r .dataset r
  | prepared {s : Stage} (r : Results) (data : Option String) :
    s = .dataset ∨ s = .backtest → SentBack s r .backtest { r with dataset := data }
  | implemented (r : Results) (handoff : String) :
    SentBack .strategy r .strategy { r with strategy := some handoff }
  | unreviewed (s : ReviewStage) (r : Results) (report : String) :
    SentBack s.stage r s.stage (r.setReview report s)
  | rejected (s : ReviewStage) (r : Results) (report : String) :
    SentBack s.stage r (WorkOrder.returnStage s) (r.setReview report s)
  | optimized (r : Results) (proposal : String) :
    SentBack .optimize r .optimize { r with optimization := some proposal }

def Results.handoff (results : Results) : ReviewStage → Option String
  | .reviewImplementation => results.strategy
  | .reviewBacktest => results.backtest

def Passed (turns : List AgentTurn) (identifier : String) (stage : ReviewStage)
    (results : Results) : Prop :=
  ∃ handoff report, results.handoff stage = some handoff ∧ results.review stage = some report ∧
    reviewOutcome report stage = .pass ∧
    { workOrder := identifier, turn := .review stage handoff, reply := report } ∈ turns

inductive Outcome (turns : List AgentTurn) (identifier : String) :
    Stage → Results → Status → Stage → Results → Prop
  | prepared {s : Stage} (r : Results) (data : Option String) : s = .dataset ∨ s = .backtest →
    Outcome turns identifier s r .working .backtest { r with dataset := data }
  | implemented (r : Results) (handoff : String) :
    Outcome turns identifier .strategy r .working .reviewImplementation
      { r with strategy := some handoff }
  | backtested (r : Results) (handoff : String) :
    Outcome turns identifier .backtest r .working .reviewBacktest
      { r with backtest := some handoff }
  | optimizing (r : Results) (report : String) :
    Passed turns identifier .reviewBacktest (r.setReview report .reviewBacktest) →
    Outcome turns identifier .reviewBacktest r .working .optimize
      (r.setReview report .reviewBacktest)
  | implementationGate (r : Results) (report : String) :
    Passed turns identifier .reviewImplementation (r.setReview report .reviewImplementation) →
    Outcome turns identifier .reviewImplementation r .awaitingImplementationApproval
      .implementationApproval (r.setReview report .reviewImplementation)
  | backtestGate (r : Results) (report : String) :
    Passed turns identifier .reviewBacktest (r.setReview report .reviewBacktest) →
    Outcome turns identifier .reviewBacktest r .awaitingBacktestApproval .backtestApproval
      (r.setReview report .reviewBacktest)
  | optimizationGate (r : Results) (proposal : String) :
    Outcome turns identifier .optimize r .awaitingOptimizationApproval .optimizationApproval
      { r with optimization := some proposal }
  | sentBack {s s' : Stage} {r r' : Results} (status : Status) :
    status = .queued ∨ status = .awaitingUserInput ∨ status = .deadLetter →
    SentBack s r s' r' → Outcome turns identifier s r status s' r'
  | failed (s : Stage) (r : Results) (reason : String) :
    Outcome turns identifier s r .failed .failed { error := some reason }
  | cancelled (s : Stage) (r r' : Results) : Outcome turns identifier s r .cancelled .cancelled r'

structure Frame (order next : WorkOrder) : Prop where
  id : next.id = order.id
  agent : next.agent = order.agent
  artifactKind : next.artifactKind = order.artifactKind
  approvals : next.approvals = order.approvals
  backtestRequired : next.backtestRequired = order.backtestRequired
  optimizationRequired : next.optimizationRequired = order.optimizationRequired

theorem Frame.refl (order : WorkOrder) : Frame order order := ⟨rfl, rfl, rfl, rfl, rfl, rfl⟩

theorem Frame.trans {a b c : WorkOrder} (h : Frame a b) (h' : Frame b c) : Frame a c :=
  ⟨h'.id.trans h.id, h'.agent.trans h.agent, h'.artifactKind.trans h.artifactKind,
    h'.approvals.trans h.approvals, h'.backtestRequired.trans h.backtestRequired,
    h'.optimizationRequired.trans h.optimizationRequired⟩

def KeepsRecord (x x' : Entry) : Prop :=
  x'.record = x.record ∨ ∃ record, x'.record = some record ∧ record.Names x'.order

structure Worked (turns : List AgentTurn) (x x' : Entry) : Prop where
  working : x.order.status = .working
  frame : Frame x.order x'.order
  outcome : ∃ s s', x.order.stage = some s ∧ x'.order.stage = some s' ∧
    Outcome turns x.order.id s x.order.results x'.order.status s' x'.order.results
  artifact : x.order.stage ≠ some .strategy → x'.order.artifact = x.order.artifact
  keepsRecord : KeepsRecord x x'
  recorded : x'.order.status = .working → x'.order.stage = some .reviewImplementation →
    x'.order.artifactVersion.isSome = true →
      ∃ record, x'.record = some record ∧ record.Names x'.order
  lastError : x.order.lastError ≠ some WorkOrder.misreadReview →
    x'.order.lastError ≠ some WorkOrder.misreadReview

/-- One startup recovery of one order. The optimizer-stage recovery is taken to restore only orders
that `allowed` admits. -/
inductive Recovery (config : RunnerConfig) (outside : Outside) (allowed : Entry → Prop) :
    Entry → Entry → Prop
  | migrated (x : Entry) :
    Recovery config outside allowed x ⟨x.order.migrateOptimization, x.record⟩
  | interrupted (x : Entry) :
    Recovery config outside allowed x ⟨x.order.recoverInterrupted, x.record⟩
  | optimizerStage (x : Entry) : x.order.optimizerRegression → allowed x →
    Recovery config outside allowed x ⟨x.order.recoverOptimizerStage config, x.record⟩
  | passedReview (x : Entry) :
    Recovery config outside allowed x ⟨x.order.recoverPassedReview, x.record⟩
  | failedReview (x : Entry) :
    Recovery config outside allowed x ⟨x.order.recoverFailedReview config, x.record⟩
  | completedOptimize (x : Entry) (results : Results) :
    x.order.completedBacktest outside = some results →
    Recovery config outside allowed x
      ⟨{ x.order.checkpointed .optimize results none none with status := .queued }, x.record⟩
  | completedGate (x : Entry) (results : Results) (record : Option ArtifactRecord) :
    x.order.completedBacktest outside = some results →
    KeepsRecord x ⟨x.order.finished .awaitingBacktestApproval .backtestApproval results, record⟩ →
    Recovery config outside allowed x
      ⟨x.order.finished .awaitingBacktestApproval .backtestApproval results, record⟩
  | cleared (x : Entry) :
    Recovery config outside allowed x ⟨x.order.clearTerminalRetry, x.record⟩

inductive Moved (config : RunnerConfig) (input : Input) (turns : List AgentTurn)
    (allowed : Entry → Prop) : Entry → Entry → Prop
  | worked {x x' : Entry} : Worked turns x x' → Moved config input turns allowed x x'
  | claimed (x : Entry) : x.order.status = .queued →
    Moved config input turns allowed x ⟨x.order.claimed, x.record⟩
  | cancelled (x : Entry) : Moved config input turns allowed x ⟨x.order.cancelledIdle, x.record⟩
  | quotaResumed (x : Entry) (identifier : Option String) :
    Moved config input turns allowed x ⟨x.order.quotaResumed identifier, x.record⟩
  | decided {x : Entry} {gate : ApprovalGate} {approved : Bool} {note : String}
    {next : WorkOrder} : input.event = .approve x.order.id gate approved note →
    x.order.approval gate approved note = .ok next →
    Moved config input turns allowed x ⟨next, x.record⟩
  | retried (x : Entry) (artifactId artifactVersion reason : String) :
    Gateway.retryable x.order.status = true →
    Moved config input turns allowed x
      ⟨x.order.retried artifactId artifactVersion reason, x.record⟩
  | recovered {x x' : Entry} : input.event = .recover →
    Relation.ReflTransGen (Recovery config input.outside allowed) x x' →
    Moved config input turns allowed x x'

end ChainQuantStudio.Studio
