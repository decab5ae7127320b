import ChainQuantStudio.Studio.Runner

/-!
# One execution of a claimed order

`_execute` runs from one suspension to the next: it waits for the dataset materializer or for an
agent turn, and everything between two waits happens at once. A segment is what such a stretch
leaves: a further wait, the end of the body, or an exception with the local stage and results that
the handlers read.
-/

namespace ChainQuantStudio.Studio

open DateTimes (Ranged)

/-- An agent turn and the handoff it is given. -/
inductive Turn
  | strategy (prior : Option String)
  | review (stage : ReviewStage) (handoff : String)
  | backtest (handoff : String)
  | optimize (handoff : String)
  | maintenance
  deriving DecidableEq, Repr

inductive Await
  | dataset
  | turn (turn : Turn)
  deriving DecidableEq, Repr

/-- The local variables of `_execute`. -/
structure Execution where
  order : WorkOrder
  stage : Stage
  results : Results
  deriving DecidableEq, Repr

inductive Segment
  | awaiting (d : Durable) (e : Execution) (on : Await)
  | returned (d : Durable)
  | raised (d : Durable) (e : Execution) (failure : Failure)

def dateOutOfRange : Failure := .error "OverflowError" "date value out of range"

def truthy (value : Option String) : Bool := value.any (· != "")

def Segment.ofWrite (e : Execution) : Durable × Option Failure → Segment
  | (d, none) => .returned d
  | (d, some failure) => .raised d e failure

namespace Execution

variable (config : RunnerConfig) (outside : Outside)

/-- The local variables at the start, from the order `_claim_next` returned. -/
def ofClaimed (order : WorkOrder) : Execution :=
  { order := order, stage := order.stage.getD order.agent.stage, results := order.results }

/-- `{**order, "stage": stage, "results": dict(results)}`. -/
def withStage (e : Execution) (stage : Stage) : Execution :=
  { e with stage := stage, order := { e.order with stage := some stage, results := e.results } }

/-- `_run_optimization`, up to its agent turn. -/
def runOptimization (d : Durable) (e : Execution) : Segment :=
  match e.results.backtest, e.results.reviewBacktest with
  | some backtest, some _ => .awaiting d e (.turn (.optimize backtest))
  | _, _ => .raised d e (runtimeError "optimization is missing reviewed backtest evidence")

/-- The branch `_execute` takes on its stage. -/
def dispatch (d : Durable) (e : Execution) : Segment :=
  match e.stage, e.order.needsBacktest with
  | .strategy, _ =>
    .awaiting d e (.turn (.strategy
      (if truthy e.results.optimization then e.results.optimization
       else e.results.reviewImplementation)))
  | .reviewImplementation, _ =>
    match e.results.strategy with
    | none => .raised d e (runtimeError "implementation review is missing Strategy handoff")
    | some handoff => .awaiting d e (.turn (.review .reviewImplementation handoff))
  | .backtest, true =>
    match e.results.strategy with
    | none => .raised d e (runtimeError "backtest stage is missing Strategy Agent handoff")
    | some handoff => .awaiting d e (.turn (.backtest handoff))
  | .reviewBacktest, true =>
    match e.results.backtest with
    | none => .raised d e (runtimeError "backtest review is missing Backtest handoff")
    | some handoff => .awaiting d e (.turn (.review .reviewBacktest handoff))
  | .optimize, true => runOptimization d e
  | stage, _ =>
    .raised d e (runtimeError ("unsupported research DAG stage: " ++ stage.value))

/-- The dataset is there: checkpoint `backtest` and go on. -/
def datasetReady (d : Durable) (e : Execution) : Segment :=
  match d.checkpoint outside e.order.id .backtest e.results none none with
  | (d, some failure) => .raised d e failure
  | (d, none) => dispatch d (e.withStage .backtest)

/-- The body of `_execute` up to its first wait. -/
def begin (d : Durable) (e : Execution) : Segment :=
  match e.order.agent with
  | .maintenance => .awaiting d { e with stage := .maintenance } (.turn .maintenance)
  | .strategy =>
    if (e.stage = .dataset ∨ e.stage = .backtest) ∧ e.order.needsBacktest = true ∧
        truthy e.results.dataset = false then
      .awaiting d e .dataset
    else if e.stage = .dataset ∧ e.order.needsBacktest = true then datasetReady outside d e
    else dispatch d e

/-- `_complete_review`, and the optimization turn that follows a passed backtest review. -/
def completeReview (stage : ReviewStage) (report : String) (d : Durable) (e : Execution) :
    Segment :=
  match reviewOutcome report stage, stage with
  | .pass, .reviewImplementation =>
    .ofWrite e (d.finish outside e.order.id .awaitingImplementationApproval
      .implementationApproval e.results)
  | .pass, .reviewBacktest =>
    match d.find e.order.id with
    | none => .raised d e (disappeared e.order.id)
    | some order =>
      if order.needsOptimization then
        match d.checkpoint outside e.order.id .optimize e.results none none with
        | (d, some failure) => .raised d e failure
        | (d, none) => runOptimization d { e with stage := .optimize }
      else
        .ofWrite e (d.finish outside e.order.id .awaitingBacktestApproval .backtestApproval
          e.results)
  | .incomplete, _ =>
    .ofWrite e (d.requeue config e.order.id
      { stage := stage.stage, results := e.results
        reason := "Review Agent returned an incomplete " ++ stage.value ++ " audit report" })
  | outcome, _ =>
    let actions := userActions report
    .ofWrite e (d.requeue config e.order.id
      { stage := if stage = .reviewImplementation then .strategy else .backtest
        results := e.results
        reason := "Review Agent returned " ++ outcome.upper ++ " for " ++ stage.value
        issueKeys := (reviewFindings report).map (issueKey config.fingerprint stage.value)
        userAction :=
          if actions = [] then none
          else some (String.ofList ((String.intercalate "; " actions).toList.take 1000)) })

/-- The body of `_execute` after the text it waited for arrived, up to the next wait. -/
def resume (on : Await) (text : String) (d : Durable) (e : Execution) : Segment :=
  match on with
  | .dataset => datasetReady outside d { e with results := { e.results with dataset := some text } }
  | .turn (.strategy _) =>
    let e := { e with
      results := { e.results with strategy := some text }
      order := bindArtifactIdentity outside.manifests e.order text }
    match d.checkpoint outside e.order.id .reviewImplementation e.results e.order.artifactId
        e.order.artifactVersion with
    | (d, some failure) => .raised d e failure
    | (d, none) =>
      .awaiting d { e with stage := .reviewImplementation }
        (.turn (.review .reviewImplementation text))
  | .turn (.review stage _) =>
    completeReview config outside stage text d
      { e with stage := stage.stage, results := e.results.setReview text stage }
  | .turn (.backtest _) =>
    let e := { e with results := { e.results with backtest := some text } }
    match d.checkpoint outside e.order.id .reviewBacktest e.results none none with
    | (d, some failure) => .raised d e failure
    | (d, none) =>
      .awaiting d { e with stage := .reviewBacktest } (.turn (.review .reviewBacktest text))
  | .turn (.optimize _) =>
    let e := { e with results := { e.results with optimization := some text } }
    if optimizationReportComplete text then
      .ofWrite e (d.finish outside e.order.id .awaitingOptimizationApproval
        .optimizationApproval e.results)
    else
      .ofWrite e (d.requeue config e.order.id
        { stage := .optimize, results := e.results
          reason := "Optimization Agent returned an incomplete proposal" })
  | .turn .maintenance => .returned d

/-- The handlers of `TimeoutError` and of any other exception. Opening the circuit for a reset that
is out of the years raises before the order is written. -/
def handle (failure : Failure) (d : Durable) (e : Execution) : Durable × Option Failure :=
  match failure with
  | .timeout =>
    d.requeue config e.order.id
      { stage := e.stage, results := e.results
        reason := "Codex " ++ e.stage.value ++ " turn exceeded " ++ config.turnTimeout ++
          " seconds" }
  | .error typeName message =>
    let reason := typeName ++ ": " ++ message
    if isRetryableCodexError reason then
      match outside.retryAt reason with
      | .error _ => (d, some dateOutOfRange)
      | .ok retryAt =>
        let d := d.openCircuit reason retryAt
        let retryNotBefore := outside.now + max 1000000 (retryAt - outside.now)
        if Ranged retryNotBefore ∨ d.find e.order.id = none then
          d.requeue config e.order.id
            { stage := e.stage, results := e.results, reason := reason
              retryNotBefore := some retryNotBefore
              countAttempt := false }
        else (d, some dateOutOfRange)
    else
      d.finish outside e.order.id .failed .failed { error := some reason }

def acquisitionFailed (detail : String) (d : Durable) (e : Execution) :
    Durable × Option Failure :=
  d.requeue config e.order.id
    { stage := .dataset, results := e.results
      reason := "public Binance archive acquisition failed: " ++ detail
      retryNotBefore := some (outside.now + 300 * 1000000) }

/-- The handler of `CancelledError`. -/
def cancelled (byUser : Bool) (d : Durable) (e : Execution) : Durable × Option Failure :=
  if byUser then
    d.finish outside e.order.id .cancelled .cancelled
      { e.results with error := some "Cancelled by Manager Agent" }
  else
    d.requeue config e.order.id
      { stage := e.stage, results := e.results
        reason := "Gateway stopped while the work order was running", countAttempt := false }

end Execution

end ChainQuantStudio.Studio
