import ChainQuantStudio.Studio.Gateway

/-!
# The gateway from await to await

A task runs from one await to the next: an agent turn or the dataset materializer, the lock of the
store, the heartbeat of an execution that ends, or the task of the execution. No access of the store
awaits anything while it has the lock, so what waits for the lock goes on with the access itself. A
`CancelledError` reaches a task at the await where it is.
-/

namespace ChainQuantStudio.Studio

open DateTimes (Ranged)

inductive Access
  | prepare
  | implement (handoff : String)
  | backtest (handoff : String)
  | readOptimization
  | optimize
  | finish (status : Status) (stage : Stage)
  | requeue (r : Requeue) (retryAfter : Option ℤ := none)

inductive Suspension
  | waits (e : Execution) (on : Await)
  | accesses (e : Execution) (access : Access)
  | returns
  | raises (e : Execution) (failure : Failure)

def Segment.suspension : Segment → Suspension
  | .awaiting _ e on => .waits e on
  | .returned _ => .returns
  | .raised _ e failure => .raises e failure

def Suspension.ofWrite (e : Execution) : Option Failure → Suspension
  | none => .returns
  | some failure => .raises e failure

/-- `retry_not_before` counts from when the order is rewritten. -/
def Requeue.after (r : Requeue) (now : ℤ) (retryAfter : Option ℤ) : Requeue :=
  { r with retryNotBefore := retryAfter.map (now + ·) }

namespace Access

variable (config : RunnerConfig) (outside : Outside) (e : Execution) (d : Durable)

/-- The access, and the body up to its next await. -/
def run : Access → Durable × Suspension
  | .prepare =>
    match d.checkpoint outside e.order.id .backtest e.results none none with
    | (d, some failure) => (d, .raises e failure)
    | (d, none) => (d, (Execution.dispatch d (e.withStage .backtest)).suspension)
  | .implement handoff =>
    match d.checkpoint outside e.order.id .reviewImplementation e.results e.order.artifactId
        e.order.artifactVersion with
    | (d, some failure) => (d, .raises e failure)
    | (d, none) =>
      (d, .waits { e with stage := .reviewImplementation }
        (.turn (.review .reviewImplementation handoff)))
  | .backtest handoff =>
    match d.checkpoint outside e.order.id .reviewBacktest e.results none none with
    | (d, some failure) => (d, .raises e failure)
    | (d, none) =>
      (d, .waits { e with stage := .reviewBacktest } (.turn (.review .reviewBacktest handoff)))
  | .readOptimization =>
    match d.find e.order.id with
    | none => (d, .raises e (disappeared e.order.id))
    | some order =>
      if order.needsOptimization then (d, .accesses e .optimize)
      else (d, .accesses e (.finish .awaitingBacktestApproval .backtestApproval))
  | .optimize =>
    match d.checkpoint outside e.order.id .optimize e.results none none with
    | (d, some failure) => (d, .raises e failure)
    | (d, none) => (d, (Execution.runOptimization d { e with stage := .optimize }).suspension)
  | .finish status stage =>
    let (d, raised) := d.finish outside e.order.id status stage e.results
    (d, .ofWrite e raised)
  | .requeue r retryAfter =>
    let (d, raised) := d.requeue config e.order.id (r.after outside.now retryAfter)
    (d, .ofWrite e raised)

end Access

namespace Execution

variable (config : RunnerConfig) (outside : Outside) (e : Execution)

/-- The body up to its first await. The durable state stands for none: `dispatch` only hands it
on. -/
def starts : Suspension :=
  match e.order.agent with
  | .maintenance => .waits { e with stage := .maintenance } (.turn .maintenance)
  | .strategy =>
    if (e.stage = .dataset ∨ e.stage = .backtest) ∧ e.order.needsBacktest = true ∧
        truthy e.results.dataset = false then
      .waits e .dataset
    else if e.stage = .dataset ∧ e.order.needsBacktest = true then .accesses e .prepare
    else (dispatch {} e).suspension

/-- `_complete_review` up to its first await. -/
def completes (stage : ReviewStage) (report : String) : Suspension :=
  match reviewOutcome report stage, stage with
  | .pass, .reviewImplementation =>
    .accesses e (.finish .awaitingImplementationApproval .implementationApproval)
  | .pass, .reviewBacktest => .accesses e .readOptimization
  | .incomplete, _ =>
    .accesses e (.requeue
      { stage := stage.stage, results := e.results
        reason := "Review Agent returned an incomplete " ++ stage.value ++ " audit report" })
  | outcome, _ =>
    let actions := userActions report
    .accesses e (.requeue
      { stage := if stage = .reviewImplementation then .strategy else .backtest
        results := e.results
        reason := "Review Agent returned " ++ outcome.upper ++ " for " ++ stage.value
        issueKeys := (reviewFindings report).map (issueKey config.fingerprint stage.value)
        userAction :=
          if actions = [] then none
          else some (String.ofList ((String.intercalate "; " actions).toList.take 1000)) })

def resumes (on : Await) (text : String) : Suspension :=
  match on with
  | .dataset => .accesses { e with results := { e.results with dataset := some text } } .prepare
  | .turn (.strategy _) =>
    .accesses
      { e with
        results := { e.results with strategy := some text }
        order := bindArtifactIdentity outside.manifests e.order text }
      (.implement text)
  | .turn (.review stage _) =>
    completes config { e with stage := stage.stage, results := e.results.setReview text stage }
      stage text
  | .turn (.backtest _) =>
    .accesses { e with results := { e.results with backtest := some text } } (.backtest text)
  | .turn (.optimize _) =>
    let e := { e with results := { e.results with optimization := some text } }
    if optimizationReportComplete text then
      .accesses e (.finish .awaitingOptimizationApproval .optimizationApproval)
    else
      .accesses e (.requeue
        { stage := .optimize, results := e.results
          reason := "Optimization Agent returned an incomplete proposal" })
  | .turn .maintenance => .returns

def acquisitionFails (detail : String) : Suspension :=
  .accesses e (.requeue
    { stage := .dataset, results := e.results
      reason := "public Binance archive acquisition failed: " ++ detail }
    (some (300 * 1000000)))

end Execution

inductive HandlerWrite
  | persistCircuit (reason : String) (openUntil : ℤ)
  | finish (status : Status) (stage : Stage) (results : Results)
  | requeue (r : Requeue) (retryAfter : Option ℤ := none)

def HandlerWrite.run (config : RunnerConfig) (outside : Outside) (identifier : String)
    (d : Durable) : HandlerWrite → Durable × Option Failure
  | .persistCircuit reason openUntil => (d.openCircuit reason openUntil, none)
  | .finish status stage results => d.finish outside identifier status stage results
  | .requeue r retryAfter =>
    if retryAfter.all (fun seconds => Ranged (outside.now + seconds)) ∨ d.find identifier = none
    then d.requeue config identifier (r.after outside.now retryAfter)
    else (d, some dateOutOfRange)

namespace Execution

variable (config : RunnerConfig) (outside : Outside) (e : Execution)

/-- The handler of `CancelledError`. -/
def handlesCancel (byUser : Bool) : HandlerWrite :=
  if byUser then
    .finish .cancelled .cancelled { e.results with error := some "Cancelled by Manager Agent" }
  else
    .requeue
      { stage := e.stage, results := e.results
        reason := "Gateway stopped while the work order was running", countAttempt := false }

/-- The handlers of `TimeoutError` and of any other exception: the first write and those after, or
none where opening the circuit raises. -/
def handles (failure : Failure) : Option (HandlerWrite × List HandlerWrite) :=
  match failure with
  | .timeout =>
    some (.requeue
      { stage := e.stage, results := e.results
        reason := "Codex " ++ e.stage.value ++ " turn exceeded " ++ config.turnTimeout ++
          " seconds" }, [])
  | .error typeName message =>
    let reason := typeName ++ ": " ++ message
    if isRetryableCodexError reason then
      match outside.retryAt reason with
      | .error _ => none
      | .ok retryAt =>
        some (.persistCircuit reason retryAt,
          [.requeue { stage := e.stage, results := e.results, reason, countAttempt := false }
            (some (max 1000000 (retryAt - outside.now)))])
    else some (.finish .failed .failed { error := some reason }, [])

end Execution

inductive Ending
  | returned
  | cancelled
  | failed
  deriving DecidableEq

/-- The task of `_execute`, by the await where it is. One that is `created` has not run yet, and one
that has `ended` is still the active task until the worker goes on. -/
inductive Activity
  | created (order : WorkOrder)
  | waits (e : Execution) (on : Await)
  | accesses (e : Execution) (access : Access)
  | handles (identifier : String) (write : HandlerWrite) (rest : List HandlerWrite)
      (ending : Ending)
  | closing (identifier : String) (ending : Ending)
  | ended (identifier : String) (ending : Ending)

def Activity.order : Activity → String
  | .created order => order.id
  | .waits e _ => e.order.id
  | .accesses e _ => e.order.id
  | .handles identifier _ _ _ => identifier
  | .closing identifier _ => identifier
  | .ended identifier _ => identifier

/-- The task is in the body of `_execute`. -/
def Activity.inBody : Activity → Bool
  | .waits _ _ | .accesses _ _ => true
  | _ => false

def Activity.written : Activity → Bool
  | .closing _ _ | .ended _ _ => true
  | _ => false

def Activity.ofSuspension (config : RunnerConfig) (outside : Outside) (identifier : String) :
    Suspension → Activity
  | .waits e on => .waits e on
  | .accesses e access => .accesses e access
  | .returns => .closing identifier .returned
  | .raises e failure =>
    match e.handles config outside failure with
    | some (write, rest) => .handles identifier write rest .returned
    | none => .closing identifier .failed

inductive Startup
  | migrate
  | interrupted
  | optimizerStages
  | passedReviews
  | failedReviews
  | pickBacktests
  | checkpointBacktest (identifier : String) (results : Results)
  | queueBacktest (identifier : String)
  | finishBacktest (identifier : String) (results : Results)
  | clearRetries

/-- The recoveries of `_run`, in order. -/
def startups : List Startup :=
  [.migrate, .interrupted, .optimizerStages, .passedReviews, .failedReviews, .pickBacktests,
    .clearRetries]

namespace Startup

/-- The one order an access rewrites. -/
def order : Startup → Option String
  | .checkpointBacktest identifier _ => some identifier
  | .queueBacktest identifier => some identifier
  | .finishBacktest identifier _ => some identifier
  | _ => none

def ofBacktest (order : WorkOrder) (results : Results) : List Startup :=
  if order.needsOptimization then
    [.checkpointBacktest order.id results, .queueBacktest order.id]
  else [.finishBacktest order.id results]

variable (config : RunnerConfig) (outside : Outside) (d : Durable)

/-- What the access leaves, what it raises, and the accesses that come before the ones left. -/
def run : Startup → Durable × Option Failure × List Startup
  | .migrate =>
    (d.onStore (·.mapOrders (·.migrateOptimization) WorkOrder.migrateOptimization_id), none, [])
  | .interrupted =>
    (d.onStore (·.mapOrders (·.recoverInterrupted) WorkOrder.recoverInterrupted_id), none, [])
  | .optimizerStages => (d.onStore (·.recoverOptimizerStages config), none, [])
  | .passedReviews => (d.onStore (·.recoverPassedReviews), none, [])
  | .failedReviews => (d.onStore (·.recoverFailedReviews config), none, [])
  | .pickBacktests =>
    (d, none, d.store.workOrders.entries.flatMap fun order =>
      match order.completedBacktest outside with
      | none => []
      | some results => ofBacktest order results)
  | .checkpointBacktest identifier results =>
    let (d, raised) := d.checkpoint outside identifier .optimize results none none
    (d, raised, [])
  | .queueBacktest identifier =>
    (d.modify identifier ({ · with status := .queued }) (WorkOrder.withStatus_id · .queued),
      none, [])
  | .finishBacktest identifier results =>
    let (d, raised) :=
      d.finish outside identifier .awaitingBacktestApproval .backtestApproval results
    (d, raised, [])
  | .clearRetries =>
    (d.onStore (·.mapOrders (·.clearTerminalRetry) WorkOrder.clearTerminalRetry_id), none, [])

end Startup

inductive Loop
  | stopped
  | recovering (todo : List Startup)
  | polling
  | closingCircuit
  | claiming
  | executing

/-- A call of `cancel`. One that `joins` awaits the active task, and a `woken` one returns next. -/
inductive CancelCall
  | reads (identifier : Option String)
  | joins (identifier : String)
  | woken (identifier : String)
  | writes (identifier : String)
  deriving DecidableEq

/-- `cancelling` is a `CancelledError` on its way to the active task, and `stopping` is `_stop`.
`returned` are the orders of the calls that returned normally. -/
structure Schedule where
  durable : Durable := {}
  loop : Loop := .stopped
  task : Option Activity := none
  cancelling : Bool := false
  stopping : Bool := false
  cancelRequested : List String := []
  calls : List CancelCall := []
  returned : List String := []

/-- What happens next. A cancel call is named by its place among those that have not returned. -/
inductive Point
  | start
  | startup
  | poll
  | closeCircuit
  | claim
  | firstStep
  | reply (text : String)
  | acquisitionFailed (detail : String)
  | raise (failure : Failure)
  | access
  | handlerWrite
  | deliver
  | heartbeatEnds
  | reap
  | stop
  | crash
  | callCancel (identifier : Option String)
  | readCancel (call : ℕ)
  | writeCancel (call : ℕ)
  | returnCancel (call : ℕ)
  | other (event : Event)

namespace Schedule

variable (config : RunnerConfig) (outside : Outside) (s : Schedule)

def activeId : Option String := s.task.map Activity.order

def start : Schedule :=
  match s.loop with
  | .stopped => { s with loop := .recovering startups, stopping := false }
  | _ => s

def startup : Schedule :=
  match s.loop with
  | .recovering [] => { s with loop := .polling }
  | .recovering (next :: todo) =>
    match next.run config outside s.durable with
    | (d, some _, _) => { s with durable := d, loop := .stopped }
    | (d, none, before) => { s with durable := d, loop := .recovering (before ++ todo) }
  | _ => s

/-- `_circuit_delay` up to its second await. -/
def poll : Schedule :=
  match s.loop with
  | .polling =>
    match s.durable.store.codexCircuit with
    | none => { s with loop := .claiming }
    | some circuit =>
      if outside.now < circuit.openUntil then s else { s with loop := .closingCircuit }
  | _ => s

def closeCircuit : Schedule :=
  match s.loop with
  | .closingCircuit =>
    { s with
      durable := s.durable.onStore fun store => { store with codexCircuit := none }
      loop := .claiming }
  | _ => s

/-- `_claim_next`, and the task of the order it claims. -/
def claim : Schedule :=
  match s.loop with
  | .claiming =>
    match s.durable.store.workOrders.entries.find? (·.due outside.now) with
    | none => { s with loop := .polling }
    | some order =>
      { s with
        durable := s.durable.modify order.id (·.claimed) WorkOrder.claimed_id
        loop := .executing
        task := some (.created order.claimed)
        cancelling := false }
  | _ => s

def proceeds (identifier : String) (d : Durable) (next : Suspension) : Schedule :=
  { s with
    durable := d
    task := some (.ofSuspension config outside identifier next)
    cancelling := false }

def firstStep : Schedule :=
  match s.task, s.cancelling with
  | some (.created order), false =>
    s.proceeds config outside order.id s.durable (Execution.ofClaimed order).starts
  | _, _ => s

/-- What is awaited ends by itself. A `CancelledError` on its way was swallowed there. -/
def reply (text : String) : Schedule :=
  match s.task with
  | some (.waits e on) =>
    s.proceeds config outside e.order.id s.durable (e.resumes config outside on text)
  | _ => s

def acquisitionFailed (detail : String) : Schedule :=
  match s.task with
  | some (.waits e .dataset) =>
    s.proceeds config outside e.order.id s.durable (e.acquisitionFails detail)
  | _ => s

def raise (failure : Failure) : Schedule :=
  match s.task with
  | some (.waits e _) => s.proceeds config outside e.order.id s.durable (.raises e failure)
  | _ => s

def access : Schedule :=
  match s.task, s.cancelling with
  | some (.accesses e access), false =>
    let (d, next) := access.run config outside e s.durable
    s.proceeds config outside e.order.id d next
  | _, _ => s

def handlerWrite : Schedule :=
  match s.task, s.cancelling with
  | some (.handles identifier write rest ending), false =>
    match write.run config outside identifier s.durable, rest with
    | (d, some _), _ => { s with durable := d, task := some (.closing identifier .failed) }
    | (d, none), [] => { s with durable := d, task := some (.closing identifier ending) }
    | (d, none), next :: rest =>
      { s with durable := d, task := some (.handles identifier next rest ending) }
  | _, _ => s

def wake (identifier : String) (ending : Ending) : CancelCall → Option CancelCall
  | .joins joined =>
    if joined = identifier then if ending = .failed then none else some (.woken joined)
    else some (.joins joined)
  | call => some call

def ends (identifier : String) (ending : Ending) : Schedule :=
  { s with
    task := some (.ended identifier ending)
    calls := s.calls.filterMap (wake identifier ending) }

/-- The `CancelledError` arrives: before the first step there is no one to handle it, the body has a
handler, and a handler that it interrupts writes no more. -/
def deliver : Schedule :=
  match s.task, s.cancelling with
  | some (.created order), true => { s.ends order.id .cancelled with cancelling := false }
  | some (.waits e _), true | some (.accesses e _), true =>
    { s with
      task := some (.handles e.order.id (e.handlesCancel (e.order.id ∈ s.cancelRequested)) []
        .cancelled)
      cancelling := false
      cancelRequested := s.cancelRequested.filter (· != e.order.id) }
  | some (.handles identifier _ _ _), true =>
    { s with task := some (.closing identifier .cancelled), cancelling := false }
  | _, _ => s

def heartbeatEnds : Schedule :=
  match s.task with
  | some (.closing identifier ending) => s.ends identifier ending
  | _ => s

def reap : Schedule :=
  match s.task with
  | some (.ended _ ending) =>
    { s with
      task := none
      loop := if ending = .returned ∧ s.stopping = false then .polling else .stopped }
  | _ => s

/-- `Task.cancel` of the active task. While the heartbeat ends it is suppressed. -/
def cancelTask : Schedule :=
  match s.task with
  | some activity => if activity.written then s else { s with cancelling := true }
  | none => s

/-- `close` of the runner. -/
def stop : Schedule :=
  match s.loop with
  | .stopped => { s with stopping := true }
  | .executing => { s.cancelTask with stopping := true }
  | _ => { s with loop := .stopped, stopping := true }

def crash : Schedule := { durable := s.durable, returned := s.returned }

def callCancel (identifier : Option String) : Schedule :=
  { s with calls := s.calls ++ [.reads identifier] }

/-- The orders a `cancel` may mean. -/
def cancelCandidates (identifier : Option String) : List WorkOrder :=
  ({ durable := s.durable } : Gateway).cancelCandidates identifier

/-- `cancel` after its first await. -/
def readCancel (call : ℕ) : Schedule :=
  match s.calls[call]? with
  | some (.reads identifier) =>
    match s.cancelCandidates identifier with
    | [selected] =>
      if s.activeId = some selected.id then
        let requested := { s.cancelTask with cancelRequested := selected.id :: s.cancelRequested }
        match s.task with
        | some (.ended _ .failed) => { requested with calls := s.calls.eraseIdx call }
        | some (.ended _ _) =>
          { requested with
            calls := s.calls.eraseIdx call, returned := selected.id :: s.returned }
        | _ => { requested with calls := s.calls.set call (.joins selected.id) }
      else { s with calls := s.calls.set call (.writes selected.id) }
    | _ => { s with calls := s.calls.eraseIdx call }
  | _ => s

/-- `cancel` after the await of its own write. -/
def writeCancel (call : ℕ) : Schedule :=
  match s.calls[call]? with
  | some (.writes identifier) =>
    match s.durable.find identifier with
    | none => { s with calls := s.calls.eraseIdx call }
    | some _ =>
      { s with
        durable := s.durable.modify identifier (·.cancelledIdle) WorkOrder.cancelledIdle_id
        calls := s.calls.eraseIdx call
        returned := identifier :: s.returned }
  | _ => s

def returnCancel (call : ℕ) : Schedule :=
  match s.calls[call]? with
  | some (.woken identifier) =>
    { s with calls := s.calls.eraseIdx call, returned := identifier :: s.returned }
  | _ => s

/-- Users of the store. `resume_after_quota_reset` closes the runner before its write and starts it
after. -/
def other (event : Event) : Schedule :=
  let g : Gateway := { durable := s.durable }
  match event with
  | .create work stamp => { s with durable := (g.create work stamp).durable }
  | .approve identifier gate approved note =>
    { s with durable := (g.approve identifier gate approved note).durable }
  | .retry identifier artifactId artifactVersion reason =>
    { s with durable := (g.retry outside identifier artifactId artifactVersion reason).durable }
  | .resumeQuota identifier => { s with durable := (g.resumeQuota identifier).durable }
  | _ => s

def step (s : Schedule) (input : Point × Outside) : Schedule :=
  match input.1 with
  | .start => s.start
  | .startup => s.startup config input.2
  | .poll => s.poll input.2
  | .closeCircuit => s.closeCircuit
  | .claim => s.claim input.2
  | .firstStep => s.firstStep config input.2
  | .reply text => s.reply config input.2 text
  | .acquisitionFailed detail => s.acquisitionFailed config input.2 detail
  | .raise failure => s.raise config input.2 failure
  | .access => s.access config input.2
  | .handlerWrite => s.handlerWrite config input.2
  | .deliver => s.deliver
  | .heartbeatEnds => s.heartbeatEnds
  | .reap => s.reap
  | .stop => s.stop
  | .crash => s.crash
  | .callCancel identifier => s.callCancel identifier
  | .readCancel call => s.readCancel call
  | .writeCancel call => s.writeCancel call
  | .returnCancel call => s.returnCancel call
  | .other event => s.other input.2 event

end Schedule

end ChainQuantStudio.Studio
