import ChainQuantStudio.Studio.WorkerLoop

/-!
# The loop survives its executions

An execution that has written its order ends, and the loop claims the next one, unless an exception
leaves `_execute` or a `CancelledError` passes through it. The handlers write again after a failure,
so they raise where the order's artifact cannot be recorded.
-/

namespace ChainQuantStudio.Studio

def Worker.over : Worker → Bool
  | .stopped | .closing _ true => true
  | _ => false

/-- How many waits of `_execute` may follow. -/
def Await.remaining : Await → ℕ
  | .dataset => 4
  | .turn (.strategy _) | .turn (.backtest _) => 3
  | .turn (.review _ _) => 2
  | .turn (.optimize _) | .turn .maintenance => 1

def Worker.remaining : Worker → ℕ
  | .claimed _ => 6
  | .running _ on => on.remaining + 1
  | .closing _ _ => 1
  | _ => 0

/-- The segment waits for less than `n`. -/
def Segment.WaitsBelow (n : ℕ) : Segment → Prop
  | .awaiting _ _ on => on.remaining < n
  | _ => True

section Progress

variable {config : RunnerConfig} {outside : Outside} {d : Durable} {e : Execution} {n : ℕ}

theorem Segment.WaitsBelow.mono {seg : Segment} {m : ℕ} (h : seg.WaitsBelow n) (hnm : n ≤ m) :
    seg.WaitsBelow m := by
  cases seg with
  | awaiting d e on => exact Nat.lt_of_lt_of_le h hnm
  | returned d => trivial
  | raised d e failure => trivial

end Progress

def Durable.Recordable (outside : Outside) (identifier : String) (d : Durable) : Prop :=
  ∀ order, d.find identifier = some order →
    ∃ record, artifactRecord outside order = .ok record

def Segment.Survivable (outside : Outside) : Segment → Prop
  | .raised d e (.error typeName message) =>
    ¬ (Failure.error typeName message).OutOfYears outside ∧
      (isRetryableCodexError (typeName ++ ": " ++ message) = true ∨
        d.Recordable outside e.order.id)
  | _ => True

def Durable.Completable (outside : Outside) (d : Durable) : Prop :=
  ∀ order ∈ d.store.workOrders, ∀ results, order.completedBacktest outside = some results →
    order.needsOptimization = true ∨ ∃ record, artifactRecord outside order = .ok record

def Durable.requeued (config : RunnerConfig) (d : Durable) : Durable :=
  d.onStore fun s =>
    (((s.mapOrders (·.migrateOptimization) WorkOrder.migrateOptimization_id).mapOrders
      (·.recoverInterrupted)
        WorkOrder.recoverInterrupted_id).recoverOptimizerStages
          config).recoverPassedReviews.recoverFailedReviews config

/-- The step lets no exception out of an execution, and cancels none for a user. -/
def Gateway.Spares (config : RunnerConfig) (g : Gateway) (input : Input) : Prop :=
  match g.worker, input.event with
  | .starting, .recover => (g.durable.requeued config).Completable input.outside
  | .claimed order, .begin =>
    ((Execution.ofClaimed order).begin input.outside g.durable).Survivable input.outside
  | .running e on, .reply text =>
    (e.resume config input.outside on text g.durable).Survivable input.outside
  | .running e _, .raise failure =>
    (Segment.raised g.durable e failure).Survivable input.outside
  | .claimed order, .cancel identifier =>
    ∀ selected, g.cancelCandidates identifier = [selected] → selected.id ≠ order.id
  | .running e _, .cancel identifier =>
    ∀ selected, g.cancelCandidates identifier = [selected] → selected.id ≠ e.order.id
  | _, _ => True

section Raises

variable {config : RunnerConfig} {outside : Outside} {d : Durable} {order : WorkOrder}

end Raises

section Loop

variable {config : RunnerConfig} {outside : Outside} {g : Gateway}

namespace Process

variable {p : Process} {input : Input}

/-- No write of the worker is refused until the loop is told to end, and otherwise the step lets no
exception out of an execution and cancels none for a user. -/
def Spares (config : RunnerConfig) (p : Process) (attempt : Attempt) : Prop :=
  p.gateway.Spares config attempt.toInput ∧
    (attempt.refused = true → p.gateway.broken attempt.toInput ≠ none → attempt.event = .stop)

variable {attempt : Attempt}

end Process

end Loop

end ChainQuantStudio.Studio
