import ChainQuantStudio.Studio.Scheduling

/-!
# Uninterrupted executions

The gateway lets everything between two turns of an agent happen at once. From await to await this
is what an execution does when nothing comes between its accesses to the store; the handlers and the
startup recoveries are one access after the other as well.
-/

namespace ChainQuantStudio.Studio

section Bodies

variable (config : RunnerConfig) (outside : Outside)

inductive Uninterrupted : Suspension → Durable → Segment → Prop
  | waits (e : Execution) (on : Await) (d : Durable) :
    Uninterrupted (.waits e on) d (.awaiting d e on)
  | returns (d : Durable) : Uninterrupted .returns d (.returned d)
  | raises (e : Execution) (failure : Failure) (d : Durable) :
    Uninterrupted (.raises e failure) d (.raised d e failure)
  | accesses {e : Execution} {access : Access} {d : Durable} {seg : Segment}
    (h : Uninterrupted (access.run config outside e d).2 (access.run config outside e d).1 seg) :
    Uninterrupted (.accesses e access) d seg

variable {config outside} {d : Durable} {e : Execution}

theorem Uninterrupted.ofWrite (written : Durable × Option Failure) :
    Uninterrupted config outside (.ofWrite e written.2) written.1 (.ofWrite e written) := by
  obtain ⟨d, raised⟩ := written
  cases raised with
  | none => exact .returns d
  | some failure => exact .raises e failure d

theorem uninterrupted_runOptimization :
    Uninterrupted config outside (Execution.runOptimization d e).suspension d
      (Execution.runOptimization d e) := by
  unfold Execution.runOptimization
  split
  · exact .waits _ _ _
  · exact .raises _ _ _

theorem runOptimization_suspension (d d' : Durable) (e : Execution) :
    (Execution.runOptimization d e).suspension = (Execution.runOptimization d' e).suspension := by
  unfold Execution.runOptimization
  split <;> rfl

theorem dispatch_suspension (d d' : Durable) (e : Execution) :
    (Execution.dispatch d e).suspension = (Execution.dispatch d' e).suspension := by
  unfold Execution.dispatch
  split
  case h_2 => cases e.results.strategy <;> rfl
  case h_3 => cases e.results.strategy <;> rfl
  case h_4 => cases e.results.backtest <;> rfl
  case h_5 => exact runOptimization_suspension d d' e
  all_goals rfl

theorem uninterrupted_dispatch :
    Uninterrupted config outside (Execution.dispatch d e).suspension d
      (Execution.dispatch d e) := by
  unfold Execution.dispatch
  split
  case h_1 => exact .waits _ _ _
  case h_2 =>
    split
    · exact .raises _ _ _
    · exact .waits _ _ _
  case h_3 =>
    split
    · exact .raises _ _ _
    · exact .waits _ _ _
  case h_4 =>
    split
    · exact .raises _ _ _
    · exact .waits _ _ _
  case h_5 => exact uninterrupted_runOptimization
  case h_6 => exact .raises _ _ _

theorem uninterrupted_prepare :
    Uninterrupted config outside (.accesses e .prepare) d (e.datasetReady outside d) := by
  refine .accesses ?_
  simp only [Access.run, Execution.datasetReady]
  obtain ⟨d, raised⟩ := d.checkpoint outside e.order.id .backtest e.results none none
  cases raised with
  | none => exact uninterrupted_dispatch
  | some failure => exact .raises _ _ _

theorem uninterrupted_begin (config : RunnerConfig) (outside : Outside) (d : Durable)
    (e : Execution) : Uninterrupted config outside e.starts d (e.begin outside d) := by
  unfold Execution.starts Execution.begin
  cases e.order.agent with
  | maintenance => exact .waits _ _ _
  | strategy =>
    dsimp only
    split
    · exact .waits _ _ _
    · split
      · exact uninterrupted_prepare
      · rw [dispatch_suspension {} d]
        exact uninterrupted_dispatch

theorem uninterrupted_passedBacktest :
    Uninterrupted config outside (.accesses e .readOptimization) d
      (match d.find e.order.id with
      | none => .raised d e (disappeared e.order.id)
      | some order =>
        if order.needsOptimization then
          match d.checkpoint outside e.order.id .optimize e.results none none with
          | (d, some failure) => .raised d e failure
          | (d, none) => Execution.runOptimization d { e with stage := .optimize }
        else
          .ofWrite e (d.finish outside e.order.id .awaitingBacktestApproval .backtestApproval
            e.results)) := by
  refine .accesses ?_
  simp only [Access.run]
  cases d.find e.order.id with
  | none => exact .raises _ _ _
  | some order =>
    dsimp only
    split
    · refine .accesses ?_
      simp only [Access.run]
      obtain ⟨d, raised⟩ := d.checkpoint outside e.order.id .optimize e.results none none
      cases raised with
      | none => exact uninterrupted_runOptimization
      | some failure => exact .raises _ _ _
    · exact .accesses (.ofWrite _)

theorem uninterrupted_completeReview (stage : ReviewStage) (report : String) :
    Uninterrupted config outside (e.completes config stage report) d
      (e.completeReview config outside stage report d) := by
  unfold Execution.completes Execution.completeReview
  cases reviewOutcome report stage with
  | pass =>
    cases stage with
    | reviewImplementation => exact .accesses (.ofWrite _)
    | reviewBacktest => exact uninterrupted_passedBacktest
  | incomplete => exact .accesses (.ofWrite _)
  | fail => exact .accesses (.ofWrite _)
  | blocked => exact .accesses (.ofWrite _)

theorem uninterrupted_resume (config : RunnerConfig) (outside : Outside) (on : Await)
    (text : String) (d : Durable) (e : Execution) :
    Uninterrupted config outside (e.resumes config outside on text) d
      (e.resume config outside on text d) := by
  cases on with
  | dataset => exact uninterrupted_prepare
  | turn turn =>
    cases turn with
    | strategy prior =>
      refine .accesses ?_
      simp only [Access.run, Execution.resume]
      obtain ⟨d, raised⟩ := d.checkpoint outside _ .reviewImplementation _ _ _
      cases raised with
      | none => exact .waits _ _ _
      | some failure => exact .raises _ _ _
    | review stage handoff => exact uninterrupted_completeReview stage text
    | backtest handoff =>
      refine .accesses ?_
      simp only [Access.run, Execution.resume]
      obtain ⟨d, raised⟩ := d.checkpoint outside _ .reviewBacktest _ none none
      cases raised with
      | none => exact .waits _ _ _
      | some failure => exact .raises _ _ _
    | optimize handoff =>
      simp only [Execution.resumes, Execution.resume]
      split
      · exact .accesses (.ofWrite _)
      · exact .accesses (.ofWrite _)
    | maintenance => exact .returns d

end Bodies

section Writes

variable (config : RunnerConfig) (outside : Outside)

def HandlerWrite.runs (identifier : String) :
    Durable → List HandlerWrite → Durable × Option Failure
  | d, [] => (d, none)
  | d, write :: rest =>
    match write.run config outside identifier d with
    | (d, some failure) => (d, some failure)
    | (d, none) => runs identifier d rest

theorem HandlerWrite.runs_singleton (identifier : String) (d : Durable) (write : HandlerWrite) :
    runs config outside identifier d [write] = write.run config outside identifier d := by
  unfold runs
  split
  · rename_i hrun
    exact hrun.symm
  · rename_i hrun
    exact hrun.symm

theorem handlesCancel_run (byUser : Bool) (d : Durable) (e : Execution) :
    (e.handlesCancel byUser).run config outside e.order.id d =
      e.cancelled config outside byUser d := by
  cases byUser <;> rfl

theorem handles_runs (failure : Failure) (d : Durable) (e : Execution) :
    (e.handles config outside failure).elim (d, some dateOutOfRange)
        (fun writes => HandlerWrite.runs config outside e.order.id d (writes.1 :: writes.2)) =
      e.handle config outside failure d := by
  unfold Execution.handles Execution.handle
  cases failure with
  | timeout => exact HandlerWrite.runs_singleton config outside _ _ _
  | error typeName message =>
    dsimp only
    split
    · cases outside.retryAt (typeName ++ ": " ++ message) with
      | error raised => rfl
      | ok retryAt =>
        rw [Option.elim_some]
        refine (HandlerWrite.runs_singleton config outside _ _ _).trans ?_
        simp only [HandlerWrite.run, Option.all_some, decide_eq_true_eq]
        rfl
    · exact HandlerWrite.runs_singleton config outside _ _ _

theorem acquisitionFails_uninterrupted (detail : String) (d : Durable) (e : Execution) :
    Uninterrupted config outside (e.acquisitionFails detail) d
      (.ofWrite e (e.acquisitionFailed config outside detail d)) := .accesses (.ofWrite _)

inductive StartsUp : List Startup → Durable → Durable × Option Failure → Prop
  | done (d : Durable) : StartsUp [] d (d, none)
  | raised {next : Startup} {todo : List Startup} {d d' : Durable} {failure : Failure}
    {before : List Startup} (h : next.run config outside d = (d', some failure, before)) :
    StartsUp (next :: todo) d (d', some failure)
  | next {next : Startup} {todo : List Startup} {d d' : Durable} {before : List Startup}
    {result : Durable × Option Failure} (h : next.run config outside d = (d', none, before))
    (hrest : StartsUp (before ++ todo) d' result) : StartsUp (next :: todo) d result

variable {config outside}

theorem StartsUp.ofBacktest {order : WorkOrder} {results : Results} {d : Durable}
    {todo : List Startup} {result : Durable × Option Failure}
    (hraised : ∀ d' failure, d.completeBacktest outside order results = (d', some failure) →
      result = (d', some failure))
    (hrest : ∀ d', d.completeBacktest outside order results = (d', none) →
      StartsUp config outside todo d' result) :
    StartsUp config outside (Startup.ofBacktest order results ++ todo) d result := by
  unfold Durable.completeBacktest at hraised hrest
  unfold Startup.ofBacktest
  split
  case isTrue hoptimize =>
    simp only [hoptimize, if_true] at hraised hrest
    cases hcheck : d.checkpoint outside order.id .optimize results none none with
    | mk d' raised =>
      have hrun : (Startup.checkpointBacktest order.id results).run config outside d =
          (d', raised, []) := by simp only [Startup.run, hcheck]
      rw [hcheck] at hraised hrest
      cases raised with
      | some failure =>
        rw [hraised d' failure rfl]
        exact .raised hrun
      | none =>
        have hqueue := hrest _ rfl
        exact StartsUp.next hrun (StartsUp.next rfl hqueue)
  case isFalse hoptimize =>
    simp only [hoptimize, Bool.false_eq_true, if_false] at hraised hrest
    cases hfinish : d.finish outside order.id .awaitingBacktestApproval .backtestApproval
        results with
    | mk d' raised =>
      have hrun : (Startup.finishBacktest order.id results).run config outside d =
          (d', raised, []) := by simp only [Startup.run, hfinish]
      cases raised with
      | some failure =>
        rw [hraised d' failure hfinish]
        exact .raised hrun
      | none => exact StartsUp.next hrun (hrest d' hfinish)

theorem StartsUp.ofBacktests (picked : List (WorkOrder × Results)) {d : Durable}
    {todo : List Startup} {result : Durable × Option Failure}
    (hraised : ∀ d' failure, d.completeBacktests outside picked = (d', some failure) →
      result = (d', some failure))
    (hrest : ∀ d', d.completeBacktests outside picked = (d', none) →
      StartsUp config outside todo d' result) :
    StartsUp config outside
      ((picked.flatMap fun (order, results) => Startup.ofBacktest order results) ++ todo) d
      result := by
  induction picked generalizing d with
  | nil => exact hrest d rfl
  | cons pick picked ih =>
    obtain ⟨order, results⟩ := pick
    rw [List.flatMap_cons, List.append_assoc]
    apply StartsUp.ofBacktest
    · intro d' failure hone
      apply hraised
      simp only [Durable.completeBacktests, hone]
    · intro d' hone
      apply ih
      · intro d'' failure hrun
        apply hraised
        simp only [Durable.completeBacktests, hone, hrun]
      · intro d'' hrun
        apply hrest
        simp only [Durable.completeBacktests, hone, hrun]

theorem run_pickBacktests (config : RunnerConfig) (outside : Outside) (d : Durable) :
    Startup.pickBacktests.run config outside d =
      (d, none, (d.store.workOrders.entries.filterMap fun order =>
        (order.completedBacktest outside).map fun results => (order, results)).flatMap
        fun (order, results) => Startup.ofBacktest order results) := by
  simp only [Startup.run, Prod.mk.injEq, true_and]
  induction d.store.workOrders.entries with
  | nil => rfl
  | cons order orders ih =>
    rw [List.flatMap_cons, List.filterMap_cons, ih]
    cases order.completedBacktest outside with
    | none => rfl
    | some results => rfl

theorem startsUp_recover (config : RunnerConfig) (outside : Outside) (d : Durable) :
    StartsUp config outside startups d (d.recover config outside) := by
  iterate 5 refine .next rfl ?_
  refine .next (run_pickBacktests config outside _) (StartsUp.ofBacktests _ ?_ ?_)
  · intro d' failure hrun
    simp only [Durable.recover, Durable.recoverCompletedBacktests]
    split
    · rename_i hrun'
      exact hrun'.symm.trans hrun
    · rename_i hrun'
      have hboth := hrun'.symm.trans hrun
      cases hboth
  · intro d' hrun
    refine .next rfl ?_
    simp only [Durable.recover, Durable.recoverCompletedBacktests]
    split
    · rename_i hrun'
      have hboth := hrun'.symm.trans hrun
      cases hboth
    · rename_i hrun'
      have hboth := hrun'.symm.trans hrun
      cases hboth
      exact .done _

end Writes

end ChainQuantStudio.Studio
