import ChainQuantStudio.Workflow.LiveGate

/-!
# Approval flags

The flags of a project against the evidence they were given for. As long as no live approval is
rejected and no approved optimization is followed by a new implementation, the stage of a project
and whether it needs a backtest determine its implementation, backtest, user and live flags.
-/

namespace ChainQuantStudio.Workflow

def Operation.approvesImplementation : Operation → Bool
  | .approveImplementation approved _ => approved
  | _ => false

def Operation.approvesBacktest : Operation → Bool
  | .reviewBacktest approved _ => approved
  | _ => false

def Operation.approvesOptimization : Operation → Bool
  | .approveOptimization approved _ => approved
  | _ => false

def lastOf (kind : Operation → Bool) (trace : List Completed) : Option Completed :=
  (trace.filter fun completed => kind completed.operation).getLast?

theorem lastOf_concat (kind : Operation → Bool) (trace : List Completed) (c : Completed) :
    lastOf kind (trace ++ [c]) = if kind c.operation then some c else lastOf kind trace := by
  cases h : kind c.operation with
  | true => simp [lastOf, List.filter_append, h]
  | false => simp [lastOf, List.filter_append, h]

def WorkflowStage.beforeImplementationGate : WorkflowStage → Bool
  | .signalImplementation | .strategyImplementation | .reviewingImplementation
  | .awaitingImplementationApproval => true
  | _ => false

structure FlagsCurrent (project : StudioProject) (trace : List Completed) : Prop where
  implementation : project.implementationApproved = true →
    ∃ c, lastOf Operation.approvesImplementation trace = some c ∧
      c.found.implementation = project.implementation
  backtest : project.backtestApproved = true →
    ∃ c, lastOf Operation.approvesBacktest trace = some c ∧ c.found.backtest = project.backtest
  optimization : project.optimizationApproved = some true →
    ∃ c, lastOf Operation.approvesOptimization trace = some c ∧
      c.found.optimizationProposal = project.optimizationProposal
  user : project.userApproved = true → project.backtestApproved = true
  beforeImplementation : project.stage.beforeImplementationGate = true →
    project.implementationApproved = false
  beforeBacktest :
    (project.stage.beforeImplementationGate || project.stage.inBacktest) = true →
    project.backtestApproved = false ∧ project.userApproved = false
  beforeLive : project.stage.live = false → project.liveApproved = false
  beforeNext : project.optimizationApproved = some true → project.stage = .strategyImplementation

def StudioProject.flags (project : StudioProject) : Bool × Bool × Bool × Bool :=
  (project.implementationApproved, project.backtestApproved, project.userApproved,
    project.liveApproved)

def WorkflowStage.flags (required : Bool) : WorkflowStage → Bool × Bool × Bool × Bool
  | .signalImplementation | .strategyImplementation | .reviewingImplementation
  | .awaitingImplementationApproval | .rejected => (false, false, false, false)
  | .backtesting | .reviewingBacktest | .optimizing | .awaitingOptimizationApproval
  | .awaitingBacktestApproval => (true, false, false, false)
  | .awaitingLiveApproval => (true, required, required, false)
  | .readyForSignal | .readyForTrading | .signalRunning | .signalStopped | .maintenance =>
    (true, required, required, true)

def OptimizationCurrent (project : StudioProject) (trace : List Completed) : Prop :=
  project.optimizationApproved = some true →
    project.stage = .strategyImplementation ∧
      ∃ c, lastOf Operation.approvesOptimization trace = some c ∧
        c.found.optimizationProposal = project.optimizationProposal

structure Fresh (project : StudioProject) (trace : List Completed) : Prop where
  flags : project.flags = project.stage.flags project.backtestRequired
  required : project.stage.inBacktest = true → project.backtestRequired = true
  implementation : project.implementationApproved = true →
    ∃ c, lastOf Operation.approvesImplementation trace = some c ∧
      c.found.implementation = project.implementation
  backtest : project.backtestApproved = true →
    ∃ c, lastOf Operation.approvesBacktest trace = some c ∧ c.found.backtest = project.backtest
  optimization : OptimizationCurrent project trace

theorem Fresh.current {project : StudioProject} {trace : List Completed}
    (h : Fresh project trace) : FlagsCurrent project trace := by
  have hflags := h.flags
  refine ⟨h.implementation, h.backtest, fun hset => (h.optimization hset).2, ?_, ?_, ?_, ?_,
    fun hset => (h.optimization hset).1⟩ <;>
    cases hstage : project.stage <;>
    simp_all [StudioProject.flags, WorkflowStage.flags, WorkflowStage.beforeImplementationGate,
      WorkflowStage.inBacktest, WorkflowStage.live]

theorem Fresh.unoptimized {project : StudioProject} {trace : List Completed}
    (h : Fresh project trace) (hstage : project.stage ≠ .strategyImplementation) :
    project.optimizationApproved ≠ some true := fun hset => hstage (h.optimization hset).1

theorem Fresh.keep {project next : StudioProject} {trace : List Completed} {c : Completed}
    (h : Fresh project trace) (hflags : next.flags = next.stage.flags next.backtestRequired)
    (hrequired : next.stage.inBacktest = true → next.backtestRequired = true)
    (himplementation : next.implementationApproved = true →
      project.implementationApproved = true ∧ next.implementation = project.implementation)
    (hbacktest : next.backtestApproved = true →
      project.backtestApproved = true ∧ next.backtest = project.backtest)
    (hoptimization : OptimizationCurrent next (trace ++ [c]))
    (hc : c.operation.approvesImplementation = false)
    (hc' : c.operation.approvesBacktest = false) : Fresh next (trace ++ [c]) := by
  refine ⟨hflags, hrequired, fun hset => ?_, fun hset => ?_, hoptimization⟩
  · obtain ⟨hold, hsame⟩ := himplementation hset
    rw [lastOf_concat, hc, hsame]
    exact h.implementation hold
  · obtain ⟨hold, hsame⟩ := hbacktest hset
    rw [lastOf_concat, hc', hsame]
    exact h.backtest hold

section Step

variable {validate : BacktestEvidence → Option String} {project : StudioProject}
  {trace : List Completed}

theorem Fresh.flags_eq (h : Fresh project trace) {stage : WorkflowStage}
    (hstage : project.stage = stage) :
    (project.implementationApproved, project.backtestApproved, project.userApproved,
      project.liveApproved) = stage.flags project.backtestRequired := by
  rw [← hstage]
  exact h.flags

theorem Fresh.approveImplementation (h : Fresh project trace) {approved : Bool} {note : String}
    (hstage : project.stage = .awaitingImplementationApproval) :
    Fresh ((approveImplementation approved note).change project)
      (trace ++ [⟨.approveImplementation approved note, project⟩]) := by
  have hflags := h.flags_eq hstage
  simp only [WorkflowStage.flags, Prod.mk.injEq] at hflags
  obtain ⟨himplementation, hbacktest, huser, hlive⟩ := hflags
  have hunset := h.unoptimized (by simp [hstage])
  cases approved with
  | false =>
    refine h.keep ?_ ?_ (by simp [Workflow.approveImplementation])
      (by simp [Workflow.approveImplementation, hbacktest]) (fun hset => absurd hset hunset) rfl rfl
    · cases hkind : project.artifactKind <;>
        simp [Workflow.approveImplementation, implementationStage, StudioProject.flags,
          WorkflowStage.flags, hkind, hbacktest, huser, hlive]
    · cases hkind : project.artifactKind <;>
        simp [Workflow.approveImplementation, implementationStage, WorkflowStage.inBacktest, hkind]
  | true =>
    refine ⟨?_, ?_, ?_, ?_, fun hset => absurd hset hunset⟩
    · cases hrequired : project.backtestRequired <;>
        simp [Workflow.approveImplementation, StudioProject.flags, WorkflowStage.flags, hrequired,
          hbacktest, huser, hlive]
    · cases hrequired : project.backtestRequired <;>
        simp [Workflow.approveImplementation, hrequired, WorkflowStage.inBacktest]
    · intro _
      exact ⟨⟨.approveImplementation true note, project⟩, lastOf_concat _ _ _, rfl⟩
    · intro hset
      simp [Workflow.approveImplementation, hbacktest] at hset

theorem Fresh.reviewBacktest (h : Fresh project trace) {approved : Bool} {note : String}
    (hstage : project.stage = .awaitingBacktestApproval) :
    Fresh ((reviewBacktest approved note).change project)
      (trace ++ [⟨.reviewBacktest approved note, project⟩]) := by
  have hflags := h.flags_eq hstage
  simp only [WorkflowStage.flags, Prod.mk.injEq] at hflags
  obtain ⟨himplementation, hbacktest, huser, hlive⟩ := hflags
  have hrequired : project.backtestRequired = true :=
    h.required (by simp [hstage, WorkflowStage.inBacktest])
  have hunset := h.unoptimized (by simp [hstage])
  cases approved with
  | false =>
    refine h.keep ?_ (fun _ => hrequired) ?_ (by simp [Workflow.reviewBacktest])
      (fun hset => absurd hset hunset) rfl rfl
    · simp [Workflow.reviewBacktest, StudioProject.flags, WorkflowStage.flags, himplementation,
        hlive]
    · simp [Workflow.reviewBacktest]
  | true =>
    refine ⟨?_, fun _ => hrequired, ?_, ?_, fun hset => absurd hset hunset⟩
    · simp [Workflow.reviewBacktest, StudioProject.flags, WorkflowStage.flags, himplementation,
        hlive, hrequired]
    · intro hset
      rw [lastOf_concat]
      exact h.implementation hset
    · intro _
      exact ⟨⟨.reviewBacktest true note, project⟩, lastOf_concat _ _ _, rfl⟩

theorem Fresh.cleared {next : StudioProject} {c : Completed} (h : Fresh project trace)
    (hflags : next.flags = (false, false, false, false))
    (hstage : next.stage.beforeImplementationGate = true)
    (hoptimization : OptimizationCurrent next (trace ++ [c]))
    (hc : c.operation.approvesImplementation = false)
    (hc' : c.operation.approvesBacktest = false) : Fresh next (trace ++ [c]) := by
  have hunset := hflags
  simp only [StudioProject.flags, Prod.mk.injEq] at hunset
  refine h.keep ?_ ?_ (by simp [hunset.1]) (by simp [hunset.2.1]) hoptimization hc hc'
  · rw [hflags]
    cases hs : next.stage <;> simp_all [WorkflowStage.beforeImplementationGate, WorkflowStage.flags]
  · cases hs : next.stage <;>
      simp_all [WorkflowStage.beforeImplementationGate, WorkflowStage.inBacktest]

theorem Fresh.moved {next : StudioProject} {c : Completed} (h : Fresh project trace)
    (hflags : next.flags = project.flags)
    (hstage : next.stage.flags next.backtestRequired =
      project.stage.flags project.backtestRequired)
    (hrequired : next.stage.inBacktest = true → next.backtestRequired = true)
    (himplementation : next.implementation = project.implementation)
    (hbacktest : next.backtestApproved = true → next.backtest = project.backtest)
    (hunset : next.optimizationApproved ≠ some true)
    (hc : c.operation.approvesImplementation = false)
    (hc' : c.operation.approvesBacktest = false) : Fresh next (trace ++ [c]) := by
  have hsame := hflags
  simp only [StudioProject.flags, Prod.mk.injEq] at hsame
  refine h.keep (by rw [hflags, h.flags, hstage]) hrequired ?_ ?_ (fun hset => absurd hset hunset)
    hc hc'
  · intro hset
    exact ⟨hsame.1 ▸ hset, himplementation⟩
  · intro hset
    exact ⟨hsame.2.1 ▸ hset, hbacktest hset⟩

theorem Fresh.reviewImplementation (h : Fresh project trace) {approved : Bool} {evidence : String}
    (hstage : project.stage = .reviewingImplementation) :
    Fresh ((reviewImplementation approved evidence).change project)
      (trace ++ [⟨.reviewImplementation approved evidence, project⟩]) := by
  have hunset := h.unoptimized (by simp [hstage])
  refine h.cleared ?_ ?_ (fun hset => absurd hset hunset) rfl rfl
  · exact h.flags_eq hstage
  · cases approved with
    | true => rfl
    | false => cases hkind : project.artifactKind <;>
        simp [Workflow.reviewImplementation, hkind, implementationStage,
          WorkflowStage.beforeImplementationGate]

theorem Fresh.reviewBacktestEvidence (h : Fresh project trace) {approved : Bool}
    {evidence : String} (hstage : project.stage = .reviewingBacktest) :
    Fresh ((reviewBacktestEvidence approved evidence).change project)
      (trace ++ [⟨.reviewBacktestEvidence approved evidence, project⟩]) := by
  have hrequired : project.backtestRequired = true :=
    h.required (by simp [hstage, WorkflowStage.inBacktest])
  refine h.moved rfl ?_ (fun _ => hrequired) rfl (fun _ => rfl)
    (h.unoptimized (by simp [hstage])) rfl rfl
  rw [hstage]
  cases approved with
  | false => rfl
  | true =>
    by_cases hkind : project.artifactKind = .strategy
    · simp [Workflow.reviewBacktestEvidence, hkind, WorkflowStage.flags]
    · simp [Workflow.reviewBacktestEvidence, hkind, WorkflowStage.flags]

theorem Fresh.approveOptimization (h : Fresh project trace) {approved : Bool} {note : String}
    (hstage : project.stage = .awaitingOptimizationApproval) :
    Fresh ((approveOptimization approved note).change project)
      (trace ++ [⟨.approveOptimization approved note, project⟩]) := by
  have hflags := h.flags_eq hstage
  simp only [WorkflowStage.flags, Prod.mk.injEq] at hflags
  cases approved with
  | true =>
    refine h.cleared ?_ rfl ?_ rfl rfl
    · simp [Workflow.approveOptimization, StudioProject.flags, hflags]
    · intro _
      exact ⟨rfl, ⟨.approveOptimization true note, project⟩, lastOf_concat _ _ _, rfl⟩
  | false =>
    have hrequired : project.backtestRequired = true :=
      h.required (by simp [hstage, WorkflowStage.inBacktest])
    refine h.moved rfl ?_ (fun _ => hrequired) rfl (fun _ => rfl)
      (by simp [Workflow.approveOptimization]) rfl rfl
    rw [hstage]
    rfl

theorem Fresh.approveLive (h : Fresh project trace) {note : String}
    (hstage : project.stage = .awaitingLiveApproval) :
    Fresh ((approveLive true note).change project)
      (trace ++ [⟨.approveLive true note, project⟩]) := by
  have hflags := h.flags_eq hstage
  simp only [WorkflowStage.flags, Prod.mk.injEq] at hflags
  refine h.keep ?_ ?_ (fun hset => ⟨hset, rfl⟩) (fun hset => ⟨hset, rfl⟩)
    (fun hset => absurd hset (h.unoptimized (by simp [hstage]))) rfl rfl
  · cases hkind : project.artifactKind <;>
      simp [Workflow.approveLive, hkind, StudioProject.flags, WorkflowStage.flags, hflags]
  · cases hkind : project.artifactKind <;>
      simp [Workflow.approveLive, hkind, WorkflowStage.inBacktest]

/-- A successful operation keeps the flags current, unless it is a rejection at the live gate or
the implementation that an approved optimization asks for. -/
theorem Fresh.step (h : Fresh project trace) {operation : Operation}
    (haccepts : operation.Accepts validate project)
    (hlive : ∀ note, operation ≠ .approveLive false note)
    (hnext : ∀ implementation, operation = .strategyImplemented implementation →
      project.optimizationApproved ≠ some true) :
    Fresh ((operation.handler validate).change project) (trace ++ [⟨operation, project⟩]) := by
  cases operation with
  | strategyImplemented implementation =>
    refine h.cleared ?_ rfl (fun hset => absurd hset (hnext implementation rfl)) rfl rfl
    rcases haccepts.1 with hstage | hstage <;> exact h.flags_eq hstage
  | reviewImplementation approved evidence => exact h.reviewImplementation haccepts.1
  | approveImplementation approved note => exact h.approveImplementation haccepts.1
  | backtestCompleted evidence =>
    have hflags := h.flags_eq haccepts.1
    simp only [WorkflowStage.flags, Prod.mk.injEq] at hflags
    have hrequired : project.backtestRequired = true :=
      h.required (by simp [haccepts.1, WorkflowStage.inBacktest])
    refine h.moved rfl ?_ (fun _ => hrequired) rfl ?_ (h.unoptimized (by simp [haccepts.1])) rfl rfl
    · rw [haccepts.1]
      rfl
    · simp [Operation.handler, Workflow.backtestCompleted, hflags]
  | reviewBacktestEvidence approved evidence => exact h.reviewBacktestEvidence haccepts.1
  | optimizationCompleted proposal =>
    have hrequired : project.backtestRequired = true :=
      h.required (by simp [haccepts.1, WorkflowStage.inBacktest])
    refine h.moved rfl ?_ (fun _ => hrequired) rfl (fun _ => rfl)
      (h.unoptimized (by simp [haccepts.1])) rfl rfl
    rw [haccepts.1]
    rfl
  | approveOptimization approved note => exact h.approveOptimization haccepts.1
  | reviewBacktest approved note => exact h.reviewBacktest haccepts.1
  | approveLive approved note =>
    cases approved with
    | true => exact h.approveLive haccepts.1
    | false => exact absurd rfl (hlive note)
  | startSignalRuntime =>
    refine h.moved rfl ?_ (by simp [Operation.handler, Workflow.startSignalRuntime,
      WorkflowStage.inBacktest]) rfl (fun _ => rfl) (h.unoptimized ?_) rfl rfl
    · rcases haccepts.2.2 with hstage | hstage <;> rw [hstage] <;> rfl
    · rcases haccepts.2.2 with hstage | hstage <;> simp [hstage]
  | stopSignalRuntime reason =>
    refine h.moved rfl ?_ (by simp [Operation.handler, Workflow.stopSignalRuntime,
      WorkflowStage.inBacktest]) rfl (fun _ => rfl) (h.unoptimized ?_) rfl rfl
    · rcases haccepts with hstage | hstage <;> rw [hstage] <;> rfl
    · rcases haccepts with hstage | hstage <;> simp [hstage]
  | publishSignal fingerprint =>
    exact h.moved rfl rfl h.required rfl (fun _ => rfl) (h.unoptimized (by simp [haccepts.1]))
      rfl rfl
  | reportRuntimeError error =>
    refine h.moved rfl ?_ (by simp [Operation.handler, Workflow.reportRuntimeError,
      WorkflowStage.inBacktest]) rfl (fun _ => rfl) (h.unoptimized (by simp [haccepts.1])) rfl rfl
    rw [haccepts.1]
    rfl
  | resolveRuntimeError evidence resume =>
    refine h.moved rfl ?_ ?_ rfl (fun _ => rfl) (h.unoptimized (by simp [haccepts.1])) rfl rfl
    · rw [haccepts.1]
      cases resume <;> rfl
    · cases resume <;>
        simp [Operation.handler, Workflow.resolveRuntimeError, WorkflowStage.inBacktest]

theorem fresh_submission (submission : Submission) (trace : List Completed) :
    Fresh submission.project trace := by
  have hstage : submission.project.stage = implementationStage submission.artifactKind := rfl
  refine ⟨?_, ?_, by simp [Submission.project], by simp [Submission.project],
    by simp [OptimizationCurrent, Submission.project]⟩
  · cases hkind : submission.artifactKind <;>
      simp [Submission.project, hkind, implementationStage, StudioProject.flags,
        WorkflowStage.flags]
  · cases hkind : submission.artifactKind <;>
      simp [Submission.project, hkind, implementationStage, WorkflowStage.inBacktest]

theorem not_current_of_next {implementation : StrategyImplementation} {trace' : List Completed}
    (hset : project.optimizationApproved = some true) :
    ¬ FlagsCurrent ((strategyImplemented implementation).change project) trace' := by
  intro hcurrent
  cases hcurrent.beforeNext hset

theorem not_current_of_rejected (h : Fresh project trace) {note : String} {trace' : List Completed}
    (hstage : project.stage = .awaitingLiveApproval) :
    ¬ FlagsCurrent ((approveLive false note).change project) trace' := by
  intro hcurrent
  have hflags := h.flags_eq hstage
  simp only [WorkflowStage.flags, Prod.mk.injEq] at hflags
  have hunset := hcurrent.beforeImplementation rfl
  simp [Workflow.approveLive, hflags] at hunset

end Step

section Runs

variable {clock : ℕ → ClockReading} {validate : BacktestEvidence → Option String}

/-- The flags of every project are current. -/
def AllCurrent (t : Traced) : Prop :=
  ∀ projectId project, t.studio.project? projectId = some project →
    FlagsCurrent project (t.trace projectId)

def AllFresh (t : Traced) : Prop :=
  ∀ projectId project, t.studio.project? projectId = some project →
    Fresh project (t.trace projectId)

/-- The call rejects a project at the live gate. -/
def RejectsLive (t : Traced) (request : Request) : Prop :=
  ∃ projectId note project, request = .perform projectId (.approveLive false note) ∧
    t.studio.project? projectId = some project ∧ project.stage = .awaitingLiveApproval ∧
    blank note = false

/-- The call records a new implementation of a project whose optimization is approved. -/
def FollowsOptimization (t : Traced) (request : Request) : Prop :=
  ∃ projectId implementation project,
    request = .perform projectId (.strategyImplemented implementation) ∧
      t.studio.project? projectId = some project ∧
      project.optimizationApproved = some true ∧
      (project.stage = .signalImplementation ∨ project.stage = .strategyImplementation) ∧
      implementation.testPaths ≠ []

theorem allFresh_step (haware : ∀ n, (clock n).aware = true) {t : Traced} {request : Request}
    (h : AllFresh t) (hrequest : ¬ (RejectsLive t request ∨ FollowsOptimization t request)) :
    AllFresh (t.step clock validate request) := by
  intro projectId next hnext
  rcases project_step haware hnext with ⟨hold, htrace⟩ | ⟨submission, rfl, htrace⟩ |
    ⟨operation, project, hperform, hold, haccepts, rfl, htrace⟩
  · rw [htrace]
    exact h projectId next hold
  · exact fresh_submission submission _
  · rw [htrace]
    refine (h projectId project hold).step haccepts ?_ ?_
    · rintro note rfl
      exact hrequest (.inl ⟨projectId, note, project, hperform, hold, haccepts.1, haccepts.2⟩)
    · rintro implementation rfl hset
      exact hrequest (.inr ⟨projectId, implementation, project, hperform, hold, hset, haccepts⟩)

theorem not_allCurrent_step (haware : ∀ n, (clock n).aware = true) {t : Traced}
    {request : Request} (h : AllFresh t)
    (hrequest : RejectsLive t request ∨ FollowsOptimization t request) :
    ¬ AllCurrent (t.step clock validate request) := by
  intro hcurrent
  rcases hrequest with ⟨projectId, note, project, rfl, hfound, hstage, hnote⟩ |
    ⟨projectId, implementation, project, rfl, hfound, hset, hstage, htests⟩
  · have haccepts : (Operation.approveLive false note).Accepts validate project := ⟨hstage, hnote⟩
    have hnext := (call_performed haware hfound haccepts).2
    exact not_current_of_rejected (h projectId project hfound) hstage (hcurrent projectId _ hnext)
  · have haccepts : (Operation.strategyImplemented implementation).Accepts validate project :=
      ⟨hstage, htests⟩
    have hnext := (call_performed haware hfound haccepts).2
    exact not_current_of_next hset (hcurrent projectId _ hnext)

theorem allFresh_start (haware : ∀ n, (clock n).aware = true) : AllFresh (Traced.start clock) := by
  intro projectId project hproject
  rw [start_project? haware] at hproject
  cases hproject

/-- The flags of all projects are current all along a run exactly where the run rejects no project
at the live gate and records no new implementation after an approved optimization. -/
theorem flags_current_iff (haware : ∀ n, (clock n).aware = true) (requests : List Request) :
    (∀ before, before <+: requests →
      AllCurrent (Run.run (Traced.step clock validate) (Traced.start clock) before)) ↔
    Run.Guarded (Traced.step clock validate)
      (fun t request => ¬ (RejectsLive t request ∨ FollowsOptimization t request))
      (Traced.start clock) requests := by
  refine Run.always_iff_guarded (fun _ => True) AllFresh AllCurrent ?_ ?_ ?_
    (allFresh_start haware) (fun _ _ => trivial)
  · intro t h projectId project hproject
    exact (h projectId project hproject).current
  · intro t request h _ hrequest
    exact allFresh_step haware h hrequest
  · intro t request h _ hrequest
    exact not_allCurrent_step haware h (not_not.mp hrequest)

end Runs

section

def approvedLive : List Request :=
  .submit { projectId := "s1", title := "t", idea := some "i", artifactKind := .signal } ::
    [.strategyImplemented (someImplementation "1"), .reviewImplementation true "e",
      .approveImplementation true "n", .backtestCompleted (someBacktest "a"),
      .reviewBacktestEvidence true "e", .reviewBacktest false "n",
      .backtestCompleted (someBacktest "b"), .reviewBacktestEvidence true "e",
      .reviewBacktest true "n", .approveLive true "n"].map (Request.perform "s1")

theorem guarded_approvedLive :
    Run.Guarded (Traced.step utcClock fun _ => none)
      (fun t request => ¬ (RejectsLive t request ∨ FollowsOptimization t request))
      (Traced.start utcClock) approvedLive := by
  refine ⟨?_, ?_, Run.guarded_mono ?_ (Run.guarded_of_forall (p := fun request =>
    (∀ projectId note, request ≠ .perform projectId (.approveLive false note)) ∧
      ∀ projectId implementation,
        request ≠ .perform projectId (.strategyImplemented implementation)) (by simp))⟩
  · rintro (⟨_, _, _, hrequest, -⟩ | ⟨_, _, _, hrequest, -⟩) <;> cases hrequest
  · rintro (⟨_, _, _, hrequest, -⟩ | ⟨projectId, _, project, hrequest, hfound, hset, -⟩)
    · cases hrequest
    · obtain ⟨rfl, -⟩ := Request.perform.inj hrequest
      have hunset : ((Traced.step utcClock (fun _ => none) (Traced.start utcClock)
          (approvedLive.head (by simp [approvedLive]))).studio.project? "s1").map
            StudioProject.optimizationApproved = some none := by decide +kernel
      exact absurd (hunset.symm.trans (congrArg (Option.map _) hfound)) (by simp [hset])
  · rintro t request ⟨hlive, himplemented⟩
      (⟨projectId, note, -, rfl, -⟩ | ⟨projectId, implementation, -, rfl, -⟩)
    · exact hlive projectId note rfl
    · exact himplemented projectId implementation rfl

theorem flags_current_approvedLive :
    AllCurrent
      (Run.run (Traced.step utcClock fun _ => none) (Traced.start utcClock) approvedLive) :=
  (flags_current_iff (fun _ => rfl) approvedLive).mpr guarded_approvedLive approvedLive
    List.prefix_rfl

def rejectedLive : List Request :=
  .submit { projectId := "s1", title := "t", idea := some "i", artifactKind := .strategy } ::
    [.strategyImplemented (someImplementation "1"), .reviewImplementation true "e",
      .approveImplementation true "n", .backtestCompleted (someBacktest "a"),
      .reviewBacktestEvidence true "e", .optimizationCompleted "p", .approveOptimization false "n",
      .reviewBacktest true "n", .approveLive false "n", .approveImplementation true "n",
      .backtestCompleted (someBacktest "b"), .reviewBacktestEvidence true "e",
      .optimizationCompleted "p", .approveOptimization true "n"].map (Request.perform "s1")

def optimizedAgain : List Request :=
  .submit { projectId := "s1", title := "t", idea := some "i", artifactKind := .strategy } ::
    [.strategyImplemented (someImplementation "1"), .reviewImplementation true "e",
      .approveImplementation true "n", .backtestCompleted (someBacktest "a"),
      .reviewBacktestEvidence true "e", .optimizationCompleted "p", .approveOptimization true "n",
      .strategyImplemented (someImplementation "2"), .reviewImplementation true "e",
      .approveImplementation true "n", .backtestCompleted (someBacktest "b"),
      .reviewBacktestEvidence true "e", .optimizationCompleted "q"].map (Request.perform "s1")

/-- After the rejection the implementation stays approved; the second backtest shows as approved,
where the user approved the first; and in the end `user_approved` stands without
`backtest_approved`. In the other run the optimization stays approved for the new implementation,
and then for a proposal that the user has not decided on. -/
theorem flags_stale :
    let t := fun requests =>
      Run.run (Traced.step utcClock fun _ => none) (Traced.start utcClock) requests
    ((t (rejectedLive.take 10)).studio.project? "s1").map
        (fun p => (p.stage, p.implementationApproved)) =
      some (.awaitingImplementationApproval, true) ∧
    ((t (rejectedLive.take 12)).studio.project? "s1").map
        (fun p => (p.backtestApproved, p.backtest)) = some (true, some (someBacktest "b")) ∧
    (lastOf Operation.approvesBacktest ((t (rejectedLive.take 12)).trace "s1")).map
        (·.found.backtest) = some (some (someBacktest "a")) ∧
    ((t rejectedLive).studio.project? "s1").map (fun p => (p.userApproved, p.backtestApproved)) =
      some (true, false) ∧
    ((t (optimizedAgain.take 9)).studio.project? "s1").map
        (fun p => (p.stage, p.optimizationApproved)) =
      some (.reviewingImplementation, some true) ∧
    ((t optimizedAgain).studio.project? "s1").map
        (fun p => (p.optimizationApproved, p.optimizationProposal)) = some (some true, some "q") ∧
    (lastOf Operation.approvesOptimization ((t optimizedAgain).trace "s1")).map
        (·.found.optimizationProposal) = some (some "p") ∧
    ¬ AllCurrent (t (rejectedLive.take 12)) ∧ ¬ AllCurrent (t rejectedLive) ∧
    ¬ AllCurrent (t optimizedAgain) := by
  intro t
  have hbacktest : ((t (rejectedLive.take 12)).studio.project? "s1").map
      (fun p => (p.backtestApproved, p.backtest)) = some (true, some (someBacktest "b")) := by
    decide +kernel
  have happroved : (lastOf Operation.approvesBacktest ((t (rejectedLive.take 12)).trace "s1")).map
      (·.found.backtest) = some (some (someBacktest "a")) := by decide +kernel
  have huser : ((t rejectedLive).studio.project? "s1").map
      (fun p => (p.userApproved, p.backtestApproved)) = some (true, false) := by decide +kernel
  have hproposal : ((t optimizedAgain).studio.project? "s1").map
      (fun p => (p.optimizationApproved, p.optimizationProposal)) =
        some (some true, some "q") := by decide +kernel
  have hdecided : (lastOf Operation.approvesOptimization ((t optimizedAgain).trace "s1")).map
      (·.found.optimizationProposal) = some (some "p") := by decide +kernel
  refine ⟨by decide +kernel, hbacktest, happroved, huser, by decide +kernel, hproposal, hdecided,
    fun h => ?_, fun h => ?_, fun h => ?_⟩
  · obtain ⟨project, hproject, hflags⟩ := Option.map_eq_some_iff.mp hbacktest
    simp only [Prod.mk.injEq] at hflags
    obtain ⟨c, hc, hfound⟩ := (h "s1" project hproject).backtest hflags.1
    rw [hc, Option.map_some, hfound, hflags.2] at happroved
    exact absurd happroved (by decide)
  · obtain ⟨project, hproject, hflags⟩ := Option.map_eq_some_iff.mp huser
    simp only [Prod.mk.injEq] at hflags
    have hset := (h "s1" project hproject).user hflags.1
    rw [hflags.2] at hset
    cases hset
  · obtain ⟨project, hproject, hflags⟩ := Option.map_eq_some_iff.mp hproposal
    simp only [Prod.mk.injEq] at hflags
    obtain ⟨c, hc, hfound⟩ := (h "s1" project hproject).optimization hflags.1
    rw [hc, Option.map_some, hfound, hflags.2] at hdecided
    exact absurd hdecided (by decide)

end

end ChainQuantStudio.Workflow
