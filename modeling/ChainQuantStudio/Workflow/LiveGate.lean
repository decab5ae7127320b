import ChainQuantStudio.Workflow.StudioSteps
import Mathlib.Data.List.Forall2

/-!
# The live gate

The stage a project has reached says which gates it has passed since its implementation was handed
in, and in which order.
-/

namespace ChainQuantStudio.Workflow

namespace Operation

def implements : Operation → Bool
  | .strategyImplemented _ => true
  | _ => false

def passedReview (operation : Operation) : Prop :=
  ∃ evidence, operation = .reviewImplementation true evidence

def passedImplementation (operation : Operation) : Prop :=
  ∃ note, operation = .approveImplementation true note

def completedBacktest (recorded : Option BacktestEvidence) (operation : Operation) : Prop :=
  ∃ evidence, operation = .backtestCompleted evidence ∧ recorded = some evidence

def passedBacktestReview (operation : Operation) : Prop :=
  ∃ evidence, operation = .reviewBacktestEvidence true evidence

def passedBacktest (operation : Operation) : Prop :=
  ∃ note, operation = .reviewBacktest true note

def passedLive (operation : Operation) : Prop :=
  ∃ note, operation = .approveLive true note

end Operation

open Operation

/-- The operations since the last `strategy_implemented` include ones that pass the gates, in
this order. -/
def Reached (gates : List (Operation → Prop)) (trace : List Completed) : Prop :=
  ∃ before handedIn after passed, trace = before ++ handedIn :: after ∧
    handedIn.operation.implements = true ∧ (∀ c ∈ after, c.operation.implements = false) ∧
    passed.Sublist after ∧
    List.Forall₂ (fun gate completed => gate completed.operation) gates passed

section Reached

variable {gates more : List (Operation → Prop)} {gate : Operation → Prop}
  {trace : List Completed} {c : Completed}

theorem reached_implemented (h : c.operation.implements = true) : Reached [] (trace ++ [c]) :=
  ⟨trace, c, [], [], rfl, h, by simp, List.Sublist.refl _, .nil⟩

theorem Reached.concat (h : Reached gates trace) (hc : c.operation.implements = false) :
    Reached gates (trace ++ [c]) := by
  obtain ⟨before, handedIn, after, passed, rfl, himplements, hafter, hpassed, hgates⟩ := h
  refine ⟨before, handedIn, after ++ [c], passed, by simp, himplements, ?_,
    hpassed.trans (List.sublist_append_left _ _), hgates⟩
  intro c' hc'
  rcases List.mem_append.mp hc' with hmem | hmem
  · exact hafter c' hmem
  · rwa [List.mem_singleton.mp hmem]

theorem Reached.pass (h : Reached gates trace) (hc : c.operation.implements = false)
    (hgate : gate c.operation) : Reached (gates ++ [gate]) (trace ++ [c]) := by
  obtain ⟨before, handedIn, after, passed, rfl, himplements, hafter, hpassed, hgates⟩ := h
  refine ⟨before, handedIn, after ++ [c], passed ++ [c], by simp, himplements, ?_,
    hpassed.append (List.Sublist.refl _), List.rel_append hgates (.cons hgate .nil)⟩
  intro c' hc'
  rcases List.mem_append.mp hc' with hmem | hmem
  · exact hafter c' hmem
  · rwa [List.mem_singleton.mp hmem]

theorem Reached.earlier (h : Reached (gates ++ more) trace) : Reached gates trace := by
  obtain ⟨before, handedIn, after, passed, htrace, himplements, hafter, hpassed, hgates⟩ := h
  refine ⟨before, handedIn, after, passed.take gates.length, htrace, himplements, hafter,
    (List.take_sublist _ _).trans hpassed, ?_⟩
  have htake := List.forall₂_take gates.length hgates
  simpa using htake

end Reached

def implementationGates : List (Operation → Prop) := [passedReview, passedImplementation]

def backtestGates (project : StudioProject) : List (Operation → Prop) :=
  if project.backtestRequired then
    [completedBacktest project.backtest, passedBacktestReview, passedBacktest]
  else []

def liveGates (project : StudioProject) : List (Operation → Prop) :=
  implementationGates ++ backtestGates project ++ [passedLive]

/-- The stages beyond the live gate. -/
def WorkflowStage.live : WorkflowStage → Bool
  | .readyForSignal | .readyForTrading | .signalRunning | .signalStopped | .maintenance => true
  | _ => false

def WorkflowStage.inBacktest : WorkflowStage → Bool
  | .backtesting | .reviewingBacktest | .optimizing | .awaitingOptimizationApproval
  | .awaitingBacktestApproval => true
  | _ => false

def WorkflowStage.ofSignal : WorkflowStage → Bool
  | .readyForSignal | .signalRunning | .signalStopped | .maintenance => true
  | _ => false

/-- The gates a project has passed where it stands; `none` where it has no implementation yet. -/
def StudioProject.passed (project : StudioProject) : Option (List (Operation → Prop)) :=
  match project.stage with
  | .signalImplementation | .strategyImplementation | .rejected => none
  | .reviewingImplementation => some []
  | .awaitingImplementationApproval => some [passedReview]
  | .backtesting => some implementationGates
  | .reviewingBacktest => some (implementationGates ++ [completedBacktest project.backtest])
  | .optimizing | .awaitingOptimizationApproval | .awaitingBacktestApproval =>
    some (implementationGates ++ [completedBacktest project.backtest, passedBacktestReview])
  | .awaitingLiveApproval => some (implementationGates ++ backtestGates project)
  | .readyForSignal | .readyForTrading | .signalRunning | .signalStopped | .maintenance =>
    some (liveGates project)

structure Sound (project : StudioProject) (trace : List Completed) : Prop where
  gates : ∀ gates, project.passed = some gates → Reached gates trace
  backtest : project.stage.inBacktest = true → project.backtestRequired = true
  signal : project.stage.ofSignal = true → project.artifactKind = .signal

theorem sound_submission (submission : Submission) (trace : List Completed) :
    Sound submission.project trace := by
  have hstage : submission.project.stage = implementationStage submission.artifactKind := rfl
  cases hkind : submission.artifactKind with
  | signal =>
    rw [hkind] at hstage
    exact ⟨by simp [StudioProject.passed, hstage, implementationStage],
      by simp [hstage, implementationStage, WorkflowStage.inBacktest],
      by simp [hstage, implementationStage, WorkflowStage.ofSignal]⟩
  | strategy =>
    rw [hkind] at hstage
    exact ⟨by simp [StudioProject.passed, hstage, implementationStage],
      by simp [hstage, implementationStage, WorkflowStage.inBacktest],
      by simp [hstage, implementationStage, WorkflowStage.ofSignal]⟩

theorem sound_implementing {project : StudioProject} {trace : List Completed}
    (h : project.stage = .signalImplementation ∨ project.stage = .strategyImplementation) :
    Sound project trace := by
  rcases h with h | h
  · exact ⟨by simp [StudioProject.passed, h], by simp [h, WorkflowStage.inBacktest],
      by simp [h, WorkflowStage.ofSignal]⟩
  · exact ⟨by simp [StudioProject.passed, h], by simp [h, WorkflowStage.inBacktest],
      by simp [h, WorkflowStage.ofSignal]⟩

theorem implementationStage_cases (kind : ArtifactKind) :
    implementationStage kind = .signalImplementation ∨
      implementationStage kind = .strategyImplementation := by
  cases kind with
  | signal => exact .inl rfl
  | strategy => exact .inr rfl

theorem sound_of_reached {project : StudioProject} {trace : List Completed}
    (gates : List (Operation → Prop)) (hpassed : project.passed = some gates)
    (hreached : Reached gates trace)
    (hbacktest : project.stage.inBacktest = true → project.backtestRequired = true)
    (hsignal : project.stage.ofSignal = true → project.artifactKind = .signal) :
    Sound project trace where
  gates gates' h := by
    rw [hpassed] at h
    rwa [← Option.some.inj h]
  backtest := hbacktest
  signal := hsignal

theorem Sound.reached {project : StudioProject} {trace : List Completed} (h : Sound project trace)
    {stage : WorkflowStage} (hstage : project.stage = stage) {gates : List (Operation → Prop)}
    (hpassed : ({ project with stage := stage } : StudioProject).passed = some gates) :
    Reached gates trace := by
  subst hstage
  exact h.gates gates hpassed

section Step

variable {validate : BacktestEvidence → Option String} {project : StudioProject}
  {trace : List Completed}

theorem Sound.strategyImplemented (implementation : StrategyImplementation) :
    Sound ((strategyImplemented implementation).change project)
      (trace ++ [⟨.strategyImplemented implementation, project⟩]) :=
  sound_of_reached [] rfl (reached_implemented rfl)
    (by simp [Workflow.strategyImplemented, WorkflowStage.inBacktest])
    (by simp [Workflow.strategyImplemented, WorkflowStage.ofSignal])

theorem Sound.reviewImplementation (h : Sound project trace) {approved : Bool} {evidence : String}
    (hstage : project.stage = .reviewingImplementation) :
    Sound ((reviewImplementation approved evidence).change project)
      (trace ++ [⟨.reviewImplementation approved evidence, project⟩]) := by
  cases approved with
  | false => exact sound_implementing (implementationStage_cases _)
  | true =>
    have hreached : Reached [] trace := h.reached hstage rfl
    exact sound_of_reached [passedReview] rfl (hreached.pass rfl ⟨evidence, rfl⟩)
      (by simp [Workflow.reviewImplementation, WorkflowStage.inBacktest])
      (by simp [Workflow.reviewImplementation, WorkflowStage.ofSignal])

theorem Sound.approveImplementation (h : Sound project trace) {approved : Bool} {note : String}
    (hstage : project.stage = .awaitingImplementationApproval) :
    Sound ((approveImplementation approved note).change project)
      (trace ++ [⟨.approveImplementation approved note, project⟩]) := by
  cases approved with
  | false => exact sound_implementing (implementationStage_cases _)
  | true =>
    have hreached : Reached [passedReview] trace := h.reached hstage rfl
    have hnext : Reached implementationGates
        (trace ++ [⟨.approveImplementation true note, project⟩]) :=
      hreached.pass rfl ⟨note, rfl⟩
    cases hrequired : project.backtestRequired with
    | true =>
      refine sound_of_reached implementationGates ?_ hnext ?_ ?_
      · simp [Workflow.approveImplementation, StudioProject.passed, hrequired]
      · simp [Workflow.approveImplementation, hrequired]
      · simp [Workflow.approveImplementation, hrequired, WorkflowStage.ofSignal]
    | false =>
      refine sound_of_reached implementationGates ?_ hnext ?_ ?_
      · simp [Workflow.approveImplementation, StudioProject.passed, backtestGates, hrequired]
      · simp [Workflow.approveImplementation, hrequired, WorkflowStage.inBacktest]
      · simp [Workflow.approveImplementation, hrequired, WorkflowStage.ofSignal]

theorem Sound.backtestCompleted (h : Sound project trace) (evidence : BacktestEvidence)
    (hstage : project.stage = .backtesting) :
    Sound ((backtestCompleted validate evidence).change project)
      (trace ++ [⟨.backtestCompleted evidence, project⟩]) := by
  have hreached : Reached implementationGates trace := h.reached hstage rfl
  have hrequired : project.backtestRequired = true :=
    h.backtest (by simp [hstage, WorkflowStage.inBacktest])
  exact sound_of_reached (implementationGates ++ [completedBacktest (some evidence)]) rfl
    (hreached.pass rfl ⟨evidence, rfl, rfl⟩) (fun _ => hrequired)
    (by simp [Workflow.backtestCompleted, WorkflowStage.ofSignal])

theorem Sound.reviewBacktestEvidence (h : Sound project trace) {approved : Bool}
    {evidence : String} (hstage : project.stage = .reviewingBacktest) :
    Sound ((reviewBacktestEvidence approved evidence).change project)
      (trace ++ [⟨.reviewBacktestEvidence approved evidence, project⟩]) := by
  have hreached : Reached (implementationGates ++ [completedBacktest project.backtest]) trace :=
    h.reached hstage rfl
  have hrequired : project.backtestRequired = true :=
    h.backtest (by simp [hstage, WorkflowStage.inBacktest])
  cases approved with
  | false =>
    exact sound_of_reached implementationGates rfl (hreached.earlier.concat rfl)
      (fun _ => hrequired) (by simp [Workflow.reviewBacktestEvidence, WorkflowStage.ofSignal])
  | true =>
    refine sound_of_reached
      (implementationGates ++ [completedBacktest project.backtest, passedBacktestReview]) ?_
      (hreached.pass rfl ⟨evidence, rfl⟩) (fun _ => hrequired) ?_
    · by_cases hkind : project.artifactKind = .strategy
      · simp [Workflow.reviewBacktestEvidence, StudioProject.passed, hkind]
      · simp [Workflow.reviewBacktestEvidence, StudioProject.passed, hkind]
    · by_cases hkind : project.artifactKind = .strategy
      · simp [Workflow.reviewBacktestEvidence, WorkflowStage.ofSignal, hkind]
      · simp [Workflow.reviewBacktestEvidence, WorkflowStage.ofSignal, hkind]

theorem Sound.optimizationCompleted (h : Sound project trace) (proposal : String)
    (hstage : project.stage = .optimizing) :
    Sound ((optimizationCompleted proposal).change project)
      (trace ++ [⟨.optimizationCompleted proposal, project⟩]) := by
  have hreached : Reached
      (implementationGates ++ [completedBacktest project.backtest, passedBacktestReview]) trace :=
    h.reached hstage rfl
  have hrequired : project.backtestRequired = true :=
    h.backtest (by simp [hstage, WorkflowStage.inBacktest])
  exact sound_of_reached _ rfl (hreached.concat rfl) (fun _ => hrequired)
    (by simp [Workflow.optimizationCompleted, WorkflowStage.ofSignal])

theorem Sound.approveOptimization (h : Sound project trace) {approved : Bool} {note : String}
    (hstage : project.stage = .awaitingOptimizationApproval) :
    Sound ((approveOptimization approved note).change project)
      (trace ++ [⟨.approveOptimization approved note, project⟩]) := by
  cases approved with
  | true => exact sound_implementing (.inr rfl)
  | false =>
    have hreached : Reached
        (implementationGates ++ [completedBacktest project.backtest, passedBacktestReview])
        trace := h.reached hstage rfl
    have hrequired : project.backtestRequired = true :=
      h.backtest (by simp [hstage, WorkflowStage.inBacktest])
    exact sound_of_reached _ rfl (hreached.concat rfl) (fun _ => hrequired)
      (by simp [Workflow.approveOptimization, WorkflowStage.ofSignal])

theorem Sound.reviewBacktest (h : Sound project trace) {approved : Bool} {note : String}
    (hstage : project.stage = .awaitingBacktestApproval) :
    Sound ((reviewBacktest approved note).change project)
      (trace ++ [⟨.reviewBacktest approved note, project⟩]) := by
  have hreached : Reached
      (implementationGates ++ [completedBacktest project.backtest, passedBacktestReview]) trace :=
    h.reached hstage rfl
  have hrequired : project.backtestRequired = true :=
    h.backtest (by simp [hstage, WorkflowStage.inBacktest])
  cases approved with
  | false =>
    exact sound_of_reached implementationGates rfl (hreached.earlier.concat rfl)
      (fun _ => hrequired) (by simp [Workflow.reviewBacktest, WorkflowStage.ofSignal])
  | true =>
    refine sound_of_reached _ rfl ?_ (fun _ => hrequired)
      (by simp [Workflow.reviewBacktest, WorkflowStage.ofSignal])
    have hpass : Reached ((implementationGates ++
        [completedBacktest project.backtest, passedBacktestReview]) ++ [passedBacktest])
        (trace ++ [⟨.reviewBacktest true note, project⟩]) := hreached.pass rfl ⟨note, rfl⟩
    simpa [Workflow.reviewBacktest, backtestGates, hrequired] using hpass

theorem Sound.approveLive (h : Sound project trace) {approved : Bool} {note : String}
    (hstage : project.stage = .awaitingLiveApproval) :
    Sound ((approveLive approved note).change project)
      (trace ++ [⟨.approveLive approved note, project⟩]) := by
  have hreached : Reached (implementationGates ++ backtestGates project) trace :=
    h.reached hstage rfl
  cases approved with
  | false =>
    have hreview : Reached [passedReview] trace :=
      @Reached.earlier [passedReview] [passedImplementation] trace hreached.earlier
    exact sound_of_reached [passedReview] rfl (hreview.concat rfl)
      (by simp [Workflow.approveLive, WorkflowStage.inBacktest])
      (by simp [Workflow.approveLive, WorkflowStage.ofSignal])
  | true =>
    refine sound_of_reached (liveGates project) ?_ (hreached.pass rfl ⟨note, rfl⟩) ?_ ?_
    · by_cases hkind : project.artifactKind = .signal
      · simp [Workflow.approveLive, StudioProject.passed, hkind, liveGates, backtestGates]
      · simp [Workflow.approveLive, StudioProject.passed, hkind, liveGates, backtestGates]
    · by_cases hkind : project.artifactKind = .signal
      · simp [Workflow.approveLive, WorkflowStage.inBacktest, hkind]
      · simp [Workflow.approveLive, WorkflowStage.inBacktest, hkind]
    · by_cases hkind : project.artifactKind = .signal
      · simp [Workflow.approveLive, hkind]
      · simp [Workflow.approveLive, WorkflowStage.ofSignal, hkind]

theorem Sound.stays {next : StudioProject} {c : Completed} (h : Sound project trace)
    (hstage : project.stage.live = true) (hnext : next.stage.live = true)
    (hgates : liveGates next = liveGates project) (hc : c.operation.implements = false)
    (hsignal : next.stage.ofSignal = true → next.artifactKind = .signal) :
    Sound next (trace ++ [c]) := by
  have hreached : Reached (liveGates project) trace := by
    apply h.gates
    cases hs : project.stage <;> simp_all [WorkflowStage.live, StudioProject.passed]
  refine sound_of_reached (liveGates next) ?_ (hgates ▸ hreached.concat hc) ?_ hsignal
  · cases hs : next.stage <;> simp_all [WorkflowStage.live, StudioProject.passed]
  · cases hs : next.stage <;> simp_all [WorkflowStage.live, WorkflowStage.inBacktest]

theorem Sound.step (h : Sound project trace) {operation : Operation}
    (haccepts : operation.Accepts validate project) :
    Sound ((operation.handler validate).change project) (trace ++ [⟨operation, project⟩]) := by
  cases operation with
  | strategyImplemented implementation => exact Sound.strategyImplemented implementation
  | reviewImplementation approved evidence => exact h.reviewImplementation haccepts.1
  | approveImplementation approved note => exact h.approveImplementation haccepts.1
  | backtestCompleted evidence => exact h.backtestCompleted evidence haccepts.1
  | reviewBacktestEvidence approved evidence => exact h.reviewBacktestEvidence haccepts.1
  | optimizationCompleted proposal => exact h.optimizationCompleted proposal haccepts.1
  | approveOptimization approved note => exact h.approveOptimization haccepts.1
  | reviewBacktest approved note => exact h.reviewBacktest haccepts.1
  | approveLive approved note => exact h.approveLive haccepts.1
  | startSignalRuntime =>
    obtain ⟨hkind, -, hstage⟩ := haccepts
    refine h.stays ?_ rfl rfl rfl fun _ => hkind
    rcases hstage with hstage | hstage <;> rw [hstage] <;> rfl
  | stopSignalRuntime reason =>
    have hsignal : project.artifactKind = .signal := by
      apply h.signal
      rcases haccepts with hstage | hstage <;> rw [hstage] <;> rfl
    refine h.stays ?_ rfl rfl rfl fun _ => hsignal
    rcases haccepts with hstage | hstage <;> rw [hstage] <;> rfl
  | publishSignal fingerprint =>
    have hlive : project.stage.live = true := by rw [haccepts.1]; rfl
    exact h.stays hlive hlive rfl rfl h.signal
  | reportRuntimeError error =>
    have hsignal : project.artifactKind = .signal := h.signal (by rw [haccepts.1]; rfl)
    exact h.stays (by rw [haccepts.1]; rfl) rfl rfl rfl fun _ => hsignal
  | resolveRuntimeError evidence resume =>
    have hsignal : project.artifactKind = .signal := h.signal (by rw [haccepts.1]; rfl)
    refine h.stays (by rw [haccepts.1]; rfl) ?_ rfl rfl fun _ => hsignal
    cases resume <;> rfl

end Step

section Runs

variable {clock : ℕ → ClockReading} {validate : BacktestEvidence → Option String}

def AllSound (t : Traced) : Prop :=
  ∀ projectId project, t.studio.project? projectId = some project →
    Sound project (t.trace projectId)

theorem allSound_step (haware : ∀ n, (clock n).aware = true) {t : Traced} (h : AllSound t)
    (request : Request) : AllSound (t.step clock validate request) := by
  intro projectId next hnext
  rcases project_step haware hnext with ⟨hold, htrace⟩ | ⟨submission, rfl, htrace⟩ |
    ⟨operation, project, -, hold, haccepts, rfl, htrace⟩
  · rw [htrace]
    exact h projectId next hold
  · exact sound_submission submission _
  · rw [htrace]
    exact (h projectId project hold).step haccepts

theorem allSound_start (haware : ∀ n, (clock n).aware = true) : AllSound (Traced.start clock) := by
  intro projectId project hproject
  rw [start_project? haware] at hproject
  cases hproject

/-- In every run a project beyond the live gate has passed, since its implementation was handed
in, the gates in their order with the backtest it records; only signals run; and a call that raises
leaves the studio as it was. -/
theorem live_gate_trace_safety (haware : ∀ n, (clock n).aware = true) (requests : List Request) :
    let t := Run.run (Traced.step clock validate) (Traced.start clock) requests
    (∀ projectId project, t.studio.project? projectId = some project →
      (project.stage.live = true → Reached (liveGates project) (t.trace projectId)) ∧
      (project.stage = .signalRunning → project.artifactKind = .signal)) ∧
    ∀ request error, (t.studio.call clock validate request).2 = some error →
      (t.studio.call clock validate request).1.projects = t.studio.projects ∧
      (t.studio.call clock validate request).1.messages = t.studio.messages := by
  intro t
  have hsound : AllSound t :=
    Run.run_invariant AllSound (fun _ request hs => allSound_step haware hs request)
      (allSound_start haware) requests
  refine ⟨fun projectId project hproject => ⟨fun hlive => ?_, fun hrunning => ?_⟩, ?_⟩
  · apply (hsound projectId project hproject).gates
    cases hs : project.stage <;> simp_all [WorkflowStage.live, StudioProject.passed]
  · exact (hsound projectId project hproject).signal (by rw [hrunning]; rfl)
  · intro request error herror
    have heffect : Effect validate t.studio request (t.studio.call clock validate request) :=
      call_effect haware t.studio request
    generalize t.studio.call clock validate request = result at heffect herror ⊢
    cases heffect with
    | raised _ error => exact ⟨rfl, rfl⟩
    | logged hrequest hprojects => cases herror
    | submitted submission hprojects => cases herror
    | performed projectId operation hfound haccepts hprojects => cases herror

end Runs

section

def utcClock (_ : ℕ) : ClockReading := { micros := 0 }

def someImplementation (version : String) : StrategyImplementation where
  strategyId := "s1"
  version := version
  specPath := none
  modulePath := "s1.py"
  testPaths := ["t.py"]

def someBacktest (runId : String) : BacktestEvidence where
  runId := runId
  manifestPath := "m"
  chartPaths := ["c.svg"]
  summary := []

def secondAttempt : List Request :=
  .submit { projectId := "s1", title := "t", idea := some "i", artifactKind := .signal } ::
    [.strategyImplemented (someImplementation "1"), .reviewImplementation true "e",
      .approveImplementation true "n", .backtestCompleted (someBacktest "a"),
      .reviewBacktestEvidence true "e", .reviewBacktest true "n", .approveLive false "n",
      .approveImplementation true "n", .backtestCompleted (someBacktest "b"),
      .reviewBacktestEvidence true "e", .reviewBacktest true "n", .approveLive true "n",
      .startSignalRuntime].map (Request.perform "s1")

theorem live_gate_trace_safety_secondAttempt :
    let t := Run.run (Traced.step utcClock fun _ => none) (Traced.start utcClock) secondAttempt
    ∃ project, t.studio.project? "s1" = some project ∧ project.stage = .signalRunning ∧
      project.backtest = some (someBacktest "b") ∧
      Reached (liveGates project) (t.trace "s1") := by
  intro t
  have hsafe := (@live_gate_trace_safety utcClock (fun _ => none) (fun _ => rfl) secondAttempt).1
  have hrun : (t.studio.project? "s1").map (fun project => (project.stage, project.backtest)) =
      some (.signalRunning, some (someBacktest "b")) := by decide +kernel
  obtain ⟨project, hproject, hstage⟩ := Option.map_eq_some_iff.mp hrun
  simp only [Prod.mk.injEq] at hstage
  refine ⟨project, hproject, hstage.1, hstage.2, ?_⟩
  exact (hsafe "s1" project hproject).1 (by rw [hstage.1]; rfl)

end

end ChainQuantStudio.Workflow
