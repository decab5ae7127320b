import ChainQuantStudio.Workflow.QuantStudio

/-!
# Steps of the studio

A run of the studio notes beside it the operations that succeeded on each project. With a clock
that has a zone, a call either raises before it changes anything or runs to its end.
-/

namespace ChainQuantStudio.Workflow

structure Completed where
  operation : Operation
  found : StudioProject

structure Traced where
  studio : QuantStudio
  trace : String → List Completed := fun _ => []

section Steps

variable (clock : ℕ → ClockReading) (validate : BacktestEvidence → Option String)

def Traced.step (t : Traced) (request : Request) : Traced where
  studio := (t.studio.call clock validate request).1
  trace :=
    match request with
    | .perform projectId operation =>
      match (t.studio.call clock validate request).2, t.studio.project? projectId with
      | none, some found =>
        Function.update t.trace projectId (t.trace projectId ++ [⟨operation, found⟩])
      | _, _ => t.trace
    | _ => t.trace

def Traced.start : Traced where
  studio := (QuantStudio.create clock).1

def Operation.Accepts : Operation → StudioProject → Prop
  | .strategyImplemented implementation, project =>
    (project.stage = .signalImplementation ∨ project.stage = .strategyImplementation) ∧
      implementation.testPaths ≠ []
  | .reviewImplementation _ evidence, project =>
    project.stage = .reviewingImplementation ∧ blank evidence = false
  | .approveImplementation _ note, project =>
    project.stage = .awaitingImplementationApproval ∧ blank note = false
  | .backtestCompleted evidence, project =>
    project.stage = .backtesting ∧ evidence.chartPaths ≠ [] ∧
      (project.artifactKind = .strategy → validate evidence = none)
  | .reviewBacktestEvidence _ evidence, project =>
    project.stage = .reviewingBacktest ∧ blank evidence = false
  | .optimizationCompleted proposal, project =>
    project.stage = .optimizing ∧ blank proposal = false
  | .approveOptimization _ note, project =>
    project.stage = .awaitingOptimizationApproval ∧ blank note = false
  | .reviewBacktest _ note, project =>
    project.stage = .awaitingBacktestApproval ∧ blank note = false
  | .approveLive _ note, project =>
    project.stage = .awaitingLiveApproval ∧ blank note = false
  | .startSignalRuntime, project =>
    project.artifactKind = .signal ∧ project.GatesPassed ∧
      (project.stage = .readyForSignal ∨ project.stage = .signalStopped)
  | .stopSignalRuntime _, project =>
    project.stage = .signalRunning ∨ project.stage = .maintenance
  | .publishSignal fingerprint, project =>
    project.stage = .signalRunning ∧ blank fingerprint = false
  | .reportRuntimeError error, project =>
    project.stage = .signalRunning ∧ blank error = false
  | .resolveRuntimeError evidence _, project =>
    project.stage = .maintenance ∧ blank evidence = false

variable {clock validate}

theorem check_eq_none {operation : Operation} {project : StudioProject} :
    (operation.handler validate).check project = none ↔ operation.Accepts validate project := by
  cases operation with
  | backtestCompleted evidence =>
    by_cases hkind : project.artifactKind = .strategy
    · simp [Operation.handler, backtestCompleted, Operation.Accepts, hkind]
    · simp [Operation.handler, backtestCompleted, Operation.Accepts, hkind]
  | startSignalRuntime => simp [Operation.handler, startSignalRuntime, Operation.Accepts]
  | strategyImplemented implementation =>
    simp [Operation.handler, strategyImplemented, Operation.Accepts]
  | reviewImplementation approved evidence =>
    simp [Operation.handler, reviewImplementation, Operation.Accepts]
  | approveImplementation approved note =>
    simp [Operation.handler, approveImplementation, Operation.Accepts]
  | reviewBacktestEvidence approved evidence =>
    simp [Operation.handler, reviewBacktestEvidence, Operation.Accepts]
  | optimizationCompleted proposal =>
    simp [Operation.handler, optimizationCompleted, Operation.Accepts]
  | approveOptimization approved note =>
    simp [Operation.handler, approveOptimization, Operation.Accepts]
  | reviewBacktest approved note => simp [Operation.handler, reviewBacktest, Operation.Accepts]
  | approveLive approved note => simp [Operation.handler, approveLive, Operation.Accepts]
  | stopSignalRuntime reason => simp [Operation.handler, stopSignalRuntime, Operation.Accepts]
  | publishSignal fingerprint => simp [Operation.handler, publishSignal, Operation.Accepts]
  | reportRuntimeError error => simp [Operation.handler, reportRuntimeError, Operation.Accepts]
  | resolveRuntimeError evidence resume =>
    simp [Operation.handler, resolveRuntimeError, Operation.Accepts]

theorem emit_spec (haware : ∀ n, (clock n).aware = true) (studio : QuantStudio)
    (projectId : Option String) (notice : Notice) :
    ∃ next, studio.emit clock projectId notice = (next, none) ∧
      next.projects = studio.projects := by
  simp [QuantStudio.emit, haware]

theorem emitAll_spec (haware : ∀ n, (clock n).aware = true) (projectId : Option String)
    (notices : List Notice) (studio : QuantStudio) :
    ∃ next, QuantStudio.emitAll clock projectId notices studio = (next, none) ∧
      next.projects = studio.projects := by
  induction notices generalizing studio with
  | nil => exact ⟨studio, rfl, rfl⟩
  | cons notice notices ih =>
    obtain ⟨emitted, hemit, hprojects⟩ := emit_spec haware studio projectId notice
    obtain ⟨next, hnext, hrest⟩ := ih emitted
    refine ⟨next, ?_, hrest.trans hprojects⟩
    simp only [QuantStudio.emitAll, hemit, hnext]

inductive Effect (validate : BacktestEvidence → Option String) (studio : QuantStudio) :
    Request → QuantStudio × Option StudioError → Prop
  | raised (request : Request) (error : StudioError) : Effect validate studio request
      (studio, some error)
  | logged {request : Request} (hrequest : ∀ projectId operation,
        request ≠ .perform projectId operation)
      {next : QuantStudio} (hprojects : next.projects = studio.projects) :
      Effect validate studio request (next, none)
  | submitted (submission : Submission) {next : QuantStudio}
      (hprojects : next.projects =
        Dict.set studio.projects submission.projectId submission.project) :
      Effect validate studio (.submit submission) (next, none)
  | performed (projectId : String) (operation : Operation) {project : StudioProject}
      {next : QuantStudio} (hfound : studio.project? projectId = some project)
      (haccepts : operation.Accepts validate project)
      (hprojects : next.projects =
        Dict.set studio.projects projectId ((operation.handler validate).change project)) :
      Effect validate studio (.perform projectId operation) (next, none)

theorem perform_effect (haware : ∀ n, (clock n).aware = true) (studio : QuantStudio)
    (projectId : String) (operation : Operation) :
    Effect validate studio (.perform projectId operation)
      (studio.perform clock validate projectId operation) := by
  unfold QuantStudio.perform
  cases hfound : studio.project? projectId with
  | none => exact .raised _ _
  | some project =>
    dsimp only
    cases hcheck : (operation.handler validate).check project with
    | some error => exact .raised _ _
    | none =>
      obtain ⟨next, hnext, hprojects⟩ := emitAll_spec haware (some projectId)
        ((operation.handler validate).notices ((operation.handler validate).change project))
        (studio.assign projectId ((operation.handler validate).change project))
      dsimp only
      rw [hnext]
      exact .performed projectId operation hfound (check_eq_none.mp hcheck) hprojects

theorem call_performed (haware : ∀ n, (clock n).aware = true) {studio : QuantStudio}
    {projectId : String} {operation : Operation} {project : StudioProject}
    (hfound : studio.project? projectId = some project)
    (haccepts : operation.Accepts validate project) :
    (studio.call clock validate (.perform projectId operation)).2 = none ∧
      (studio.call clock validate (.perform projectId operation)).1.project? projectId =
        some ((operation.handler validate).change project) := by
  obtain ⟨next, hnext, hprojects⟩ := emitAll_spec haware (some projectId)
    ((operation.handler validate).notices ((operation.handler validate).change project))
    (studio.assign projectId ((operation.handler validate).change project))
  have hcall : studio.call clock validate (.perform projectId operation) = (next, none) := by
    simp only [QuantStudio.call, QuantStudio.perform, hfound, check_eq_none.mpr haccepts, hnext]
  rw [hcall]
  refine ⟨rfl, ?_⟩
  simp [QuantStudio.project?, hprojects, QuantStudio.assign, Dict.get?_set]

theorem submit_effect (haware : ∀ n, (clock n).aware = true) (studio : QuantStudio)
    (submission : Submission) :
    Effect validate studio (.submit submission) (studio.submit clock submission) := by
  unfold QuantStudio.submit
  cases hcheck : submission.check studio.projects with
  | some error => exact .raised _ _
  | none =>
    obtain ⟨next, hnext, hprojects⟩ := emit_spec haware
      (studio.assign submission.projectId submission.project) (some submission.projectId)
      submission.notice
    dsimp only
    rw [hnext]
    exact .submitted submission hprojects

theorem emit_effect (haware : ∀ n, (clock n).aware = true) (studio : QuantStudio)
    {request : Request} (hrequest : ∀ projectId operation, request ≠ .perform projectId operation)
    (projectId : Option String) (notice : Notice) :
    Effect validate studio request (studio.emit clock projectId notice) := by
  obtain ⟨next, hnext, hprojects⟩ := emit_spec haware studio projectId notice
  rw [hnext]
  exact .logged hrequest hprojects

theorem call_effect (haware : ∀ n, (clock n).aware = true) (studio : QuantStudio)
    (request : Request) :
    Effect validate studio request (studio.call clock validate request) := by
  cases request with
  | submit submission => exact submit_effect haware studio submission
  | perform projectId operation => exact perform_effect haware studio projectId operation
  | managerReceived instruction projectId =>
    simp only [QuantStudio.call]
    by_cases hblank : blank instruction = true
    · rw [if_pos hblank]
      exact .raised _ _
    · rw [if_neg hblank]
      exact emit_effect haware studio (by simp) projectId _
  | managerDelegated target projectId => exact emit_effect haware studio (by simp) _ _
  | managerReported projectId => exact emit_effect haware studio (by simp) _ _
  | managerRefused request => exact emit_effect haware studio (by simp) _ _

theorem start_project? (haware : ∀ n, (clock n).aware = true) (projectId : String) :
    (Traced.start clock).studio.project? projectId = none := by
  obtain ⟨next, hnext, hprojects⟩ := emit_spec haware ({} : QuantStudio) none
    ⟨.system, .info, "量化工作室控制層已就緒；交易 Agent 維持硬性待機。"⟩
  simp [Traced.start, QuantStudio.create, hnext, QuantStudio.project?, hprojects]

theorem project_step (haware : ∀ n, (clock n).aware = true) {t : Traced} {request : Request}
    {projectId : String} {next : StudioProject}
    (h : (t.step clock validate request).studio.project? projectId = some next) :
    (t.studio.project? projectId = some next ∧
      (t.step clock validate request).trace projectId = t.trace projectId) ∨
    (∃ submission, next = Submission.project submission ∧
      (t.step clock validate request).trace projectId = t.trace projectId) ∨
    ∃ operation project, request = .perform projectId operation ∧
      t.studio.project? projectId = some project ∧ operation.Accepts validate project ∧
      next = (operation.handler validate).change project ∧
      (t.step clock validate request).trace projectId =
        t.trace projectId ++ [⟨operation, project⟩] := by
  have heffect : Effect validate t.studio request (t.studio.call clock validate request) :=
    call_effect haware t.studio request
  unfold Traced.step at h ⊢
  dsimp only at h ⊢
  generalize t.studio.call clock validate request = result at heffect h ⊢
  cases heffect with
  | raised _ error => cases request <;> exact .inl ⟨h, rfl⟩
  | logged hrequest hprojects =>
    left
    rw [QuantStudio.project?, hprojects] at h
    cases request with
    | perform target operation => exact absurd rfl (hrequest target operation)
    | _ => exact ⟨h, rfl⟩
  | submitted submission hprojects =>
    rw [QuantStudio.project?, hprojects, Dict.get?_set] at h
    by_cases hid : submission.projectId = projectId
    · rw [if_pos hid] at h
      exact .inr (.inl ⟨submission, (Option.some.inj h).symm, rfl⟩)
    · rw [if_neg hid] at h
      exact .inl ⟨h, rfl⟩
  | @performed target operation project _ hfound haccepts hprojects =>
    rw [QuantStudio.project?, hprojects, Dict.get?_set] at h
    dsimp only
    rw [hfound]
    by_cases hid : target = projectId
    · subst hid
      rw [if_pos rfl] at h
      refine .inr (.inr ⟨operation, project, rfl, hfound, haccepts, (Option.some.inj h).symm, ?_⟩)
      exact Function.update_self ..
    · rw [if_neg hid] at h
      exact .inl ⟨h, Function.update_of_ne (Ne.symm hid) ..⟩

end Steps

end ChainQuantStudio.Workflow
