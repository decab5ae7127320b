import ChainQuantStudio.Studio.GatewaySteps
import ChainQuantStudio.Studio.SoleOrder
import ChainQuantStudio.Workflow.StudioSteps

/-!
# The studio and the gateway

The in-memory workflow and the durable one, told of the same agent turns and the same decisions of
the user. The gateway's own steps between two turns (it claims the order, begins its execution,
acquires the market data and closes the execution) are no events of the studio.
-/

namespace ChainQuantStudio.Workflow

open Studio (Gateway Worker WorkOrder Execution Await Turn Stage Status Approval ApprovalGate
  RunnerConfig Outside Durable ReviewStage reviewOutcome)

def ArtifactKind.gateway : ArtifactKind → Studio.ArtifactKind
  | .signal => .signal
  | .strategy => .strategy

def executionStage (kind : ArtifactKind) : Stage → WorkflowStage
  | .reviewImplementation => .reviewingImplementation
  | .dataset | .backtest => .backtesting
  | .reviewBacktest => .reviewingBacktest
  | .optimize => .optimizing
  | _ => implementationStage kind

def gateStage : ApprovalGate → WorkflowStage
  | .implementation => .awaitingImplementationApproval
  | .optimization => .awaitingOptimizationApproval
  | .backtest => .awaitingBacktestApproval
  | .live => .awaitingLiveApproval

/-- The stage of the studio for the status and the stage of an order of this kind. -/
def studioStage (kind : ArtifactKind) (status : Status) (stage : Option Stage) : WorkflowStage :=
  match status with
  | .queued | .working => executionStage kind (stage.getD .strategy)
  | .awaitingImplementationApproval => gateStage .implementation
  | .awaitingOptimizationApproval => gateStage .optimization
  | .awaitingBacktestApproval => gateStage .backtest
  | .awaitingLiveApproval => gateStage .live
  | .approved => if stage = some .readyForSignal then .readyForSignal else .readyForTrading
  | .awaitingUserInput | .deadLetter | .failed | .cancelled => .rejected

def granted : Option Approval → Bool
  | some approval => approval.approved
  | none => false

@[simp] theorem granted_some (approval : Approval) :
    granted (some approval) = approval.approved := rfl

@[simp] theorem granted_none : granted none = false := rfl

inductive Happening
  | claim
  | begin
  | close
  | acquired (dataset : String)
  | turn (text : String) (implementation : StrategyImplementation) (evidence : BacktestEvidence)
  | decide (gate : ApprovalGate) (approved : Bool) (note : String)

structure Joint where
  happening : Happening
  outside : Outside := {}

structure Pair where
  studio : QuantStudio
  gateway : Gateway

def runningTurn : Worker → Option Turn
  | .running _ (.turn turn) => some turn
  | _ => none

def decision (gate : ApprovalGate) (approved : Bool) (note : String) : Operation :=
  match gate with
  | .implementation => .approveImplementation approved note
  | .optimization => .approveOptimization approved note
  | .backtest => .reviewBacktest approved note
  | .live => .approveLive approved note

def turnOperation (text : String) (implementation : StrategyImplementation)
    (evidence : BacktestEvidence) : Turn → Option Operation
  | .strategy _ => some (.strategyImplemented implementation)
  | .review .reviewImplementation _ =>
    some (.reviewImplementation (reviewOutcome text .reviewImplementation = .pass) text)
  | .review .reviewBacktest _ =>
    some (.reviewBacktestEvidence (reviewOutcome text .reviewBacktest = .pass) text)
  | .backtest _ => some (.backtestCompleted evidence)
  | .optimize _ => some (.optimizationCompleted text)
  | .maintenance => none

def Happening.operation (worker : Worker) : Happening → Option Operation
  | .turn text implementation evidence =>
    (runningTurn worker).bind (turnOperation text implementation evidence)
  | .decide gate approved note => some (decision gate approved note)
  | _ => none

/-- The event of the gateway. Data and texts arrive where the worker waits for them. -/
def Happening.event (identifier : String) (worker : Worker) : Happening → Option Studio.Event
  | .claim => some .claim
  | .begin => some .begin
  | .close => some .close
  | .acquired dataset =>
    match worker with
    | .running _ .dataset => some (.reply dataset)
    | _ => none
  | .turn text _ _ => (runningTurn worker).map fun _ => .reply text
  | .decide gate approved note => some (.approve identifier gate approved note)

section

variable (clock : ℕ → ClockReading) (validate : BacktestEvidence → Option String)
  (config : RunnerConfig) (projectId identifier : String)

def Pair.step (pair : Pair) (joint : Joint) : Pair where
  studio :=
    match joint.happening.operation pair.gateway.worker with
    | some operation => (pair.studio.call clock validate (.perform projectId operation)).1
    | none => pair.studio
  gateway :=
    match joint.happening.event identifier pair.gateway.worker with
    | some event => pair.gateway.step config { event := event, outside := joint.outside }
    | none => pair.gateway

def ValidTurn (outside : Outside) (d : Durable) (e : Execution) (text : String)
    (implementation : StrategyImplementation) (evidence : BacktestEvidence) : Turn → Prop
  | .strategy _ =>
    implementation.testPaths ≠ [] ∧
      ((Studio.bindArtifactIdentity outside.manifests e.order text).artifactVersion.isSome →
        outside.Records (Studio.bindArtifactIdentity outside.manifests e.order text))
  | .review stage _ =>
    blank text = false ∧
      ((reviewOutcome text stage = .pass ∧ outside.Records e.order) ∨
        (reviewOutcome text stage = .fail ∧ Studio.userActions text = [] ∧
          ∀ order ∈ d.find e.order.id,
            ¬ (Studio.reviewReturn config stage text
              (e.results.setReview text stage)).exhausted config order))
  | .backtest _ =>
    evidence.chartPaths ≠ [] ∧ (e.order.artifactKind = .strategy → validate evidence = none)
  | .optimize _ =>
    blank text = false ∧ Studio.optimizationReportComplete text = true ∧ outside.Records e.order
  | .maintenance => False

instance (outside : Outside) (order : WorkOrder) : Decidable (outside.Records order) :=
  match h : Studio.artifactRecord outside order with
  | .ok record => isTrue ⟨record, h⟩
  | .error _ => isFalse fun ⟨_, hrecord⟩ => by cases h.symm.trans hrecord

instance (outside : Outside) (d : Durable) (e : Execution) (text : String)
    (implementation : StrategyImplementation) (evidence : BacktestEvidence) : ∀ turn,
    Decidable (ValidTurn validate config outside d e text implementation evidence turn)
  | .strategy _ => inferInstanceAs (Decidable (_ ∧ _))
  | .review .. => inferInstanceAs (Decidable (_ ∧ (_ ∨ _)))
  | .backtest _ => inferInstanceAs (Decidable (_ ∧ _))
  | .optimize _ => inferInstanceAs (Decidable (_ ∧ _))
  | .maintenance => inferInstanceAs (Decidable False)

/-- A turn that the worker waits for is valid. -/
def Valid (pair : Pair) (joint : Joint) : Prop :=
  match joint.happening, pair.gateway.worker with
  | .turn text implementation evidence, .running e (.turn turn) =>
    ValidTurn validate config joint.outside pair.gateway.durable e text implementation evidence turn
  | _, _ => True

instance (pair : Pair) (joint : Joint) : Decidable (Valid validate config pair joint) := by
  unfold Valid
  split <;> infer_instance

def Pair.StudioAccepts (pair : Pair) (gate : ApprovalGate) (approved : Bool) (note : String) :
    Prop :=
  (pair.studio.call clock validate (.perform projectId (decision gate approved note))).2 = none

def Pair.GatewayAccepts (pair : Pair) (gate : ApprovalGate) (approved : Bool) (note : String) :
    Prop :=
  PythonText.isBlank note.toList = false ∧ ∃ order next,
    pair.gateway.durable.find identifier = some order ∧
      order.approval gate approved note = .ok next

end

def Resting : Worker → Prop
  | .idle => True
  | .closing _ stops => stops = false
  | _ => False

def Prepared (order : WorkOrder) : Stage → Prop
  | .strategy => True
  | .reviewImplementation => order.results.strategy.isSome
  | .dataset | .backtest => order.needsBacktest = true ∧ order.results.strategy.isSome
  | .reviewBacktest =>
    order.needsBacktest = true ∧ order.results.strategy.isSome ∧ order.results.backtest.isSome
  | .optimize =>
    order.needsOptimization = true ∧ order.needsBacktest = true ∧
      order.results.strategy.isSome ∧ order.results.backtest.isSome ∧
      order.results.reviewBacktest.isSome
  | _ => False

def AtGate (order : WorkOrder) : ApprovalGate → Prop
  | .optimization =>
    order.needsOptimization = true ∧ order.needsBacktest = true ∧
      order.results.strategy.isSome ∧ ∃ proposal, order.results.optimization = some proposal ∧
        PythonText.isBlank proposal.toList = false
  | .backtest => order.needsBacktest = true ∧ order.results.strategy.isSome
  | .implementation | .live => order.results.strategy.isSome

structure Matches (project : StudioProject) (order : WorkOrder) : Prop where
  agent : order.agent = .strategy
  kind : order.artifactKind = project.artifactKind.gateway
  required : order.backtestRequired = some project.backtestRequired
  optimization : order.optimizationRequired =
    some (project.artifactKind = .strategy && project.backtestRequired)
  approvals : ∃ approvals, order.approvals = some approvals ∧
    granted approvals.implementation = project.implementationApproved ∧
    granted approvals.backtest = project.backtestApproved ∧
    granted approvals.live = project.liveApproved

structure SameWork (e : Execution) (order : WorkOrder) : Prop where
  agent : e.order.agent = order.agent
  kind : e.order.artifactKind = order.artifactKind
  required : e.order.backtestRequired = order.backtestRequired

inductive Phase (project : StudioProject) (order : WorkOrder) : Worker → Prop
  | queued {worker : Worker} (hworker : Resting worker) (hstatus : order.status = .queued)
      (hstage : order.stage = some order.resumeStage ∨ order.stage = none)
      (hproject : project.stage = executionStage project.artifactKind order.resumeStage)
      (hprepared : Prepared order order.resumeStage) : Phase project order worker
  | claimed (hstatus : order.status = .working) {stage : Stage} (hstage : order.stage = some stage)
      (hproject : project.stage = executionStage project.artifactKind stage)
      (hprepared : Prepared order stage) : Phase project order (.claimed order)
  | running {e : Execution} {on : Await} (hfollows : Studio.Follows e order)
      (hsame : SameWork e order) (hfits : on.Fits e)
      (hproject : project.stage = executionStage project.artifactKind e.stage)
      (hprepared : Prepared order e.stage) : Phase project order (.running e on)
  | waiting {worker : Worker} (gate : ApprovalGate) (hworker : Resting worker)
      (hstatus : order.status = gate.expected) (hstage : order.stage = some gate.stage)
      (hproject : project.stage = gateStage gate) (hgate : AtGate order gate) :
      Phase project order worker
  | approved {worker : Worker} (hworker : Resting worker) (hstatus : order.status = .approved)
      (hstage : order.stage =
        some (if project.artifactKind = .signal then .readyForSignal else .researchApproved))
      (hproject : project.stage =
        if project.artifactKind = .signal then .readyForSignal else .readyForTrading) :
      Phase project order worker

structure Agrees (projectId identifier : String) (pair : Pair) (project : StudioProject)
    (order : WorkOrder) : Prop where
  project? : pair.studio.project? projectId = some project
  holds : pair.gateway.durable.Holds order
  id : order.id = identifier
  same : Matches project order
  phase : Phase project order pair.gateway.worker

inductive SegmentAgrees (identifier : String) (project : StudioProject) : Studio.Segment → Prop
  | awaiting {d : Durable} {e : Execution} {on : Await} (order : WorkOrder)
      (hholds : d.Holds order) (hid : order.id = identifier) (hsame : Matches project order)
      (hphase : Phase project order (.running e on)) :
      SegmentAgrees identifier project (.awaiting d e on)
  | returned {d : Durable} (order : WorkOrder) (hholds : d.Holds order)
      (hid : order.id = identifier) (hsame : Matches project order)
      (hphase : Phase project order (.closing identifier false)) :
      SegmentAgrees identifier project (.returned d)

section Segments

variable {config : RunnerConfig} {outside : Outside} {identifier : String} {d : Durable}
  {project : StudioProject} {order : WorkOrder} {e : Execution}

theorem Matches.needsBacktest (h : Matches project order) :
    order.needsBacktest = project.backtestRequired := by
  cases hrequired : project.backtestRequired <;>
    simp [WorkOrder.needsBacktest, h.required, hrequired]

theorem Matches.needsOptimization (h : Matches project order) :
    order.needsOptimization =
      (decide (project.artifactKind = .strategy) && project.backtestRequired) := by
  simp [WorkOrder.needsOptimization, h.optimization]

theorem SameWork.needsBacktest (h : SameWork e order) :
    e.order.needsBacktest = order.needsBacktest := by
  simp only [WorkOrder.needsBacktest, h.required]

theorem dispatch_agrees (hholds : d.Holds order) (hid : order.id = identifier)
    (hmatches : Matches project order) (hfollows : Studio.Follows e order)
    (hsame : SameWork e order)
    (hproject : project.stage = executionStage project.artifactKind e.stage)
    (hprepared : Prepared order e.stage) (hstage : e.stage ≠ .dataset) :
    SegmentAgrees identifier project (Execution.dispatch d e) := by
  have awaits : ∀ on : Await, on.Fits e → SegmentAgrees identifier project (.awaiting d e on) :=
    fun on hfits =>
      .awaiting order hholds hid hmatches (.running hfollows hsame hfits hproject hprepared)
  have hneeds := hsame.needsBacktest
  have hresults := hfollows.results
  cases hs : e.stage with
  | strategy =>
    simp only [Execution.dispatch, hs]
    exact awaits _ hs
  | reviewImplementation =>
    rw [hs] at hprepared
    obtain ⟨handoff, hhandoff⟩ := Option.isSome_iff_exists.mp hprepared
    simp only [Execution.dispatch, hs, hresults, hhandoff]
    exact awaits _ ⟨hs, hresults ▸ hhandoff⟩
  | dataset => exact absurd hs hstage
  | backtest =>
    rw [hs] at hprepared
    obtain ⟨hrequired, hstrategy⟩ := hprepared
    obtain ⟨handoff, hhandoff⟩ := Option.isSome_iff_exists.mp hstrategy
    simp only [Execution.dispatch, hs, hneeds, hrequired, hresults, hhandoff]
    exact awaits _ hs
  | reviewBacktest =>
    rw [hs] at hprepared
    obtain ⟨hrequired, -, hbacktest⟩ := hprepared
    obtain ⟨handoff, hhandoff⟩ := Option.isSome_iff_exists.mp hbacktest
    simp only [Execution.dispatch, hs, hneeds, hrequired, hresults, hhandoff]
    exact awaits _ ⟨hs, hresults ▸ hhandoff⟩
  | optimize =>
    rw [hs] at hprepared
    obtain ⟨-, hrequired, -, hbacktest, hreview⟩ := hprepared
    obtain ⟨backtest, hbacktest⟩ := Option.isSome_iff_exists.mp hbacktest
    obtain ⟨review, hreview⟩ := Option.isSome_iff_exists.mp hreview
    simp only [Execution.dispatch, hs, hneeds, hrequired, Execution.runOptimization, hresults,
      hbacktest, hreview]
    exact awaits _ hs
  | maintenance | implementationApproval | optimizationApproval | backtestApproval | liveApproval
  | readyForSignal | researchApproved | cancelled | failed =>
    rw [hs] at hprepared
    exact hprepared.elim

theorem datasetReady_agrees (hholds : d.Holds order) (hid : order.id = identifier)
    (hmatches : Matches project order) (hfollows : Studio.Follows e order)
    (hsame : SameWork e order) (hproject : project.stage = .backtesting)
    (hprepared : Prepared order .backtest) (dataset : Option String) :
    SegmentAgrees identifier project
      (({ e with results := { e.results with dataset := dataset } } : Execution).datasetReady
        outside d) := by
  obtain ⟨d', hd', hholds'⟩ := @Studio.holds_checkpoint outside d order hholds .backtest
    { e.results with dataset := dataset } none none (by simp)
  rw [← hfollows.id] at hd'
  unfold Execution.datasetReady
  simp only [hd']
  refine dispatch_agrees hholds' hid ⟨hmatches.agent, hmatches.kind, hmatches.required,
    hmatches.optimization, hmatches.approvals⟩ ?_ ⟨hsame.agent, hsame.kind, hsame.required⟩ hproject
    ?_ (by simp [Execution.withStage])
  · exact ⟨hfollows.id, hfollows.working, .inl rfl, rfl, hfollows.artifact⟩
  · refine ⟨hprepared.1, ?_⟩
    simpa [WorkOrder.checkpointed, hfollows.results] using hprepared.2

theorem begin_agrees (hholds : d.Holds order) (hid : order.id = identifier)
    (hmatches : Matches project order) (hstatus : order.status = .working) {stage : Stage}
    (hstage : order.stage = some stage)
    (hproject : project.stage = executionStage project.artifactKind stage)
    (hprepared : Prepared order stage) :
    SegmentAgrees identifier project ((Execution.ofClaimed order).begin outside d) := by
  have hfollows : Studio.Follows (.ofClaimed order) order :=
    .ofClaimed hstatus (by rw [hstage]; rfl)
  have hsame : SameWork (.ofClaimed order) order := ⟨rfl, rfl, rfl⟩
  have he : (Execution.ofClaimed order).stage = stage := by
    simp [Execution.ofClaimed, hstage]
  have hagent : (Execution.ofClaimed order).order.agent = .strategy := hmatches.agent
  unfold Execution.begin
  simp only [hagent]
  split
  case isTrue hdata =>
    refine .awaiting order hholds hid hmatches (.running hfollows hsame hdata.1 ?_ ?_)
    · rw [he, hproject]
    · rwa [he]
  case isFalse hdata =>
    split
    case isTrue hdataset =>
      rw [he] at hdataset
      have hbacktesting : project.stage = .backtesting := by rw [hproject, hdataset.1]; rfl
      have hprepared' : Prepared order .backtest := by rwa [hdataset.1] at hprepared
      exact datasetReady_agrees hholds hid hmatches hfollows hsame hbacktesting hprepared'
        order.results.dataset
    case isFalse hdataset =>
      refine dispatch_agrees hholds hid hmatches hfollows hsame (by rw [he, hproject])
        (by rwa [he]) ?_
      rw [he]
      rintro rfl
      exact hdataset ⟨he, hprepared.1⟩

theorem strategy_agrees (hholds : d.Holds order) (hid : order.id = identifier)
    (hmatches : Matches project order) (hfollows : Studio.Follows e order)
    (hsame : SameWork e order) (prior : Option String) {text : String}
    {implementation : StrategyImplementation} {evidence : BacktestEvidence}
    {validate : BacktestEvidence → Option String}
    (hvalid : ValidTurn validate config outside d e text implementation evidence
      (.strategy prior)) :
    SegmentAgrees identifier ((strategyImplemented implementation).change project)
      (e.resume config outside (.turn (.strategy prior)) text d) := by
  obtain ⟨hor, hor'⟩ := Studio.bindArtifactIdentity_or outside.manifests e.order text
  obtain ⟨hagent, hkind, hrequired⟩ :=
    Studio.bindArtifactIdentity_frame outside.manifests e.order text
  obtain ⟨hartifactId, hversion⟩ := Prod.mk.inj hfollows.artifact
  have hartifact : (order.checkpointed .reviewImplementation
      { e.results with strategy := some text }
      (Studio.bindArtifactIdentity outside.manifests e.order text).artifactId
      (Studio.bindArtifactIdentity outside.manifests e.order text).artifactVersion).artifact =
        (Studio.bindArtifactIdentity outside.manifests e.order text).artifact := by
    simp only [WorkOrder.artifact, WorkOrder.checkpointed, ← hartifactId, ← hversion, hor, hor']
  obtain ⟨d', hd', hholds'⟩ := @Studio.holds_checkpoint outside d order hholds
    .reviewImplementation { e.results with strategy := some text }
    (Studio.bindArtifactIdentity outside.manifests e.order text).artifactId
    (Studio.bindArtifactIdentity outside.manifests e.order text).artifactVersion (by
      intro _ hsome
      rw [(Prod.mk.inj hartifact).2] at hsome
      refine (hvalid.2 hsome).congr ?_ ?_ hartifact
      · rw [Studio.bindArtifactIdentity_id, hfollows.id]
        rfl
      · exact hsame.kind.symm.trans hkind.symm)
  simp only [Execution.resume, Studio.bindArtifactIdentity_id, hfollows.id, hd']
  refine .awaiting _ hholds' hid ⟨hmatches.agent, hmatches.kind, hmatches.required,
    hmatches.optimization, hmatches.approvals⟩ (.running ⟨?_, hfollows.working, .inl rfl, rfl,
      hartifact.symm⟩ ⟨?_, ?_, ?_⟩ ⟨rfl, rfl⟩ rfl rfl)
  · rw [Studio.bindArtifactIdentity_id, hfollows.id]
    rfl
  · exact hagent.trans hsame.agent
  · exact hkind.trans hsame.kind
  · exact hrequired.trans hsame.required

theorem backtest_agrees (hholds : d.Holds order) (hid : order.id = identifier)
    (hmatches : Matches project order) (hfollows : Studio.Follows e order)
    (hsame : SameWork e order) (hprepared : Prepared order .backtest) (handoff text : String)
    (validate : BacktestEvidence → Option String) (evidence : BacktestEvidence) :
    SegmentAgrees identifier ((backtestCompleted validate evidence).change project)
      (e.resume config outside (.turn (.backtest handoff)) text d) := by
  obtain ⟨d', hd', hholds'⟩ := @Studio.holds_checkpoint outside d order hholds .reviewBacktest
    { e.results with backtest := some text } none none (by simp)
  simp only [Execution.resume, hfollows.id, hd']
  refine .awaiting _ hholds' hid ⟨hmatches.agent, hmatches.kind, hmatches.required,
    hmatches.optimization, hmatches.approvals⟩ (.running ⟨hfollows.id, hfollows.working, .inl rfl,
      rfl, hfollows.artifact⟩ ⟨hsame.agent, hsame.kind, hsame.required⟩ ⟨rfl, rfl⟩ rfl
      ⟨hprepared.1, ?_, rfl⟩)
  simpa [WorkOrder.checkpointed, hfollows.results] using hprepared.2

theorem optimize_agrees (hholds : d.Holds order) (hid : order.id = identifier)
    (hmatches : Matches project order) (hfollows : Studio.Follows e order)
    (hprepared : Prepared order .optimize) (hsame : SameWork e order) (handoff : String)
    {text : String} {implementation : StrategyImplementation} {evidence : BacktestEvidence}
    {validate : BacktestEvidence → Option String}
    (hvalid : ValidTurn validate config outside d e text implementation evidence
      (.optimize handoff)) :
    SegmentAgrees identifier ((optimizationCompleted text).change project)
      (e.resume config outside (.turn (.optimize handoff)) text d) := by
  obtain ⟨hblank, hcomplete, hrecords⟩ := hvalid
  obtain ⟨d', hd', hholds'⟩ := Studio.holds_finish hholds
    (hrecords.congr hfollows.id.symm hsame.kind.symm hfollows.artifact.symm)
    .awaitingOptimizationApproval .optimizationApproval
    { e.results with optimization := some text }
  simp only [Execution.resume, hcomplete, if_true, hfollows.id, hd', Studio.Segment.ofWrite]
  refine .returned _ hholds' hid ⟨hmatches.agent, hmatches.kind, hmatches.required,
    hmatches.optimization, hmatches.approvals⟩ (.waiting .optimization rfl rfl rfl rfl
      ⟨hprepared.1, hprepared.2.1, ?_, text, rfl, hblank⟩)
  simpa [WorkOrder.finished, hfollows.results] using hprepared.2.2.1

theorem Matches.reviewed (h : Matches project order)
    (implementationReview backtestReview : Option String) (stage : WorkflowStage) :
    Matches { project with implementationReview, backtestReview, stage } order :=
  ⟨h.agent, h.kind, h.required, h.optimization, h.approvals⟩

theorem returned_agrees {next : StudioProject} (hholds : d.Holds order)
    (hid : order.id = identifier) (hfollows : Studio.Follows e order) (stage : ReviewStage)
    {text : String} (hmatches : Matches next order)
    (hnext : next.stage = executionStage next.artifactKind (WorkOrder.returnStage stage))
    (hprepared : order.results.strategy.isSome)
    (hneeds : stage = .reviewBacktest → order.needsBacktest = true)
    (hfail : reviewOutcome text stage = .fail) (hactions : Studio.userActions text = [])
    (hlimits : ∀ order ∈ d.find e.order.id,
      ¬ (Studio.reviewReturn config stage text
        (e.results.setReview text stage)).exhausted config order) :
    SegmentAgrees identifier next
      (Execution.completeReview config outside stage text d
        { e with stage := stage.stage, results := e.results.setReview text stage }) := by
  rw [Studio.completeReview_fail hfail hactions]
  have hlimit := hlimits order (hfollows.id ▸ hholds.find)
  obtain ⟨hstatus, hstage, hresults⟩ := Studio.apply_of_not_exhausted hlimit rfl
  obtain ⟨d', hd', hholds'⟩ := @Studio.holds_requeue config d order hholds
    (Studio.reviewReturn config stage text (e.results.setReview text stage))
  obtain ⟨hagent, hkind, hrequired, hoptimization, happrovals⟩ := Studio.apply_workIdentity config
    (Studio.reviewReturn config stage text (e.results.setReview text stage)) order
  simp only [hfollows.id, hd', Studio.Segment.ofWrite]
  have hresume : ((Studio.reviewReturn config stage text
      (e.results.setReview text stage)).apply config order).resumeStage =
        WorkOrder.returnStage stage := by
    unfold WorkOrder.resumeStage
    rw [hstage]
    cases stage <;> rfl
  refine .returned _ hholds' ((Studio.Requeue.apply_id ..).trans hid)
    ⟨hagent.trans hmatches.agent, hkind.trans hmatches.kind, hrequired.trans hmatches.required,
      hoptimization.trans hmatches.optimization, happrovals ▸ hmatches.approvals⟩
    (.queued rfl hstatus (.inl (by rw [hresume, hstage]; rfl)) (by rw [hresume]; exact hnext) ?_)
  rw [hresume]
  cases stage with
  | reviewImplementation => trivial
  | reviewBacktest =>
    refine ⟨?_, ?_⟩
    · simp only [WorkOrder.needsBacktest, hrequired]
      exact hneeds rfl
    · rw [hresults]
      simpa [Studio.reviewReturn, Studio.Results.setReview, hfollows.results] using hprepared

theorem reviewImplementation_agrees (hholds : d.Holds order) (hid : order.id = identifier)
    (hmatches : Matches project order) (hfollows : Studio.Follows e order)
    (hsame : SameWork e order) (hprepared : order.results.strategy.isSome) (handoff : String)
    {text : String} {implementation : StrategyImplementation} {evidence : BacktestEvidence}
    {validate : BacktestEvidence → Option String}
    (hvalid : ValidTurn validate config outside d e text implementation evidence
      (.review .reviewImplementation handoff)) :
    SegmentAgrees identifier
      ((reviewImplementation (reviewOutcome text .reviewImplementation = .pass) text).change
        project)
      (e.resume config outside (.turn (.review .reviewImplementation handoff)) text d) := by
  obtain ⟨-, ⟨hpass, hrecords⟩ | ⟨hfail, hactions, hlimits⟩⟩ := hvalid
  · obtain ⟨d', hd', hholds'⟩ := Studio.holds_finish hholds
      (hrecords.congr hfollows.id.symm hsame.kind.symm hfollows.artifact.symm)
      .awaitingImplementationApproval .implementationApproval
      (e.results.setReview text .reviewImplementation)
    rw [Execution.resume, Studio.completeReview_pass_implementation hpass, hpass]
    simp only [hfollows.id, hd', Studio.Segment.ofWrite]
    refine .returned _ hholds' hid ⟨hmatches.agent, hmatches.kind, hmatches.required,
      hmatches.optimization, hmatches.approvals⟩ (.waiting .implementation rfl rfl rfl ?_ ?_)
    · simp [reviewImplementation, gateStage]
    · simpa [AtGate, WorkOrder.finished, Studio.Results.setReview, hfollows.results] using hprepared
  · refine returned_agrees hholds hid hfollows .reviewImplementation
      (hmatches.reviewed _ project.backtestReview _) ?_ hprepared (by simp) hfail hactions hlimits
    simp [reviewImplementation, hfail, executionStage, WorkOrder.returnStage]

theorem reviewBacktest_agrees (hholds : d.Holds order) (hid : order.id = identifier)
    (hmatches : Matches project order) (hfollows : Studio.Follows e order)
    (hsame : SameWork e order) (hprepared : Prepared order .reviewBacktest) (handoff : String)
    {text : String} {implementation : StrategyImplementation} {evidence : BacktestEvidence}
    {validate : BacktestEvidence → Option String}
    (hvalid : ValidTurn validate config outside d e text implementation evidence
      (.review .reviewBacktest handoff)) :
    SegmentAgrees identifier
      ((reviewBacktestEvidence (reviewOutcome text .reviewBacktest = .pass) text).change project)
      (e.resume config outside (.turn (.review .reviewBacktest handoff)) text d) := by
  obtain ⟨hneeds, hstrategy, hbacktest⟩ := hprepared
  have hrequired : project.backtestRequired = true := hmatches.needsBacktest ▸ hneeds
  obtain ⟨-, ⟨hpass, hrecords⟩ | ⟨hfail, hactions, hlimits⟩⟩ := hvalid
  · have hoptimization := hmatches.needsOptimization
    rw [hrequired, Bool.and_true] at hoptimization
    cases hkind : project.artifactKind with
    | strategy =>
      obtain ⟨d', hd', hholds'⟩ := @Studio.holds_checkpoint outside d order hholds .optimize
        (e.results.setReview text .reviewBacktest) none none (by simp)
      obtain ⟨backtest, hback⟩ := Option.isSome_iff_exists.mp hbacktest
      have hback' : (e.results.setReview text .reviewBacktest).backtest = some backtest := by
        rw [hfollows.results]
        exact hback
      have hreview : (e.results.setReview text .reviewBacktest).reviewBacktest = some text := rfl
      rw [Execution.resume,
        Studio.completeReview_pass_backtest hpass (hfollows.id ▸ hholds.find), hpass]
      simp only [hfollows.id, hoptimization, hkind, decide_true, if_true, hd',
        Execution.runOptimization, hback', hreview]
      refine .awaiting _ hholds' hid ⟨hmatches.agent, ?_, hmatches.required, ?_,
        hmatches.approvals⟩ (.running ⟨hfollows.id, hfollows.working, .inl rfl, rfl,
          hfollows.artifact⟩ ⟨hsame.agent, hsame.kind, hsame.required⟩ rfl ?_ ?_)
      · exact hmatches.kind
      · exact hmatches.optimization
      · simp [reviewBacktestEvidence, executionStage, hkind]
      · refine ⟨?_, hneeds, ?_, ?_, rfl⟩
        · exact hoptimization.trans (decide_eq_true hkind)
        · simpa [WorkOrder.checkpointed, Studio.Results.setReview, hfollows.results] using hstrategy
        · simpa [WorkOrder.checkpointed, Studio.Results.setReview, hfollows.results] using hbacktest
    | signal =>
      obtain ⟨d', hd', hholds'⟩ := Studio.holds_finish hholds
        (hrecords.congr hfollows.id.symm hsame.kind.symm hfollows.artifact.symm)
        .awaitingBacktestApproval .backtestApproval (e.results.setReview text .reviewBacktest)
      rw [Execution.resume,
        Studio.completeReview_pass_backtest hpass (hfollows.id ▸ hholds.find), hpass]
      simp only [hfollows.id, hoptimization, hkind, reduceCtorEq, decide_false,
        Bool.false_eq_true, if_false, hd', Studio.Segment.ofWrite]
      refine .returned _ hholds' hid ⟨hmatches.agent, hmatches.kind, hmatches.required,
        hmatches.optimization, hmatches.approvals⟩ (.waiting .backtest rfl rfl rfl ?_ ⟨hneeds, ?_⟩)
      · simp [reviewBacktestEvidence, gateStage, hkind]
      · simpa [WorkOrder.finished, Studio.Results.setReview, hfollows.results] using hstrategy
  · refine returned_agrees hholds hid hfollows .reviewBacktest
      (hmatches.reviewed project.implementationReview _ _) ?_ hstrategy (fun _ => hneeds) hfail
      hactions hlimits
    simp [reviewBacktestEvidence, hfail, executionStage, WorkOrder.returnStage]

end Segments

section Decisions

variable {project : StudioProject} {order : WorkOrder} {worker : Worker} {gate : ApprovalGate}
  {approved : Bool} {note : String}

theorem executionStage_ne (kind : ArtifactKind) (stage : Stage) (gate : ApprovalGate) :
    executionStage kind stage ≠ gateStage gate := by
  cases stage <;> cases gate <;> cases kind <;> decide

theorem gateStage_injective {gate gate' : ApprovalGate} (h : gateStage gate = gateStage gate') :
    gate = gate' := by
  cases gate <;> cases gate' <;> first | rfl | cases h

theorem expected_injective {gate gate' : ApprovalGate} (h : gate.expected = gate'.expected) :
    gate = gate' := by
  cases gate <;> cases gate' <;> first | rfl | cases h

theorem Phase.at_gate (h : Phase project order worker) (gate : ApprovalGate) :
    project.stage = gateStage gate ↔ order.status = gate.expected := by
  cases h with
  | queued hworker hstatus hstage hproject hprepared =>
    rw [hproject, hstatus]
    exact iff_of_false (executionStage_ne _ _ _) (by cases gate <;> decide)
  | claimed hstatus hstage hproject hprepared =>
    rw [hproject, hstatus]
    exact iff_of_false (executionStage_ne _ _ _) (by cases gate <;> decide)
  | running hfollows hsame hfits hproject hprepared =>
    rw [hproject, hfollows.working]
    exact iff_of_false (executionStage_ne _ _ _) (by cases gate <;> decide)
  | waiting gate' hworker hstatus hstage hproject hgate =>
    rw [hproject, hstatus]
    constructor
    · intro h
      rw [gateStage_injective h]
    · intro h
      rw [expected_injective h]
  | approved hworker hstatus hstage hproject =>
    rw [hproject, hstatus]
    refine iff_of_false ?_ (by cases gate <;> decide)
    split <;> cases gate <;> decide

theorem approval_of_decided {moved : WorkOrder} (hstatus : order.status = gate.expected)
    (h : order.decided gate approved note = .ok moved) :
    order.approval gate approved note = .ok { moved with
      checkpoints := moved.checkpoints ++
        [{ stage := gate.stage, status := if approved then "approved" else "rejected" }] } := by
  unfold WorkOrder.approval
  rw [if_neg (not_not.mpr hstatus), h]
  rfl

def Decided (order : WorkOrder) (worker : Worker) (gate : ApprovalGate)
    (approved : Bool) (note : String) (next : StudioProject) : Prop :=
  ∃ order', order.approval gate approved note = .ok order' ∧ Matches next order' ∧
    Phase next order' worker

theorem implementation_decided (hmatches : Matches project order) (hworker : Resting worker)
    (hstatus : order.status = ApprovalGate.implementation.expected)
    (hgate : AtGate order .implementation) :
    Decided order worker .implementation approved note
      ((approveImplementation approved note).change project) := by
  obtain ⟨approvals, happrovals, himplementation, hbacktest, hlive⟩ := hmatches.approvals
  have hneeds := hmatches.needsBacktest
  cases approved with
  | false =>
    refine ⟨_, approval_of_decided hstatus rfl, ⟨hmatches.agent, hmatches.kind, hmatches.required,
      hmatches.optimization, ?_⟩, .queued hworker rfl (.inl rfl) rfl trivial⟩
    exact ⟨_, rfl, by simp [happrovals, Studio.Approvals.set, approveImplementation,
      hbacktest, hlive]⟩
  | true =>
    cases hrequired : project.backtestRequired with
    | true =>
      have hdecided : order.decided .implementation true note =
          .ok { order.noteDecision .implementation true note with
            status := .queued, stage := some .dataset } := by
        simp [WorkOrder.decided, hneeds, hrequired]
      refine ⟨_, approval_of_decided hstatus hdecided, ⟨hmatches.agent, hmatches.kind,
        hmatches.required, hmatches.optimization, ?_⟩, .queued hworker rfl (.inl rfl) ?_ ?_⟩
      · exact ⟨_, rfl, by simp [happrovals, Studio.Approvals.set, approveImplementation,
          hbacktest, hlive]⟩
      · simp [approveImplementation, hrequired, WorkOrder.resumeStage, Stage.executable,
          executionStage]
      · exact ⟨hneeds.trans hrequired, hgate⟩
    | false =>
      have hdecided : order.decided .implementation true note =
          .ok { order.noteDecision .implementation true note with
            status := .awaitingLiveApproval, stage := some .liveApproval } := by
        simp [WorkOrder.decided, hneeds, hrequired]
      refine ⟨_, approval_of_decided hstatus hdecided, ⟨hmatches.agent, hmatches.kind,
        hmatches.required, hmatches.optimization, ?_⟩, .waiting .live hworker rfl rfl ?_ hgate⟩
      · exact ⟨_, rfl, by simp [happrovals, Studio.Approvals.set, approveImplementation,
          hbacktest, hlive]⟩
      · simp [approveImplementation, hrequired, gateStage]

theorem optimization_decided (hmatches : Matches project order) (hworker : Resting worker)
    (hstatus : order.status = ApprovalGate.optimization.expected)
    (hgate : AtGate order .optimization) :
    Decided order worker .optimization approved note
      ((approveOptimization approved note).change project) := by
  obtain ⟨hoptimization, hneeds, hstrategy, proposal, hproposal, hblank⟩ := hgate
  obtain ⟨approvals, happrovals, himplementation, hbacktest, hlive⟩ := hmatches.approvals
  have hkind : project.artifactKind = .strategy := by
    rw [hmatches.needsOptimization, Bool.and_eq_true, decide_eq_true_eq] at hoptimization
    exact hoptimization.1
  have hdecided := order.decided_optimization approved note hproposal hblank
  refine ⟨_, approval_of_decided hstatus hdecided, ?_, ?_⟩
  · cases approved with
    | true =>
      exact ⟨hmatches.agent, hmatches.kind, hmatches.required, hmatches.optimization, _, rfl,
        rfl, rfl, rfl⟩
    | false =>
      refine ⟨hmatches.agent, hmatches.kind, hmatches.required, hmatches.optimization, _, rfl, ?_⟩
      simp [happrovals, Studio.Approvals.set, approveOptimization, himplementation, hbacktest,
        hlive]
  · cases approved with
    | true => exact .queued hworker rfl (.inl rfl) (by simp [approveOptimization, hkind,
        executionStage, WorkOrder.resumeStage, Stage.executable, implementationStage]) trivial
    | false => exact .waiting .backtest hworker rfl rfl rfl ⟨hneeds, hstrategy⟩

theorem backtest_decided (hmatches : Matches project order) (hworker : Resting worker)
    (hstatus : order.status = ApprovalGate.backtest.expected) (hgate : AtGate order .backtest) :
    Decided order worker .backtest approved note
      ((reviewBacktest approved note).change project) := by
  obtain ⟨approvals, happrovals, himplementation, hbacktest, hlive⟩ := hmatches.approvals
  cases approved with
  | false =>
    refine ⟨_, approval_of_decided hstatus rfl, ⟨hmatches.agent, hmatches.kind, hmatches.required,
      hmatches.optimization, ?_⟩, .queued hworker rfl (.inl rfl) rfl hgate⟩
    exact ⟨_, rfl, by simp [happrovals, Studio.Approvals.set, reviewBacktest, himplementation,
      hlive]⟩
  | true =>
    refine ⟨_, approval_of_decided hstatus rfl, ⟨hmatches.agent, hmatches.kind, hmatches.required,
      hmatches.optimization, ?_⟩, .waiting .live hworker rfl rfl rfl hgate.2⟩
    exact ⟨_, rfl, by simp [happrovals, Studio.Approvals.set, reviewBacktest, himplementation,
      hlive]⟩

theorem live_decided (hmatches : Matches project order) (hworker : Resting worker)
    (hstatus : order.status = ApprovalGate.live.expected) (hgate : AtGate order .live) :
    Decided order worker .live approved note ((approveLive approved note).change project) := by
  obtain ⟨approvals, happrovals, himplementation, hbacktest, hlive⟩ := hmatches.approvals
  cases approved with
  | false =>
    refine ⟨_, approval_of_decided hstatus rfl, ⟨hmatches.agent, hmatches.kind, hmatches.required,
      hmatches.optimization, ?_⟩, .waiting .implementation hworker rfl rfl rfl hgate⟩
    exact ⟨_, rfl, by simp [happrovals, Studio.Approvals.set, approveLive, himplementation,
      hbacktest]⟩
  | true =>
    have hready : (if order.artifactKind = .signal then Stage.readyForSignal else .researchApproved) =
        if project.artifactKind = .signal then .readyForSignal else .researchApproved := by
      rw [hmatches.kind]
      cases project.artifactKind <;> rfl
    refine ⟨_, approval_of_decided hstatus rfl, ⟨hmatches.agent, hmatches.kind, hmatches.required,
      hmatches.optimization, ?_⟩, .approved hworker rfl (congrArg some hready) rfl⟩
    exact ⟨_, rfl, by simp [happrovals, Studio.Approvals.set, approveLive, himplementation,
      hbacktest]⟩

end Decisions

end ChainQuantStudio.Workflow
