import ChainQuantStudio.Studio.Segments

/-!
# A store with one order

The writes of the runner and the segments of an execution where the store holds a single order and
its artifact can be recorded: no write raises, and the order afterwards is known exactly.
-/

namespace ChainQuantStudio.Studio

def Durable.Holds (d : Durable) (order : WorkOrder) : Prop := d.store.workOrders.entries = [order]

def Outside.Records (outside : Outside) (order : WorkOrder) : Prop :=
  ∃ record, artifactRecord outside order = .ok record

def reviewReturn (config : RunnerConfig) (stage : ReviewStage) (report : String)
    (results : Results) : Requeue where
  stage := WorkOrder.returnStage stage
  results := results
  reason := "Review Agent returned FAIL for " ++ stage.value
  issueKeys := (reviewFindings report).map (issueKey config.fingerprint stage.value)

section

variable {config : RunnerConfig} {outside : Outside} {d : Durable} {order : WorkOrder}

theorem Durable.Holds.find (h : d.Holds order) : d.find order.id = some order := by
  refine Durable.find_eq_some.mpr ⟨?_, rfl⟩
  rw [Keyed.mem_def, h]
  exact List.mem_singleton_self order

theorem Durable.Holds.modify (h : d.Holds order) (f : WorkOrder → WorkOrder)
    (hf : ∀ order, (f order).id = order.id) : (d.modify order.id f hf).Holds (f order) := by
  change d.store.workOrders.entries.map _ = [f order]
  rw [h]
  simp

theorem holds_recordArtifact (h : d.Holds order) (hrecords : outside.Records order) :
    ∃ d', d.recordArtifact outside order = (d', none) ∧ d'.Holds order := by
  obtain ⟨record, hrecord⟩ := hrecords
  refine ⟨{ d with artifacts := d.artifacts.upsert record }, ?_, h⟩
  simp only [Durable.recordArtifact, hrecord]

theorem Outside.Records.congr {next : WorkOrder} (h : outside.Records order)
    (hid : next.id = order.id) (hkind : next.artifactKind = order.artifactKind)
    (hartifact : next.artifact = order.artifact) : outside.Records next := by
  obtain ⟨hartifactId, hversion⟩ := Prod.mk.inj hartifact
  obtain ⟨record, hrecord⟩ := h
  refine ⟨record, ?_⟩
  unfold artifactRecord at hrecord ⊢
  rw [hid, hkind, hartifactId, hversion]
  exact hrecord

theorem holds_finish (h : d.Holds order) (hrecords : outside.Records order) (status : Status)
    (stage : Stage) (results : Results) :
    ∃ d', d.finish outside order.id status stage results = (d', none) ∧
      d'.Holds (order.finished status stage results) := by
  have hmod := h.modify (·.finished status stage results) (by simp)
  have hnext : outside.Records (order.finished status stage results) :=
    hrecords.congr rfl rfl rfl
  obtain ⟨d', hd', hholds⟩ := holds_recordArtifact hmod hnext
  refine ⟨d', ?_, hholds⟩
  unfold Durable.finish
  rw [h.find]
  exact hd'

theorem holds_requeue (h : d.Holds order) (r : Requeue) :
    ∃ d', d.requeue config order.id r = (d', none) ∧ d'.Holds (r.apply config order) := by
  have hmod := h.modify (r.apply config) (by simp)
  unfold Durable.requeue
  rw [h.find]
  dsimp only
  split
  · exact ⟨_, rfl, hmod⟩
  · split
    · exact ⟨_, rfl, hmod⟩
    · exact ⟨_, rfl, hmod⟩

theorem holds_checkpoint (h : d.Holds order) (stage : Stage) (results : Results)
    (artifactId artifactVersion : Option String)
    (hrecords : stage = .reviewImplementation →
      (order.checkpointed stage results artifactId artifactVersion).artifactVersion.isSome →
        outside.Records (order.checkpointed stage results artifactId artifactVersion)) :
    ∃ d', d.checkpoint outside order.id stage results artifactId artifactVersion = (d', none) ∧
      d'.Holds (order.checkpointed stage results artifactId artifactVersion) := by
  have hmod := h.modify (·.checkpointed stage results artifactId artifactVersion) (by simp)
  unfold Durable.checkpoint
  rw [h.find]
  dsimp only
  split
  case isTrue hrecord => exact holds_recordArtifact hmod (hrecords hrecord.1 hrecord.2)
  case isFalse => exact ⟨_, rfl, hmod⟩

theorem bindArtifactIdentity_frame (manifests : List ManifestFile) (order : WorkOrder)
    (evidence : String) :
    (bindArtifactIdentity manifests order evidence).agent = order.agent ∧
      (bindArtifactIdentity manifests order evidence).artifactKind = order.artifactKind ∧
      (bindArtifactIdentity manifests order evidence).backtestRequired =
        order.backtestRequired := by
  unfold bindArtifactIdentity
  split
  · exact ⟨rfl, rfl, rfl⟩
  · split <;> exact ⟨rfl, rfl, rfl⟩

theorem completeReview_fail {stage : ReviewStage} {report : String} {e : Execution}
    (h : reviewOutcome report stage = .fail) (hactions : userActions report = []) :
    e.completeReview config outside stage report d =
      .ofWrite e (d.requeue config e.order.id (reviewReturn config stage report e.results)) := by
  unfold Execution.completeReview
  rw [h, hactions]
  cases stage with
  | reviewImplementation => rfl
  | reviewBacktest => rfl

theorem completeReview_pass_implementation {report : String} {e : Execution}
    (h : reviewOutcome report .reviewImplementation = .pass) :
    e.completeReview config outside .reviewImplementation report d =
      .ofWrite e (d.finish outside e.order.id .awaitingImplementationApproval
        .implementationApproval e.results) := by
  unfold Execution.completeReview
  rw [h]

theorem completeReview_pass_backtest {report : String} {e : Execution} {order : WorkOrder}
    (h : reviewOutcome report .reviewBacktest = .pass) (hfind : d.find e.order.id = some order) :
    e.completeReview config outside .reviewBacktest report d =
      if order.needsOptimization then
        match d.checkpoint outside e.order.id .optimize e.results none none with
        | (d, some failure) => .raised d e failure
        | (d, none) => Execution.runOptimization d { e with stage := .optimize }
      else
        .ofWrite e (d.finish outside e.order.id .awaitingBacktestApproval .backtestApproval
          e.results) := by
  unfold Execution.completeReview
  rw [h]
  dsimp only
  rewrite [hfind]
  rfl

theorem apply_of_not_exhausted {r : Requeue} (h : ¬ r.exhausted config order)
    (haction : r.userAction = none) :
    (r.apply config order).status = .queued ∧ (r.apply config order).stage = some r.stage ∧
      (r.apply config order).results = r.results := by
  unfold Requeue.apply
  rw [if_neg h, haction]
  exact ⟨rfl, rfl, rfl⟩

theorem WorkOrder.decided_optimization (order : WorkOrder) (approved : Bool) (note : String)
    {proposal : String} (hproposal : order.results.optimization = some proposal)
    (hblank : PythonText.isBlank proposal.toList = false) :
    order.decided .optimization approved note =
      .ok (let noted := order.noteDecision .optimization approved note
        let noted : WorkOrder := { noted with
          optimizationHistory := noted.optimizationHistory ++
            [{ artifactId := order.artifactId, artifactVersion := order.artifactVersion
               proposal := proposal, backtest := order.results.backtest
               reviewBacktest := order.results.reviewBacktest, approved := approved
               note := stripped note }] }
        if approved then
          { noted with
            status := .queued, stage := some .strategy, operation := .modify
            results := { optimization := some proposal }, attempts := 0, issueCounts := []
            approvals := some {} }
        else
          { noted with status := .awaitingBacktestApproval, stage := some .backtestApproval }) := by
  unfold WorkOrder.decided
  dsimp only
  rw [hproposal]
  dsimp only
  rw [if_neg (by rw [hblank]; exact Bool.false_ne_true)]
  cases approved with
  | false => rfl
  | true => rfl

theorem apply_workIdentity (config : RunnerConfig) (r : Requeue) (order : WorkOrder) :
    (r.apply config order).agent = order.agent ∧
      (r.apply config order).artifactKind = order.artifactKind ∧
      (r.apply config order).backtestRequired = order.backtestRequired ∧
      (r.apply config order).optimizationRequired = order.optimizationRequired ∧
      (r.apply config order).approvals = order.approvals := by
  unfold Requeue.apply
  split <;> exact ⟨rfl, rfl, rfl, rfl, rfl⟩

end

end ChainQuantStudio.Studio
