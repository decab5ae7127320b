import ChainQuantStudio.Studio.WorkerSteps

/-!
# Segments of an execution

One lemma for each stretch of `_execute`: run on an entry that it follows, it leaves that entry as
it was or rewritten by one piece of work, and its local variables fit what it leaves.
-/

namespace ChainQuantStudio.Studio

variable {config : RunnerConfig} {outside : Outside} {turns : List AgentTurn}

theorem unnamed_stage (stage : Stage) :
    (runtimeError ("unsupported research DAG stage: " ++ stage.value)).Unnamed := by
  cases stage <;> decide +kernel

theorem runOptimization_spec {d d₁ : Durable} {x x₁ : Entry} {e : Execution}
    (hr : Rewritten d d₁ x₁) (hstep : x₁ = x ∨ Worked turns x x₁) (hf : Follows e x₁.order)
    (hi : Interrupted x x₁ e) (hstage : e.stage = .optimize) :
    (Execution.runOptimization d₁ e).Spec turns d x := by
  unfold Execution.runOptimization
  split
  · exact ⟨x₁, hr, hstep, hf, hstage⟩
  · exact ⟨x₁, hr, hi, by decide +kernel⟩

theorem dispatch_spec {d d₁ : Durable} {x x₁ : Entry} {e : Execution}
    (hr : Rewritten d d₁ x₁) (hstep : x₁ = x ∨ Worked turns x x₁) (hf : Follows e x₁.order)
    (hi : Interrupted x x₁ e) : (Execution.dispatch d₁ e).Spec turns d x := by
  unfold Execution.dispatch
  split
  case h_1 hstage => exact ⟨x₁, hr, hstep, hf, hstage⟩
  case h_2 hstage =>
    cases hs : e.results.strategy with
    | none => exact ⟨x₁, hr, hi, by decide +kernel⟩
    | some handoff => exact ⟨x₁, hr, hstep, hf, hstage, hs⟩
  case h_3 hstage _ =>
    cases e.results.strategy with
    | none => exact ⟨x₁, hr, hi, by decide +kernel⟩
    | some handoff => exact ⟨x₁, hr, hstep, hf, hstage⟩
  case h_4 hstage _ =>
    cases hs : e.results.backtest with
    | none => exact ⟨x₁, hr, hi, by decide +kernel⟩
    | some handoff => exact ⟨x₁, hr, hstep, hf, hstage, hs⟩
  case h_5 hstage _ => exact runOptimization_spec hr hstep hf hi hstage
  case h_6 => exact ⟨x₁, hr, hi, unnamed_stage _⟩

theorem datasetReady_spec {d : Durable} {x : Entry} {e : Execution} (hx : x ∈ d)
    (hid : e.order.id = x.order.id) (hworking : x.order.status = .working)
    (hstage : x.order.stage = some e.stage) (hfits : e.stage = .dataset ∨ e.stage = .backtest)
    (hartifact : e.order.artifact = x.order.artifact) (data : Option String)
    (hresults : e.results = { x.order.results with dataset := data }) :
    (e.datasetReady outside d).Spec turns d x := by
  obtain ⟨record, hr, hkeep, hsame, _⟩ :=
    checkpoint_spec outside hx .backtest e.results none none
  obtain ⟨hrecord, hnone⟩ := hsame (by decide)
  have hw : Worked turns x ⟨x.order.checkpointed .backtest e.results none none, record⟩ := by
    refine ⟨hworking, .checkpointed _ _ _ _ _, ⟨e.stage, .backtest, hstage, rfl, ?_⟩, fun _ => rfl,
      hkeep, ?_, id⟩
    · simp only [WorkOrder.checkpointed, hworking, hresults]
      exact .prepared _ _ hfits
    · intro _ hs
      cases hs
  have hf : Follows (e.withStage .backtest)
      (x.order.checkpointed .backtest e.results none none) := by
    exact ⟨hid, hworking, .inl rfl, rfl, hartifact⟩
  have hi : Interrupted x ⟨x.order.checkpointed .backtest e.results none none, record⟩
      (e.withStage .backtest) := by
    refine hw.interrupted hid ⟨e.stage, hstage, ?_⟩
    simp only [Execution.withStage, hresults]
    exact .prepared _ _ hfits
  unfold Execution.datasetReady
  rw [hid]
  have hpair : d.checkpoint outside x.order.id .backtest e.results none none =
      ((d.checkpoint outside x.order.id .backtest e.results none none).1, none) :=
    Prod.ext rfl hnone
  rw [hpair]
  exact dispatch_spec hr (.inr hw) hf hi

theorem Follows.ofClaimed {order : WorkOrder} (hworking : order.status = .working)
    (hstage : order.stage.isSome = true) : Follows (.ofClaimed order) order := by
  obtain ⟨s, hs⟩ := Option.isSome_iff_exists.mp hstage
  exact ⟨rfl, hworking, .inl (by simp [Execution.ofClaimed, hs]), rfl, rfl⟩

theorem begin_spec {d : Durable} {x : Entry} (hx : x ∈ d) (hworking : x.order.status = .working)
    (hstage : x.order.stage.isSome = true) :
    ((Execution.ofClaimed x.order).begin outside d).Spec turns d x := by
  have hf := Follows.ofClaimed hworking hstage
  obtain ⟨s, hs⟩ := Option.isSome_iff_exists.mp hstage
  have he : (Execution.ofClaimed x.order).stage = s := by simp [Execution.ofClaimed, hs]
  unfold Execution.begin
  split
  case h_1 hagent =>
    exact ⟨x, .self hx, .inl rfl, ⟨rfl, hworking, .inr ⟨rfl, hagent, hstage⟩, rfl, rfl⟩, rfl⟩
  case h_2 =>
    split
    case isTrue h => exact ⟨x, .self hx, .inl rfl, hf, h.1⟩
    case isFalse =>
      split
      case isTrue h =>
        exact datasetReady_spec hx rfl hworking (he ▸ hs) (.inl h.1) rfl x.order.results.dataset rfl
      case isFalse => exact dispatch_spec (.self hx) (.inl rfl) hf hf.interrupted

theorem ofWrite_spec {d : Durable} {x : Entry} {e : Execution} {w : Durable × Option Failure}
    (hid : e.order.id = x.order.id)
    (hback : ∃ s, x.order.stage = some s ∧ SentBack s x.order.results e.stage e.results)
    (h : ∃ x', Rewritten d w.1 x' ∧ Worked turns x x')
    (hunnamed : ∀ failure, w.2 = some failure → failure.Unnamed) :
    (Segment.ofWrite e w).Spec turns d x := by
  obtain ⟨x', hr, hw⟩ := h
  obtain ⟨d', raised⟩ := w
  cases raised with
  | none => exact ⟨x', hr, .inr hw⟩
  | some failure => exact ⟨x', hr, hw.interrupted hid hback, hunnamed failure rfl⟩

@[simp] theorem Results.handoff_setReview (r : Results) (report : String) (s : ReviewStage) :
    (r.setReview report s).handoff s = r.handoff s := by
  cases s <;> rfl

@[simp] theorem Results.review_setReview (r : Results) (report : String) (s : ReviewStage) :
    (r.setReview report s).review s = some report := by
  cases s <;> rfl

theorem incompleteReason_ne (s : ReviewStage) :
    "Review Agent returned an incomplete " ++ s.value ++ " audit report" ≠
      WorkOrder.misreadReview := by
  cases s <;> decide

theorem verdictReason_ne (outcome : ReviewOutcome) (s : ReviewStage) :
    "Review Agent returned " ++ outcome.upper ++ " for " ++ s.value ≠ WorkOrder.misreadReview := by
  cases outcome <;> cases s <;> decide

structure Reviewed (turns : List AgentTurn) (x : Entry) (e : Execution) (s : ReviewStage)
    (report : String) : Prop where
  id : e.order.id = x.order.id
  working : x.order.status = .working
  stage : x.order.stage = some s.stage
  local_stage : e.stage = s.stage
  results : e.results = x.order.results.setReview report s
  artifact : e.order.artifact = x.order.artifact
  logged : ∃ handoff, x.order.results.handoff s = some handoff ∧
    { workOrder := x.order.id, turn := .review s handoff, reply := report } ∈ turns

theorem Reviewed.interrupted {x : Entry} {e : Execution} {s : ReviewStage} {report : String}
    (h : Reviewed turns x e s report) : Interrupted x x e := by
  refine ⟨h.working, h.id, .refl _, ⟨s.stage, h.stage, ?_⟩, fun _ => rfl, .refl _⟩
  rw [h.local_stage, h.results]
  exact .unreviewed s _ _

theorem Reviewed.passed {x : Entry} {e : Execution} {s : ReviewStage} {report : String}
    (h : Reviewed turns x e s report) (hpass : reviewOutcome report s = .pass) :
    Passed turns x.order.id s e.results := by
  obtain ⟨handoff, hh, hlog⟩ := h.logged
  rw [h.results]
  exact ⟨handoff, report, by rw [Results.handoff_setReview, hh], by simp, hpass, hlog⟩

theorem completeReview_spec {d : Durable} {x : Entry} {e : Execution} {s : ReviewStage}
    {report : String} (hx : x ∈ d) (h : Reviewed turns x e s report) :
    (Execution.completeReview config outside s report d e).Spec turns d x := by
  have hback := h.interrupted.sentBack
  unfold Execution.completeReview
  rw [h.id]
  split
  case h_1 hpass =>
    obtain ⟨record, hr, hkeep⟩ := finish_spec outside hx .awaitingImplementationApproval
      .implementationApproval e.results
    refine ofWrite_spec h.id hback ⟨_, hr, worked_finish h.interrupted hkeep (by decide)
      ⟨.reviewImplementation, h.stage, ?_⟩⟩ fun _ => finish_unnamed hx
    have hp := h.passed hpass
    rw [h.results] at hp ⊢
    exact .implementationGate _ _ hp
  case h_2 hpass =>
    have hp := h.passed hpass
    rw [Durable.find_mem hx]
    dsimp only
    split
    case isTrue =>
      obtain ⟨record, hr, hkeep, hsame, _⟩ :=
        checkpoint_spec outside hx .optimize e.results none none
      have hw : Worked turns x ⟨x.order.checkpointed .optimize e.results none none, record⟩ := by
        refine ⟨h.working, .checkpointed _ _ _ _ _,
          ⟨.reviewBacktest, .optimize, h.stage, rfl, ?_⟩, fun _ => rfl, hkeep, ?_, id⟩
        · rw [h.results] at hp
          simp only [WorkOrder.checkpointed, h.working, h.results]
          exact .optimizing _ _ hp
        · intro _ hs
          cases hs
      have hpair : d.checkpoint outside x.order.id .optimize e.results none none =
          ((d.checkpoint outside x.order.id .optimize e.results none none).1, none) :=
        Prod.ext rfl (hsame (by decide)).2
      obtain ⟨handoff, report', hb, hrev, _⟩ := hp
      have hb' : e.results.backtest = some handoff := hb
      have hrev' : e.results.reviewBacktest = some report' := hrev
      rw [hpair]
      simp only [Execution.runOptimization, hb', hrev']
      exact ⟨_, hr, .inr hw, ⟨h.id, h.working, .inl rfl, rfl, h.artifact⟩, rfl⟩
    case isFalse =>
      obtain ⟨record, hr, hkeep⟩ := finish_spec outside hx .awaitingBacktestApproval
        .backtestApproval e.results
      refine ofWrite_spec h.id hback ⟨_, hr, worked_finish h.interrupted hkeep (by decide)
        ⟨.reviewBacktest, h.stage, ?_⟩⟩ fun _ => finish_unnamed hx
      rw [h.results] at hp ⊢
      exact .backtestGate _ _ hp
  case h_3 s _ _ _ =>
    obtain ⟨hq, hnone⟩ := requeue_spec config hx _
    refine ofWrite_spec h.id hback ⟨_, hq, worked_requeue h.interrupted
      ⟨s.stage, h.stage, ?_⟩ (incompleteReason_ne s)⟩ (by simp [hnone])
    dsimp only
    rw [h.results]
    exact .unreviewed s _ _
  case h_4 s _ _ _ _ _ =>
    dsimp only
    obtain ⟨hq, hnone⟩ := requeue_spec config hx _
    refine ofWrite_spec h.id hback ⟨_, hq, worked_requeue h.interrupted
      ⟨s.stage, h.stage, ?_⟩ (verdictReason_ne _ s)⟩ ?_
    · have hreturn : (if s = .reviewImplementation then Stage.strategy else .backtest) =
          WorkOrder.returnStage s := by
        cases s <;> rfl
      dsimp only
      rw [h.results, hreturn]
      exact .rejected s _ _
    · intro failure hraised
      rw [hnone] at hraised
      cases hraised

theorem bindArtifactIdentity_or (manifests : List ManifestFile) (order : WorkOrder)
    (evidence : String) :
    (bindArtifactIdentity manifests order evidence).artifactId.or order.artifactId =
        (bindArtifactIdentity manifests order evidence).artifactId ∧
      (bindArtifactIdentity manifests order evidence).artifactVersion.or order.artifactVersion =
        (bindArtifactIdentity manifests order evidence).artifactVersion := by
  unfold bindArtifactIdentity
  split
  · simp
  · split <;> simp

theorem Follows.stage_eq {e : Execution} {order : WorkOrder} (h : Follows e order)
    (hne : e.stage ≠ .maintenance) : order.stage = some e.stage := by
  rcases h.stage with hs | ⟨hm, _⟩
  · exact hs
  · exact absurd hm hne

theorem implemented_spec {d : Durable} {x : Entry} {e : Execution} (hx : x ∈ d)
    (hf : Follows e x.order) (hstage : e.stage = .strategy) (prior : Option String)
    (text : String) :
    (e.resume config outside (.turn (.strategy prior)) text d).Spec turns d x := by
  have hs : x.order.stage = some .strategy := by
    rw [hf.stage_eq (by rw [hstage]; decide), hstage]
  obtain ⟨hor, hor'⟩ := bindArtifactIdentity_or outside.manifests e.order text
  obtain ⟨hid, hversion⟩ := Prod.mk.inj hf.artifact
  simp only [Execution.resume, bindArtifactIdentity_id, hf.id]
  obtain ⟨record, hr, hkeep, _, hnamed⟩ :=
    checkpoint_spec outside hx .reviewImplementation { e.results with strategy := some text }
      (bindArtifactIdentity outside.manifests e.order text).artifactId
      (bindArtifactIdentity outside.manifests e.order text).artifactVersion
  split
  case h_1 d' failure hw =>
    have hunnamed : failure.Unnamed := checkpoint_unnamed hx (congrArg Prod.snd hw)
    rw [hw] at hr
    refine ⟨_, hr, ⟨hf.working, ?_, .checkpointed _ _ _ _ _, ⟨.strategy, hs, ?_⟩,
      fun hne => absurd hs hne, hkeep⟩, hunnamed⟩
    · simp [hf.id]
    · simp only [hstage, hf.results]
      exact .implemented _ _
  case h_2 d' hw =>
    rw [hw] at hr hnamed
    refine ⟨_, hr, .inr ⟨hf.working, .checkpointed _ _ _ _ _,
      ⟨.strategy, .reviewImplementation, hs, rfl, ?_⟩, fun hne => absurd hs hne, hkeep, ?_, id⟩,
      ⟨?_, hf.working, .inl rfl, rfl, ?_⟩, rfl, rfl⟩
    · simp only [WorkOrder.checkpointed, hf.working, hf.results]
      exact .implemented _ _
    · intro _ _ hv
      exact hnamed rfl rfl hv
    · simp [hf.id]
    · simp only [WorkOrder.checkpointed, WorkOrder.artifact, ← hid, ← hversion, hor, hor']

theorem backtested_spec {d : Durable} {x : Entry} {e : Execution} (hx : x ∈ d)
    (hf : Follows e x.order) (hstage : e.stage = .backtest) (handoff text : String) :
    (e.resume config outside (.turn (.backtest handoff)) text d).Spec turns d x := by
  have hs : x.order.stage = some .backtest := by
    rw [hf.stage_eq (by rw [hstage]; decide), hstage]
  obtain ⟨record, hr, hkeep, hsame, _⟩ := checkpoint_spec outside hx .reviewBacktest
    { e.results with backtest := some text } none none
  have hpair : d.checkpoint outside x.order.id .reviewBacktest
      { e.results with backtest := some text } none none =
      ((d.checkpoint outside x.order.id .reviewBacktest
        { e.results with backtest := some text } none none).1, none) :=
    Prod.ext rfl (hsame (by decide)).2
  simp only [Execution.resume, hf.id]
  rw [hpair]
  refine ⟨_, hr, .inr ⟨hf.working, .checkpointed _ _ _ _ _,
    ⟨.backtest, .reviewBacktest, hs, rfl, ?_⟩, fun _ => rfl, hkeep, ?_, id⟩,
    ⟨hf.id, hf.working, .inl rfl, rfl, hf.artifact⟩, rfl, rfl⟩
  · simp only [WorkOrder.checkpointed, hf.working, hf.results]
    exact .backtested _ _
  · intro _ hr
    cases hr

theorem optimized_spec {d : Durable} {x : Entry} {e : Execution} (hx : x ∈ d)
    (hf : Follows e x.order) (hstage : e.stage = .optimize) (handoff text : String) :
    (e.resume config outside (.turn (.optimize handoff)) text d).Spec turns d x := by
  have hs : x.order.stage = some .optimize := by
    rw [hf.stage_eq (by rw [hstage]; decide), hstage]
  have hback : ∃ s, x.order.stage = some s ∧ SentBack s x.order.results e.stage
      { e.results with optimization := some text } := by
    refine ⟨.optimize, hs, ?_⟩
    rw [hstage, hf.results]
    exact .optimized _ _
  simp only [Execution.resume, hf.id]
  split
  · obtain ⟨record, hr, hkeep⟩ := finish_spec outside hx .awaitingOptimizationApproval
      .optimizationApproval { e.results with optimization := some text }
    refine ofWrite_spec hf.id hback ⟨_, hr, worked_finish hf.interrupted hkeep (by decide)
      ⟨.optimize, hs, ?_⟩⟩ fun _ => finish_unnamed hx
    rw [hf.results]
    exact .optimizationGate _ _
  · obtain ⟨hq, hnone⟩ := requeue_spec config hx _
    refine ofWrite_spec hf.id hback ⟨_, hq, worked_requeue hf.interrupted ⟨.optimize, hs, ?_⟩
      (by dsimp only; decide)⟩ (by simp [hnone])
    dsimp only
    rw [hf.results]
    exact .optimized _ _

theorem resume_spec {d : Durable} {x : Entry} {e : Execution} {on : Await} {text : String}
    (hx : x ∈ d) (hf : Follows e x.order) (hfits : on.Fits e)
    (hlog : ∀ turn, on = .turn turn →
      { workOrder := x.order.id, turn := turn, reply := text } ∈ turns) :
    (e.resume config outside on text d).Spec turns d x := by
  cases on with
  | dataset =>
    have hne : e.stage ≠ .maintenance := by
      rcases hfits with h | h <;> rw [h] <;> decide
    exact datasetReady_spec hx hf.id hf.working (hf.stage_eq hne) hfits hf.artifact (some text)
      (by rw [hf.results])
  | turn turn =>
    cases turn with
    | strategy prior => exact implemented_spec hx hf hfits prior text
    | review s handoff =>
      obtain ⟨hstage, hhandoff⟩ := hfits
      have hne : e.stage ≠ .maintenance := by
        rw [hstage]
        cases s <;> decide
      refine completeReview_spec hx ⟨hf.id, hf.working, ?_, rfl, ?_, hf.artifact, handoff, ?_,
        hlog _ rfl⟩
      · rw [hf.stage_eq hne, hstage]
      · rw [← hf.results]
      · rw [← hf.results, hhandoff]
    | backtest handoff => exact backtested_spec hx hf hfits handoff text
    | optimize handoff => exact optimized_spec hx hf hfits handoff text
    | maintenance => exact ⟨x, .self hx, .inl rfl⟩

theorem exists_resume_spec (config : RunnerConfig) (outside : Outside) {d : Durable} {x : Entry}
    {e : Execution} {on : Await} (text : String) (hx : x ∈ d) (hf : Follows e x.order)
    (hfits : on.Fits e) : ∃ turns, (e.resume config outside on text d).Spec turns d x := by
  cases on with
  | dataset => exact ⟨[], resume_spec hx hf hfits nofun⟩
  | turn turn =>
    refine ⟨[{ workOrder := x.order.id, turn := turn, reply := text }],
      resume_spec hx hf hfits ?_⟩
    rintro turn' h
    cases h
    simp

end ChainQuantStudio.Studio
