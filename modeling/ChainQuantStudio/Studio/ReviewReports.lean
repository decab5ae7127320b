import ChainQuantStudio.Studio.ImplementationEvidence
import ChainQuantStudio.Studio.WorkerLoop

/-!
# The Review reports of an order

Only a Review turn of a stage changes the report of that stage. The one exception is an order that
fails or is cancelled, which no agent sees again as it is.
-/

namespace ChainQuantStudio.Studio

structure Results.SameReports (r r' : Results) : Prop where
  implementation : r'.reviewImplementation = r.reviewImplementation
  backtest : r'.reviewBacktest = r.reviewBacktest

/-- The order has ended or has the same reports, and unless `opened` a Review has not put it at the
implementation gate. -/
def WorkOrder.Files (opened : Bool) (r : Results) (order : WorkOrder) : Prop :=
  order.status = .failed ∨ order.status = .cancelled ∨
    (r.SameReports order.results ∧
      (opened = true ∨ order.status ≠ .awaitingImplementationApproval))

def Durable.Files (opened : Bool) (r : Results) (identifier : String) (d : Durable) : Prop :=
  ∀ order, d.find identifier = some order → order.Files opened r

def Durable.Works (identifier : String) (d : Durable) : Prop :=
  ∀ order, d.find identifier = some order → order.status = .working

def Segment.Files (opened : Bool) (r : Results) (identifier : String) : Segment → Prop
  | .awaiting d _ _ => d.Files opened r identifier
  | .returned d => d.Files opened r identifier
  | .raised _ e _ => e.order.id = identifier ∧ r.SameReports e.results

section Writes

variable {config : RunnerConfig} {outside : Outside} {opened : Bool} {r : Results}
  {identifier : String} {d : Durable} {e : Execution}

theorem Results.SameReports.refl (r : Results) : r.SameReports r := ⟨rfl, rfl⟩

theorem finish_files {status : Status} {stage : Stage} {results : Results}
    (h : r.SameReports results)
    (hstatus : opened = true ∨ status ≠ .awaitingImplementationApproval) :
    (d.finish outside identifier status stage results).1.Files opened r identifier := by
  intro order horder
  rw [find_finish] at horder
  obtain ⟨before, _, rfl⟩ := Option.map_eq_some_iff.mp horder
  exact .inr (.inr ⟨h, hstatus⟩)

theorem fail_files (stage : Stage) (results : Results) :
    (d.finish outside identifier .failed stage results).1.Files opened r identifier := by
  intro order horder
  rw [find_finish] at horder
  obtain ⟨before, _, rfl⟩ := Option.map_eq_some_iff.mp horder
  exact .inl rfl

theorem requeue_files {q : Requeue} (h : r.SameReports q.results) :
    (d.requeue config identifier q).1.Files opened r identifier := by
  intro order horder
  rw [find_requeue] at horder
  obtain ⟨before, _, rfl⟩ := Option.map_eq_some_iff.mp horder
  refine .inr (.inr ⟨?_, .inr ?_⟩)
  · rw [Requeue.apply_results]
    exact h
  · rcases Requeue.apply_status config q before with hs | hs | hs <;> simp [hs]

theorem checkpoint_files {stage : Stage} {results : Results}
    {artifactId artifactVersion : Option String} (hw : d.Works identifier)
    (h : r.SameReports results) :
    (d.checkpoint outside identifier stage results artifactId artifactVersion).1.Files opened r
      identifier := by
  intro order horder
  rw [find_checkpoint] at horder
  obtain ⟨before, hbefore, rfl⟩ := Option.map_eq_some_iff.mp horder
  refine .inr (.inr ⟨h, .inr ?_⟩)
  have hworking := hw before hbefore
  simp [WorkOrder.checkpointed, hworking]

theorem handle_files (config : RunnerConfig) {failure : Failure}
    (hyears : ¬ failure.OutOfYears outside) (h : r.SameReports e.results) :
    (e.handle config outside failure d).1.Files opened r e.order.id := by
  have hhandled := handle_handled config d e hyears
  generalize e.handle config outside failure d = written at hhandled ⊢
  cases hhandled with
  | late => exact requeue_files h
  | quota => exact requeue_files h
  | failed => exact fail_files _ _

theorem acquisitionFailed_files (config : RunnerConfig) (outside : Outside) (detail : String)
    (h : r.SameReports e.results) :
    (e.acquisitionFailed config outside detail d).1.Files opened r e.order.id := by
  unfold Execution.acquisitionFailed
  exact requeue_files h

theorem cancelled_files (config : RunnerConfig) (outside : Outside) (byUser : Bool)
    (h : r.SameReports e.results) :
    (e.cancelled config outside byUser d).1.Files opened r e.order.id := by
  unfold Execution.cancelled
  split
  · intro order horder
    rw [find_finish] at horder
    obtain ⟨before, _, rfl⟩ := Option.map_eq_some_iff.mp horder
    exact .inr (.inl rfl)
  · exact requeue_files h

theorem ofWrite_files {w : Durable × Option Failure} (h : w.1.Files opened r identifier)
    (hid : e.order.id = identifier) (hr : r.SameReports e.results) :
    (Segment.ofWrite e w).Files opened r identifier := by
  obtain ⟨d, raised⟩ := w
  cases raised with
  | none => exact h
  | some failure => exact ⟨hid, hr⟩

theorem runOptimization_files (h : d.Files opened r e.order.id) (hr : r.SameReports e.results) :
    (Execution.runOptimization d e).Files opened r e.order.id := by
  unfold Execution.runOptimization
  split
  · exact h
  · exact ⟨rfl, hr⟩

theorem dispatch_files (h : d.Files opened r e.order.id) (hr : r.SameReports e.results) :
    (Execution.dispatch d e).Files opened r e.order.id := by
  unfold Execution.dispatch
  split
  case h_1 => exact h
  case h_2 =>
    split
    · exact ⟨rfl, hr⟩
    · exact h
  case h_3 =>
    split
    · exact ⟨rfl, hr⟩
    · exact h
  case h_4 =>
    split
    · exact ⟨rfl, hr⟩
    · exact h
  case h_5 => exact runOptimization_files h hr
  case h_6 => exact ⟨rfl, hr⟩

theorem datasetReady_files (hw : d.Works e.order.id) (hr : r.SameReports e.results) :
    (e.datasetReady outside d).Files opened r e.order.id := by
  have hc : (d.checkpoint outside e.order.id .backtest e.results none none).1.Files opened r
      e.order.id := checkpoint_files hw hr
  unfold Execution.datasetReady
  split
  case h_1 d' failure hd => exact ⟨rfl, hr⟩
  case h_2 d' hd =>
    rw [hd] at hc
    exact dispatch_files (e := e.withStage .backtest) hc hr

theorem Durable.Works.files (h : d.Works identifier)
    (hr : ∀ order, d.find identifier = some order → r.SameReports order.results) :
    d.Files opened r identifier := by
  intro order horder
  refine .inr (.inr ⟨hr order horder, .inr ?_⟩)
  rw [h order horder]
  decide

theorem begin_files (hw : d.Works e.order.id) (h : d.Files opened r e.order.id)
    (hr : r.SameReports e.results) : (e.begin outside d).Files opened r e.order.id := by
  unfold Execution.begin
  split
  · exact h
  · split
    · exact h
    · split
      · exact datasetReady_files hw hr
      · exact dispatch_files h hr

theorem completeReview_files {stage : ReviewStage} {report : String} (hw : d.Works e.order.id)
    (hr : r.SameReports e.results) :
    (Execution.completeReview config outside stage report d e).Files true r e.order.id := by
  unfold Execution.completeReview
  split
  case h_1 => exact ofWrite_files (finish_files hr (.inl rfl)) rfl hr
  case h_2 =>
    split
    · exact ⟨rfl, hr⟩
    · split
      · have hc : (d.checkpoint outside e.order.id .optimize e.results none none).1.Files true r
            e.order.id := checkpoint_files hw hr
        split
        case h_1 d' failure hd => exact ⟨rfl, hr⟩
        case h_2 d' hd =>
          rw [hd] at hc
          exact runOptimization_files (e := { e with stage := .optimize }) hc hr
      · exact ofWrite_files (finish_files hr (.inl rfl)) rfl hr
  case h_3 => exact ofWrite_files (requeue_files hr) rfl hr
  case h_4 => exact ofWrite_files (requeue_files hr) rfl hr

theorem resume_files {on : Await} {text : String} (hw : d.Works e.order.id)
    (h : d.Files false r e.order.id) (hr : r.SameReports e.results)
    (hon : ∀ stage handoff, on ≠ .turn (.review stage handoff)) :
    (e.resume config outside on text d).Files false r e.order.id := by
  cases on with
  | dataset =>
    exact datasetReady_files (e := { e with
      results := { e.results with dataset := some text } }) hw ⟨hr.implementation, hr.backtest⟩
  | turn turn =>
    cases turn with
    | review stage handoff => exact absurd rfl (hon stage handoff)
    | strategy prior =>
      have hr' : r.SameReports { e.results with strategy := some text } :=
        ⟨hr.implementation, hr.backtest⟩
      simp only [Execution.resume, bindArtifactIdentity_id]
      have hc : (d.checkpoint outside e.order.id .reviewImplementation
          { e.results with strategy := some text }
          (bindArtifactIdentity outside.manifests e.order text).artifactId
          (bindArtifactIdentity outside.manifests e.order text).artifactVersion).1.Files false r
            e.order.id := checkpoint_files hw hr'
      split
      case h_1 d' failure hd => exact ⟨bindArtifactIdentity_id _ _ _, hr'⟩
      case h_2 d' hd =>
        rw [hd] at hc
        exact hc
    | backtest handoff =>
      have hr' : r.SameReports { e.results with backtest := some text } :=
        ⟨hr.implementation, hr.backtest⟩
      simp only [Execution.resume]
      have hc : (d.checkpoint outside e.order.id .reviewBacktest
          { e.results with backtest := some text } none none).1.Files false r e.order.id :=
        checkpoint_files hw hr'
      split
      case h_1 d' failure hd => exact ⟨rfl, hr'⟩
      case h_2 d' hd =>
        rw [hd] at hc
        exact hc
    | optimize handoff =>
      have hr' : r.SameReports { e.results with optimization := some text } :=
        ⟨hr.implementation, hr.backtest⟩
      simp only [Execution.resume]
      split
      · exact ofWrite_files (finish_files hr' (.inr (by decide))) rfl hr'
      · exact ofWrite_files (requeue_files hr') rfl hr'
    | maintenance => exact h

end Writes

section Steps

variable {config : RunnerConfig} {outside : Outside} {opened : Bool} {r : Results} {g : Gateway}
  {x x' : Entry} {e : Execution}

theorem Durable.Files.of_mem {d : Durable} (h : d.Files opened r x.order.id) (hx' : x' ∈ d)
    (hid : x'.order.id = x.order.id) : x'.order.Files opened r := by
  apply h
  rw [← hid]
  exact Durable.find_mem hx'

theorem Durable.works_of_mem {d : Durable} (hx : x ∈ d) (hworking : x.order.status = .working) :
    d.Works x.order.id := by
  intro order horder
  rw [Durable.find_mem hx] at horder
  rw [← Option.some.inj horder]
  exact hworking

theorem Durable.files_of_mem {d : Durable} (hx : x ∈ d) (hworking : x.order.status = .working) :
    d.Files opened x.order.results x.order.id := by
  apply (Durable.works_of_mem hx hworking).files
  intro order horder
  rw [Durable.find_mem hx] at horder
  rw [← Option.some.inj horder]
  exact .refl _

theorem proceed_files {seg : Segment} {identifier : String} {turns : List AgentTurn}
    (hseg : seg.Spec turns g.durable x) (h : seg.Files opened r identifier) :
    (g.proceed config outside identifier seg).durable.Files opened r identifier := by
  cases seg with
  | awaiting d e on => exact h
  | returned d => exact h
  | raised d e failure =>
    obtain ⟨rfl, hr⟩ := h
    obtain ⟨_, _, _, hunnamed⟩ := hseg
    exact handle_files config (hunnamed.not_outOfYears outside) hr

end Steps

end ChainQuantStudio.Studio
