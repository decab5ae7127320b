import ChainQuantStudio.Studio.FailureBudget

/-!
# Runs keep the failure budget

Every write of the worker, every startup and every decision of a user keeps each order within its
budget and the list of dead letters exact.
-/

namespace ChainQuantStudio.Studio

structure Durable.Ready (config : RunnerConfig) (identifier : String) (d : Durable) : Prop where
  budgeted : d.Budgeted config
  live : ∃ x ∈ d, x.order.id = identifier ∧ x.order.status.live = true

section Writes

variable {config : RunnerConfig} {d : Durable} {identifier : String}

@[simp] theorem store_recordArtifact (outside : Outside) (order : WorkOrder) (d : Durable) :
    (d.recordArtifact outside order).1.store = d.store := by
  unfold Durable.recordArtifact
  split <;> rfl

theorem deadLetters_finish (outside : Outside) (identifier : String) (status : Status)
    (stage : Stage) (results : Results) (d : Durable) :
    (d.finish outside identifier status stage results).1.store.deadLetters =
      d.store.deadLetters := by
  unfold Durable.finish
  split
  · rfl
  · rw [store_recordArtifact]
    rfl

theorem deadLetters_checkpoint (outside : Outside) (identifier : String) (stage : Stage)
    (results : Results) (artifactId artifactVersion : Option String) (d : Durable) :
    (d.checkpoint outside identifier stage results artifactId
      artifactVersion).1.store.deadLetters = d.store.deadLetters := by
  unfold Durable.checkpoint
  split
  · rfl
  · dsimp only
    split
    · rw [store_recordArtifact]
      rfl
    · rfl

theorem Status.ne_deadLetter_of_live {status : Status} (h : status.live = true) :
    status ≠ .deadLetter := by
  rintro rfl
  cases h

theorem Durable.Ready.finish (h : d.Ready config identifier) (outside : Outside) {status : Status}
    (hstatus : status ≠ .deadLetter) (stage : Stage) (results : Results) :
    (d.finish outside identifier status stage results).1.Budgeted config ∧
      (status.live = true →
        (d.finish outside identifier status stage results).1.Ready config identifier) := by
  obtain ⟨x, hx, rfl, hlive⟩ := h.live
  obtain ⟨record, hr, _⟩ := finish_spec outside hx status stage results
  have hb : Studio.Budgeted config (x.order.finished status stage results) :=
    (h.budgeted.orders x hx).of_same hlive rfl rfl hstatus (.inr rfl)
  have hlists := h.budgeted.lists.rewritten hx hr rfl
    (deadLetters_finish outside _ status stage results d)
    (iff_of_false hstatus (Status.ne_deadLetter_of_live hlive))
  have hbudget : (d.finish outside x.order.id status stage results).1.Budgeted config :=
    ⟨h.budgeted.orders_rewritten hr hb, hlists⟩
  exact ⟨hbudget, fun hl => ⟨hbudget, _, hr.mem, rfl, hl⟩⟩

theorem Durable.Ready.checkpoint (h : d.Ready config identifier) (outside : Outside)
    (stage : Stage) (results : Results) (artifactId artifactVersion : Option String) :
    (d.checkpoint outside identifier stage results artifactId artifactVersion).1.Ready config
      identifier := by
  obtain ⟨x, hx, rfl, hlive⟩ := h.live
  obtain ⟨record, hr, _⟩ :=
    checkpoint_spec outside hx stage results artifactId artifactVersion
  have hb : Studio.Budgeted config
      (x.order.checkpointed stage results artifactId artifactVersion) :=
    (h.budgeted.orders x hx).of_same hlive rfl rfl (Status.ne_deadLetter_of_live hlive) (.inl rfl)
  have hlists := h.budgeted.lists.rewritten hx hr rfl
    (deadLetters_checkpoint outside _ stage results artifactId artifactVersion d) Iff.rfl
  exact ⟨⟨h.budgeted.orders_rewritten hr hb, hlists⟩, _, hr.mem, rfl, hlive⟩

theorem Durable.Ready.requeue (h : d.Ready config identifier) {r : Requeue} (hplain : r.Plain) :
    (d.requeue config identifier r).1.Budgeted config := by
  obtain ⟨x, hx, rfl, hlive⟩ := h.live
  obtain ⟨hr, _⟩ := requeue_spec config hx r
  have hb := (h.budgeted.orders x hx).requeued hlive hplain
  have hbefore := Status.ne_deadLetter_of_live hlive
  refine ⟨h.budgeted.orders_rewritten hr hb, ?_⟩
  by_cases hdead : (r.apply config x.order).status = .deadLetter
  · have hletters : (d.requeue config x.order.id r).1.store.deadLetters = d.store.deadLetters ++
        [{ id := x.order.id, stage := r.stage, reason := r.reason
           attempts := (r.apply config x.order).attempts
           recurringIssues := r.recurring config x.order }] := by
      unfold Durable.requeue
      rw [Durable.find_mem hx]
      dsimp only
      rw [if_pos hdead]
      rfl
    exact h.budgeted.lists.listed hx hr (by simp) hletters rfl hbefore hdead
  · have hletters : (d.requeue config x.order.id r).1.store.deadLetters =
        d.store.deadLetters := by
      unfold Durable.requeue
      rw [Durable.find_mem hx]
      dsimp only
      rw [if_neg hdead]
      split <;> rfl
    exact h.budgeted.lists.rewritten hx hr (by simp) hletters (iff_of_false hdead hbefore)

theorem Durable.Ready.openCircuit (h : d.Ready config identifier) (reason : String)
    (retryAt : ℤ) : (d.openCircuit reason retryAt).Ready config identifier :=
  ⟨h.budgeted.congr rfl rfl rfl, h.live⟩

theorem Requeue.plain_of_head {r : Requeue} {c : Char} (h : r.reason.toList.head? = some c)
    (hc : c ≠ 'R') (hkeys : r.issueKeys = []) : r.Plain :=
  ⟨ne_misreadReview_of_head h hc, fun _ => hkeys⟩

theorem handle_budgeted (config : RunnerConfig) (outside : Outside) {e : Execution}
    (failure : Failure) (h : d.Ready config e.order.id) :
    (e.handle config outside failure d).1.Budgeted config := by
  by_cases hyears : failure.OutOfYears outside
  · obtain ⟨x, hx, hid, _⟩ := h.live
    obtain ⟨hkept, hletters, _⟩ := handle_outOfYears config hx hid.symm hyears
    refine ⟨fun y hy => ?_, h.budgeted.lists.rewritten hx hkept rfl hletters .rfl⟩
    rcases (hkept y).mp hy with rfl | ⟨hy, _⟩
    · exact h.budgeted.orders y hx
    · exact h.budgeted.orders y hy
  have hhandled := handle_handled config d e hyears
  generalize e.handle config outside failure d = written at hhandled ⊢
  cases hhandled with
  | late =>
    apply h.requeue
    exact Requeue.plain_of_head (c := 'C') (by simp [String.toList_append]) (by decide) rfl
  | quota _ _ retryAt hretry =>
    exact (h.openCircuit _ retryAt).requeue
      ⟨ne_misreadReview_of_retryable hretry, fun _ => rfl⟩
  | failed => exact (h.finish outside (by decide) _ _).1

theorem cancelled_budgeted (config : RunnerConfig) (outside : Outside) {e : Execution}
    (byUser : Bool) (h : d.Ready config e.order.id) :
    (e.cancelled config outside byUser d).1.Budgeted config := by
  unfold Execution.cancelled
  split
  · exact (h.finish outside (by decide) _ _).1
  · exact h.requeue ⟨by dsimp only; decide, fun _ => rfl⟩

theorem acquisitionFailed_budgeted (config : RunnerConfig) (outside : Outside) {e : Execution}
    (detail : String) (h : d.Ready config e.order.id) :
    (e.acquisitionFailed config outside detail d).1.Budgeted config := by
  apply h.requeue
  exact Requeue.plain_of_head (c := 'p') (by simp [String.toList_append]) (by decide) rfl

def Segment.Budgeted (config : RunnerConfig) : Segment → Prop
  | .awaiting d _ _ => d.Budgeted config
  | .returned d => d.Budgeted config
  | .raised d e _ => d.Ready config e.order.id

variable {outside : Outside} {e : Execution}

theorem runOptimization_budgeted (h : d.Ready config e.order.id) :
    (Execution.runOptimization d e).Budgeted config := by
  unfold Execution.runOptimization
  split
  · exact h.budgeted
  · exact h

theorem dispatch_budgeted (h : d.Ready config e.order.id) :
    (Execution.dispatch d e).Budgeted config := by
  unfold Execution.dispatch
  split
  case h_1 => exact h.budgeted
  case h_2 =>
    split
    · exact h
    · exact h.budgeted
  case h_3 =>
    split
    · exact h
    · exact h.budgeted
  case h_4 =>
    split
    · exact h
    · exact h.budgeted
  case h_5 => exact runOptimization_budgeted h
  case h_6 => exact h

theorem datasetReady_budgeted (h : d.Ready config e.order.id) :
    (e.datasetReady outside d).Budgeted config := by
  have hc := h.checkpoint outside .backtest e.results none none
  unfold Execution.datasetReady
  split
  case h_1 d' failure hw =>
    rw [hw] at hc
    exact hc
  case h_2 d' hw =>
    rw [hw] at hc
    exact dispatch_budgeted hc

theorem begin_budgeted (h : d.Ready config e.order.id) :
    (e.begin outside d).Budgeted config := by
  unfold Execution.begin
  split
  · exact h.budgeted
  · split
    · exact h.budgeted
    · split
      · exact datasetReady_budgeted h
      · exact dispatch_budgeted h

theorem ofWrite_budgeted {w : Durable × Option Failure} (h : w.1.Budgeted config)
    (hraised : w.2 ≠ none → w.1.Ready config e.order.id) :
    (Segment.ofWrite e w).Budgeted config := by
  obtain ⟨d, raised⟩ := w
  cases raised with
  | none => exact h
  | some failure => exact hraised nofun

theorem finish_ofWrite_budgeted (h : d.Ready config e.order.id) {status : Status}
    (hlive : status.live = true) (stage : Stage) (results : Results) :
    (Segment.ofWrite e (d.finish outside e.order.id status stage results)).Budgeted config := by
  obtain ⟨hb, hready⟩ :=
    h.finish outside (Status.ne_deadLetter_of_live hlive) stage results
  exact ofWrite_budgeted hb fun _ => hready hlive

theorem requeue_ofWrite_budgeted (h : d.Ready config e.order.id) {r : Requeue}
    (hplain : r.Plain) : (Segment.ofWrite e (d.requeue config e.order.id r)).Budgeted config := by
  obtain ⟨x, hx, hid, _⟩ := h.live
  refine ofWrite_budgeted (h.requeue hplain) fun hraised => ?_
  rw [← hid] at hraised
  exact absurd (requeue_spec config hx r).2 hraised

theorem verdictReason_not_timedOut (outcome : ReviewOutcome) (stage : ReviewStage) :
    timedOut ("Review Agent returned " ++ outcome.upper ++ " for " ++ stage.value) = false := by
  cases outcome <;> cases stage <;> decide

theorem completeReview_budgeted (stage : ReviewStage) (report : String)
    (h : d.Ready config e.order.id) :
    (Execution.completeReview config outside stage report d e).Budgeted config := by
  unfold Execution.completeReview
  split
  case h_1 => exact finish_ofWrite_budgeted h rfl _ _
  case h_2 =>
    split
    · exact h
    · split
      · have hc := h.checkpoint outside .optimize e.results none none
        split
        case h_1 d' failure hw =>
          rw [hw] at hc
          exact hc
        case h_2 d' hw =>
          rw [hw] at hc
          exact runOptimization_budgeted hc
      · exact finish_ofWrite_budgeted h rfl _ _
  case h_3 => exact requeue_ofWrite_budgeted h ⟨incompleteReason_ne _, fun _ => rfl⟩
  case h_4 outcome stage _ _ _ =>
    refine requeue_ofWrite_budgeted h ⟨verdictReason_ne _ _, fun htimed => ?_⟩
    dsimp only at htimed
    rw [verdictReason_not_timedOut] at htimed
    cases htimed

theorem resume_budgeted (on : Await) (text : String) (h : d.Ready config e.order.id) :
    (e.resume config outside on text d).Budgeted config := by
  unfold Execution.resume
  split
  case h_1 => exact datasetReady_budgeted h
  case h_2 =>
    dsimp only
    have hid := bindArtifactIdentity_id outside.manifests e.order text
    have hready : d.Ready config (bindArtifactIdentity outside.manifests e.order text).id := by
      rw [hid]
      exact h
    have hc := hready.checkpoint outside .reviewImplementation
      { e.results with strategy := some text }
      (bindArtifactIdentity outside.manifests e.order text).artifactId
      (bindArtifactIdentity outside.manifests e.order text).artifactVersion
    split
    case h_1 d' failure hw =>
      rw [hw] at hc
      exact hc
    case h_2 d' hw =>
      rw [hw] at hc
      exact hc.budgeted
  case h_3 => exact completeReview_budgeted _ _ h
  case h_4 =>
    dsimp only
    have hc := h.checkpoint outside .reviewBacktest { e.results with backtest := some text }
      none none
    split
    case h_1 d' failure hw =>
      rw [hw] at hc
      exact hc
    case h_2 d' hw =>
      rw [hw] at hc
      exact hc.budgeted
  case h_5 =>
    dsimp only
    split
    · apply finish_ofWrite_budgeted
      · exact h
      · rfl
    · apply requeue_ofWrite_budgeted
      · exact h
      · exact ⟨by dsimp only; decide, fun _ => rfl⟩
  case h_6 => exact h.budgeted

end Writes

end ChainQuantStudio.Studio
