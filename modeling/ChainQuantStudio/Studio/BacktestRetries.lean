import ChainQuantStudio.Studio.FailingSteps

/-!
# Retries of failed backtests

A startup may fail an order too, when its gate was opened by a Review that did not pass. With that,
every step that fails an order at a backtest stage is covered, and an order that stands after its
failure stands until it is retried.
-/

namespace ChainQuantStudio.Studio

section Startup

variable {config : RunnerConfig} {outside : Outside} {allowed : Entry → Prop}
  {before : WorkOrder} {y z : Entry}

def Rechecked (before y : WorkOrder) : Prop :=
  y.results = before.results ∨ y.results.reviewBacktest = some WorkOrder.nativeReview

inductive Recovering (before : WorkOrder) (y : WorkOrder) : Prop
  | unfailed : Gateway.retryable y.status = false → Rechecked before y →
    (y.status = .awaitingImplementationApproval → before.stage = some .implementationApproval) →
    Recovering before y
  | stands : Stands before y → Recovering before y
  | returned : y.stage = some .strategy → Rechecked before y →
    before.stage = some .implementationApproval → Recovering before y

structure Recovered (before y : WorkOrder) : Prop where
  evidenced : Evidenced y
  agent : y.agent = .strategy
  approved : before.implementationApproved = true
  approval : y.implementationApproval = before.implementationApproval
  artifact : y.artifact = before.artifact
  recovering : Recovering before y

theorem recovery_frame (h : Recovery config outside allowed y z)
    (hpassed : ¬ y.order.passedReviewDeadLetter) :
    z.order.agent = y.order.agent ∧
      z.order.implementationApproval = y.order.implementationApproval ∧
      z.order.artifact = y.order.artifact := by
  cases h with
  | migrated =>
    refine ⟨?_, implementationApproval_migrateOptimization _, ?_⟩
    · dsimp only
      unfold WorkOrder.migrateOptimization
      split <;> rfl
    · dsimp only
      unfold WorkOrder.migrateOptimization
      split <;> rfl
  | interrupted =>
    dsimp only
    unfold WorkOrder.recoverInterrupted
    split <;> exact ⟨rfl, rfl, rfl⟩
  | optimizerStage hreg =>
    dsimp only
    rw [WorkOrder.recoverOptimizerStage, if_pos hreg]
    exact ⟨rfl, rfl, rfl⟩
  | passedReview =>
    dsimp only
    rw [WorkOrder.recoverPassedReview, if_neg hpassed]
    exact ⟨rfl, rfl, rfl⟩
  | failedReview =>
    dsimp only
    cases hf : y.order.failedReview with
    | none =>
      rw [recoverFailedReview_of_none config hf]
      exact ⟨rfl, rfl, rfl⟩
    | some failed =>
      obtain ⟨hframe, _, _, hartifact, _⟩ := recoverFailedReview_spec config hf
      refine ⟨hframe.agent, ?_, hartifact⟩
      unfold WorkOrder.implementationApproval
      rw [hframe.approvals]
  | completedOptimize => exact ⟨rfl, rfl, rfl⟩
  | completedGate => exact ⟨rfl, rfl, rfl⟩
  | cleared =>
    dsimp only
    unfold WorkOrder.clearTerminalRetry
    split <;> exact ⟨rfl, rfl, rfl⟩

theorem Rechecked.congr {y z : WorkOrder} (h : Rechecked before y)
    (hresults : z.results = y.results) : Rechecked before z := by
  unfold Rechecked
  rw [hresults]
  exact h

theorem Recovering.requeued {y z : WorkOrder} (h : Recovering before y)
    (hstands : ¬ Stands before y) (hstatus : z.status = .queued)
    (hresults : z.results = y.results) : Recovering before z := by
  have hchecked : Rechecked before y := by
    cases h with
    | unfailed _ hr _ => exact hr
    | stands hs => exact absurd hs hstands
    | returned _ hr _ => exact hr
  refine .unfailed ?_ (hchecked.congr hresults) ?_
  · rw [hstatus]
    rfl
  · rw [hstatus]
    exact fun hs => by cases hs

theorem Recovering.of_same {y z : WorkOrder} (h : Recovering before y)
    (hstands : Stands before y → Stands before z) (hstatus : z.status = y.status)
    (hresults : z.results = y.results) (hstage : z.stage = y.stage) : Recovering before z := by
  have hchecked : Rechecked before y → Rechecked before z := fun hr => hr.congr hresults
  cases h with
  | unfailed hq hr hg =>
    refine .unfailed ?_ (hchecked hr) ?_
    · rw [hstatus]
      exact hq
    · rw [hstatus]
      exact hg
  | stands hs => exact .stands (hstands hs)
  | returned hs hr hb => exact .returned (hstage.trans hs) (hchecked hr) hb

theorem nativeReview_passed : reviewPassed WorkOrder.nativeReview = true := by
  decide +kernel

theorem Recovered.failedReview {stage : ReviewStage} {review : String}
    (h : Recovered before y.order) (hf : y.order.failedReview = some (stage, review))
    (hev : Evidenced (y.order.recoverFailedReview config)) :
    Recovering before (y.order.recoverFailedReview config) := by
  obtain ⟨hframe, hstage, hresults, hartifact, _, hstatus⟩ := recoverFailedReview_spec config hf
  obtain ⟨hopen, hreview, hnot⟩ := failedReview_eq_some hf
  have hgate : y.order.status = .awaitingImplementationApproval ∧ stage = .reviewImplementation ∨
      y.order.status = .awaitingBacktestApproval ∧ stage = .reviewBacktest := by
    unfold WorkOrder.openedBy at hopen
    split at hopen
    · rename_i hs
      exact .inl ⟨hs, (Option.some.inj hopen).symm⟩
    · rename_i hs
      exact .inr ⟨hs, (Option.some.inj hopen).symm⟩
    · cases hopen
  have hphase := h.recovering
  cases hphase with
  | stands hs =>
    have hnone := failedReview_of_retryable hs.waits
    rw [hnone] at hf
    cases hf
  | returned hs _ _ =>
    have hfits := h.evidenced.fits
    rcases hgate with ⟨hw, _⟩ | ⟨hw, _⟩
    · rw [hw, hs] at hfits
      cases hfits
    · rw [hw, hs] at hfits
      cases hfits
  | unfailed _ hr hg =>
    rcases hgate with ⟨hw, rfl⟩ | ⟨hw, rfl⟩
    · exact .returned hstage (hr.congr hresults) (hg hw)
    · have hsame : y.order.results = before.results := by
        rcases hr with hr | hr
        · exact hr
        · have hn : some WorkOrder.nativeReview = some review := hr.symm.trans hreview
          rw [← Option.some.inj hn, nativeReview_passed] at hnot
          cases hnot
      have hat : (y.order.recoverFailedReview config).atBacktest = true := by
        rw [WorkOrder.atBacktest_iff, hstage]
        exact .inl rfl
      have hstands : Gateway.retryable (y.order.recoverFailedReview config).status = true →
          Stands before (y.order.recoverFailedReview config) := by
        intro hq
        have hlive : (y.order.recoverFailedReview config).status ≠ .cancelled := by
          intro hc
          rw [hc] at hq
          cases hq
        refine ⟨hframe.agent.trans h.agent, h.approved, hq, ?_, hartifact.trans h.artifact, ?_,
          hev.staged hlive _ hstage rfl, .inl hat, fun _ _ _ => hat, hev.lastError⟩
        · rw [← h.approval]
          unfold WorkOrder.implementationApproval
          rw [hframe.approvals]
        · rw [hresults, hsame]
          exact .refl _
      rcases hstatus with hs | hs | hs
      · refine .unfailed (by rw [hs]; rfl) (.inl (hresults.trans hsame)) fun hw' => ?_
        rw [hs] at hw'
        cases hw'
      · exact .stands (hstands (by rw [hs]; rfl))
      · exact .stands (hstands (by rw [hs]; rfl))

theorem Recovered.recovery (h : Recovered before y.order)
    (hr : Recovery config outside allowed y z) : Recovered before z.order := by
  have hev := h.evidenced.recovery hr
  have hpassed := not_passedReviewDeadLetter_of_lastError h.evidenced.lastError
  obtain ⟨hagent, happroval, hartifact⟩ := recovery_frame hr hpassed
  refine ⟨hev, hagent.trans h.agent, h.approved, happroval.trans h.approval,
    hartifact.trans h.artifact, ?_⟩
  have hphase := h.recovering
  cases hr with
  | migrated =>
    refine hphase.of_same Stands.migrated ?_ ?_ ?_ <;>
    · dsimp only
      unfold WorkOrder.migrateOptimization
      split <;> rfl
  | interrupted =>
    by_cases hworking : y.order.status = .working
    · refine hphase.requeued (fun hs => absurd hworking hs.not_working) ?_ ?_
      · simp [WorkOrder.recoverInterrupted, hworking]
      · simp [WorkOrder.recoverInterrupted, hworking]
    · simpa [WorkOrder.recoverInterrupted, hworking] using hphase
  | optimizerStage hreg =>
    refine hphase.requeued (fun hs => absurd hreg.2.2.1 hs.stage_ne) ?_ ?_
    · simp [WorkOrder.recoverOptimizerStage, hreg]
    · simp [WorkOrder.recoverOptimizerStage, hreg]
  | passedReview => simpa [WorkOrder.recoverPassedReview, hpassed] using hphase
  | failedReview =>
    dsimp only at hev ⊢
    cases hf : y.order.failedReview with
    | none =>
      rw [recoverFailedReview_of_none config hf]
      exact hphase
    | some failed => exact h.failedReview hf hev
  | completedOptimize results hc =>
    obtain ⟨_, _, evidence, _, rfl⟩ := completedBacktest_eq_some hc
    exact .unfailed rfl (.inr rfl) fun hs => by cases hs
  | completedGate results record hc _ =>
    obtain ⟨_, _, evidence, _, rfl⟩ := completedBacktest_eq_some hc
    exact .unfailed rfl (.inr rfl) fun hs => by cases hs
  | cleared =>
    refine hphase.of_same Stands.cleared ?_ ?_ ?_ <;>
    · dsimp only
      unfold WorkOrder.clearTerminalRetry
      split <;> rfl

theorem recover_stands {g : Gateway} {x x' : Entry} (hx : x ∈ g.durable)
    (hx' : x' ∈ (g.recover config outside).durable) (hev : Evidenced x.order)
    (hf : FailsAtBacktest x.order x'.order) : Stands x.order x'.order := by
  have hself : x' ∉ g.durable := fun hmem => by
    have hafter := kept_quiet hx hf.id hf.before hmem
    rw [hf.after] at hafter
    cases hafter
  unfold Gateway.recover at hx'
  split at hx'
  case h_2 => exact absurd hx' hself
  case h_1 hw =>
    have hlinked : Linked (Recovery config outside fun _ => True) g.durable
        (g.durable.recover config outside).1 := recover_linked fun _ _ _ => trivial
    obtain ⟨w, hwm, hid, hchain⟩ := hlinked.back x' hx'
    rw [Durable.eq_of_mem hwm hx (hid.symm.trans hf.id)] at hchain
    have hstart : Recovered x.order x.order := by
      refine ⟨hev, hf.strategy, hf.approved, rfl, rfl, .unfailed hf.before (.inl rfl) ?_⟩
      intro hs
      have hfits := hev.fits
      rw [hs] at hfits
      exact hfits
    have hend : Recovered x.order x'.order := by
      clear hx' hid hself hf
      induction hchain with
      | refl => exact hstart
      | tail _ hr ih => exact ih.recovery hr
    cases hend.recovering with
    | unfailed hq _ _ =>
      rw [hf.after] at hq
      cases hq
    | stands hs => exact hs
    | returned hs _ hb =>
      rcases hf.stage with hat | hat
      · rw [WorkOrder.atBacktest_iff, hb] at hat
        rcases hat with hat | hat <;> cases hat
      · rw [WorkOrder.atBacktest_iff, hs] at hat
        rcases hat with hat | hat <;> cases hat

end Startup

section Steps

variable {config : RunnerConfig} {input : Input} {g : Gateway} {x x' : Entry}

theorem FailsAtBacktest.not_kept (hf : FailsAtBacktest x.order x'.order)
    (hworking : x.order.status = .working) (hev : Evidenced x.order) (hev' : Evidenced x'.order)
    (hempty : x'.order.Emptied) : ¬ KeptForRetry x.order x'.order := by
  apply not_keptForRetry_of_emptied hempty
  have himplemented : ∀ {order : WorkOrder}, order.atBacktest = true →
      order.status ≠ .cancelled → Evidenced order → order.results.Implemented := by
    intro order hat hne he
    rcases (WorkOrder.atBacktest_iff _).mp hat with hs | hs
    · exact he.staged hne _ hs rfl
    · exact he.staged hne _ hs rfl
  rcases hf.stage with hat | hat
  · exact himplemented hat (by rw [hworking]; decide) hev
  · have hlive : x'.order.status ≠ .cancelled := by
      intro hc
      have hafter := hf.after
      rw [hc] at hafter
      cases hafter
    have hlost := (himplemented hat hlive hev').strategy
    obtain ⟨reason, hr⟩ := hempty
    rw [hr] at hlost
    cases hlost

def Leaves (g : Gateway) (input : Input) (x x' : Entry) : Prop :=
  (g.FailsSoftly input x.order → Stands x.order x'.order) ∧
    (¬ g.FailsSoftly input x.order → ¬ KeptForRetry x.order x'.order)

theorem begin_leaves_failed (h : g.Evidenced) (hx : x ∈ g.durable)
    (hx' : x' ∈ (g.begin config input.outside).durable) (hev' : Evidenced x'.order)
    (hf : FailsAtBacktest x.order x'.order) : ¬ KeptForRetry x.order x'.order := by
  have hT := h.tracks
  unfold Gateway.begin at hx'
  split at hx'
  case h_1 order hw =>
    simp only [Gateway.Tracks, hw] at hT
    obtain ⟨w, hwm, rfl, hworking, hstage⟩ := hT
    have hspec := @begin_spec input.outside [] g.durable w hwm hworking hstage
    obtain ⟨rfl, hworked⟩ := proceed_worked hwm hx hspec hx' hf.id hf.before hf.after
    have hhard : ((Execution.ofClaimed w.order).begin input.outside g.durable).FailsHard
        w.order.id := begin_failsHard hx (.of_mem hx hf.before) rfl
    have hempty := proceed_emptied hx hspec hhard hx' hf.id hf.before hf.after
    exact hf.not_kept hworking (h.orders w hx) hev' hempty
  case h_2 =>
    have hquiet := kept_quiet hx hf.id hf.before hx'
    rw [hf.after] at hquiet
    cases hquiet

theorem raise_leaves_failed {failure : Failure} (hevent : input.event = .raise failure)
    (h : g.Evidenced) (hx : x ∈ g.durable)
    (hx' : x' ∈ (g.raise config input.outside failure).durable) (hev' : Evidenced x'.order)
    (hf : FailsAtBacktest x.order x'.order) : Leaves g input x x' := by
  have hT := h.tracks
  unfold Gateway.raise at hx'
  split at hx'
  case h_1 e on hw =>
    simp only [Gateway.Tracks, hw] at hT
    obtain ⟨w, hwm, hfollows, _⟩ := hT
    obtain ⟨y, hr, hstep⟩ := raise_spec config input.outside [] hwm hfollows failure
    obtain ⟨rfl, _⟩ := executed_eq hwm hx hr hstep hx' hf.id hf.before hf.after
    cases failure with
    | timeout =>
      refine ⟨fun _ => raise_timeout_stands hfollows hx hx' hev' hf, fun hnot => ?_⟩
      exact absurd (by simp [Gateway.FailsSoftly, hevent]) hnot
    | error typeName message =>
      refine ⟨fun hsoft => ?_, fun _ => ?_⟩
      · simp [Gateway.FailsSoftly, hevent] at hsoft
      · have hyears : ¬ (Failure.error typeName message).OutOfYears input.outside := by
          intro hyears
          obtain ⟨hkept, _⟩ := handle_outOfYears config hx hfollows.id hyears
          have heq := eq_of_fails hx hkept hx' hf.id hf.before hf.after
          have hbefore := hf.before
          rw [← heq, hf.after] at hbefore
          cases hbefore
        obtain ⟨y, hry, hy⟩ := @handle_error config input.outside e typeName message g.durable
          g.durable w (.self hx) hfollows.id hyears
        have heq := eq_of_fails hx hry hx' hf.id hf.before hf.after
        have hafter := hf.after
        rw [heq] at hafter
        refine hf.not_kept hfollows.working (h.orders w hx) hev' ?_
        rw [heq]
        exact hy hafter
  case h_2 =>
    have hquiet := kept_quiet hx hf.id hf.before hx'
    rw [hf.after] at hquiet
    cases hquiet

theorem acquisitionFailed_leaves_failed {detail : String}
    (hevent : input.event = .acquisitionFailed detail) (h : g.Evidenced) (hx : x ∈ g.durable)
    (hx' : x' ∈ (g.acquisitionFailed config input.outside detail).durable)
    (hev' : Evidenced x'.order) (hf : FailsAtBacktest x.order x'.order) : Leaves g input x x' := by
  have hT := h.tracks
  unfold Gateway.acquisitionFailed at hx'
  split at hx'
  case h_1 e hw =>
    simp only [Gateway.Tracks, hw] at hT
    obtain ⟨w, hwm, hfollows, hfits⟩ := hT
    obtain ⟨y, hr, hworked⟩ := acquisitionFailed_spec config input.outside [] hwm hfollows hfits
      detail
    obtain ⟨rfl, _⟩ := executed_eq hwm hx hr (.inr hworked) hx' hf.id hf.before hf.after
    have hkept := acquisitionFailed_kept_iff hfollows hx hx' hev' hf
    simp only [Leaves, Gateway.FailsSoftly, hevent]
    exact hkept
  case h_2 =>
    have hquiet := kept_quiet hx hf.id hf.before hx'
    rw [hf.after] at hquiet
    cases hquiet

theorem reply_leaves_failed {text : String} (hevent : input.event = .reply text)
    (h : g.Evidenced) (hx : x ∈ g.durable)
    (hx' : x' ∈ (g.reply config input.outside text).durable) (hev' : Evidenced x'.order)
    (hf : FailsAtBacktest x.order x'.order) : Leaves g input x x' := by
  have hT := h.tracks
  unfold Gateway.reply at hx'
  split at hx'
  case h_1 e on hw =>
    simp only [Gateway.Tracks, hw] at hT
    obtain ⟨w, hwm, hfollows, hfits⟩ := hT
    obtain ⟨turns, hspec⟩ := exists_resume_spec config input.outside text hwm hfollows hfits
    have hmem : x' ∈ (g.proceed config input.outside w.order.id
        (e.resume config input.outside on text g.durable)).durable := by
      rw [← hfollows.id]
      exact hx'
    obtain ⟨rfl, hworked⟩ := proceed_worked hwm hx hspec hmem hf.id hf.before hf.after
    have hunfailed : g.durable.Unfailed w.order.id := .of_mem hx hf.before
    have hhard : (e.resume config input.outside on text g.durable).FailsHard w.order.id →
        ¬ KeptForRetry w.order x'.order := fun hseg =>
      hf.not_kept hfollows.working (h.orders w hx) hev'
        (proceed_emptied hx hspec hseg hmem hf.id hf.before hf.after)
    cases on with
    | dataset =>
      have hseg : (e.resume config input.outside .dataset text g.durable).FailsHard w.order.id :=
        datasetReady_failsHard hx hunfailed hfollows.id
      refine ⟨fun hs => ?_, fun _ => hhard hseg⟩
      simp [Gateway.FailsSoftly, hevent, hw] at hs
    | turn turn =>
      have hstage := hfollows.stage_of_strategy hf.strategy
      cases turn with
      | strategy prior =>
        have he : e.stage = .strategy := hfits
        rw [he] at hstage
        exact absurd hf (hworked.not_failsAtBacktest hstage (by decide))
      | review stage handoff =>
        cases stage with
        | reviewImplementation =>
          have he : e.stage = .reviewImplementation := hfits.1
          rw [he] at hstage
          exact absurd hf (hworked.not_failsAtBacktest hstage (by decide))
        | reviewBacktest =>
          have hiff : g.FailsSoftly input w.order ↔
              (reviewOutcome text .reviewBacktest ≠ .pass ∨
                artifactRecord input.outside w.order = .error .timeout) := by
            simp [Gateway.FailsSoftly, hevent, hw]
          unfold Leaves
          rw [hiff]
          by_cases hpass : reviewOutcome text .reviewBacktest = .pass
          · refine ⟨fun hs => ?_, fun hn => hhard ?_⟩
            · exact recordTimeout_stands hx hfollows hfits.2 hpass
                (hs.resolve_left (not_not.mpr hpass)) hmem hev' hf
            · exact completeReview_failsHard hx hunfailed hfollows.id hpass
                fun hrecord => hn (.inr hrecord)
          · exact ⟨fun _ => sentBack_stands hx hfollows hpass hmem hev' hf,
              fun hn => absurd (.inl hpass) hn⟩
      | backtest handoff =>
        refine ⟨fun hs => ?_, fun _ => hhard (backtested_failsHard hx hunfailed hfollows.id)⟩
        simp [Gateway.FailsSoftly, hevent, hw] at hs
      | optimize handoff =>
        have he : e.stage = .optimize := hfits
        rw [he] at hstage
        exact absurd hf (hworked.not_failsAtBacktest hstage (by decide))
      | maintenance =>
        have he : e.stage = .maintenance := hfits
        rw [he] at hstage
        exact absurd hf (hworked.not_failsAtBacktest hstage (by decide))
  case h_2 =>
    have hquiet := kept_quiet hx hf.id hf.before hx'
    rw [hf.after] at hquiet
    cases hquiet

theorem step_leaves_failed (h : g.Evidenced) (hx : x ∈ g.durable)
    (hx' : x' ∈ (g.step config input).durable) (hf : FailsAtBacktest x.order x'.order) :
    Leaves g input x x' := by
  have hev' := (evidenced_step config input h).orders x' hx'
  by_cases hquiet : input.event.quiet = true
  · have hafter := quiet_step hquiet h.tracks hx hx' hf.id hf.before
    rw [hf.after] at hafter
    cases hafter
  · unfold Gateway.step at hx'
    cases hevent : input.event with
    | recover =>
      simp only [hevent] at hx'
      refine ⟨fun _ => recover_stands hx hx' (h.orders x hx) hf, fun hn => ?_⟩
      simp [Gateway.FailsSoftly, hevent] at hn
    | begin =>
      simp only [hevent] at hx'
      refine ⟨fun hs => ?_, fun _ => begin_leaves_failed h hx hx' hev' hf⟩
      simp [Gateway.FailsSoftly, hevent] at hs
    | reply text =>
      simp only [hevent] at hx'
      exact reply_leaves_failed hevent h hx hx' hev' hf
    | acquisitionFailed detail =>
      simp only [hevent] at hx'
      exact acquisitionFailed_leaves_failed hevent h hx hx' hev' hf
    | raise failure =>
      simp only [hevent] at hx'
      exact raise_leaves_failed hevent h hx hx' hev' hf
    | _ => simp [hevent, Event.quiet] at hquiet

end Steps

theorem kept_of_waiting {config : RunnerConfig} {g : Gateway} {x x' : Entry}
    (hx' : x' ∈ g.durable) (hf : FailsAtBacktest x.order x'.order)
    (h : ∀ later, (∀ initial, initial <+: later →
        (Run.run (Gateway.step config) g initial).Waits x.order.id) →
      ∀ y ∈ (Run.run (Gateway.step config) g later).durable, y.order.id = x.order.id →
        KeptForRetry x.order y.order) : KeptForRetry x.order x'.order := by
  refine h [] ?_ x' hx' hf.id
  intro initial hi y hy hid
  rw [List.prefix_nil.mp hi] at hy
  rw [Durable.eq_of_mem hy hx' (hid.trans hf.id.symm)]
  exact hf.after

/-- An order that fails behind its implementation gate keeps its evidence, and a retry with its
artifact resumes it at Backtest, exactly when the failure is a soft one. -/
theorem backtestFailure_kept_iff (config : RunnerConfig) (inputs : List Input) (input : Input)
    (x x' : Entry) (hx : x ∈ (Run.run (Gateway.step config) {} inputs).durable)
    (hx' : x' ∈ ((Run.run (Gateway.step config) {} inputs).step config input).durable)
    (hf : FailsAtBacktest x.order x'.order) :
    (∀ later, (∀ initial, initial <+: later →
        (Run.run (Gateway.step config)
          ((Run.run (Gateway.step config) {} inputs).step config input) initial).Waits
            x.order.id) →
      ∀ y ∈ (Run.run (Gateway.step config)
          ((Run.run (Gateway.step config) {} inputs).step config input) later).durable,
        y.order.id = x.order.id → KeptForRetry x.order y.order) ↔
      (Run.run (Gateway.step config) {} inputs).FailsSoftly input x.order := by
  have hev := evidenced_run config inputs
  obtain ⟨hsoft, hhard⟩ := step_leaves_failed hev hx hx' hf
  constructor
  · intro hkept
    by_contra hn
    exact hhard hn (kept_of_waiting hx' hf hkept)
  · intro hs later hwaits y hy hid
    have hT := (evidenced_step config input hev).tracks
    exact (stands_run hT hx' hf.id (hsoft hs) later hwaits y hy hid).kept

/-- A strategy whose implementation was approved, in its Backtest turn. -/
def backtesting : List Event :=
  [.create (.research .strategy true .create none false) "1", .start, .recover, .claim, .begin,
    .reply "implemented", .reply (completeReport "PASS" .reviewImplementation), .close,
    .approve "strategy-1" .implementation true "ok", .claim, .begin, .reply "dataset"]

def singleAttempt : RunnerConfig :=
  { defaultRunner with maxAttempts := 1, maxAttempts_pos := Nat.one_pos }

theorem exists_failure {g g' : Gateway} {identifier : String} (p : WorkOrder → WorkOrder → Bool)
    (h : ((g.durable.find identifier).bind fun order =>
      (g'.durable.find identifier).map fun next =>
        order.agent == .strategy && order.implementationApproved &&
          !Gateway.retryable order.status && Gateway.retryable next.status &&
          (order.atBacktest || next.atBacktest) && p order next) = some true) :
    ∃ x ∈ g.durable, ∃ x' ∈ g'.durable, FailsAtBacktest x.order x'.order ∧
      p x.order x'.order = true := by
  obtain ⟨order, horder, h⟩ := Option.bind_eq_some_iff.mp h
  obtain ⟨next, hnext, h⟩ := Option.map_eq_some_iff.mp h
  obtain ⟨hmem, hid⟩ := Durable.find_eq_some.mp horder
  obtain ⟨hmem', hid'⟩ := Durable.find_eq_some.mp hnext
  simp only [Bool.and_eq_true, Bool.or_eq_true, beq_iff_eq, Bool.not_eq_true'] at h
  obtain ⟨⟨⟨⟨⟨hagent, happroved⟩, hbefore⟩, hafter⟩, hstage⟩, hp⟩ := h
  exact ⟨⟨order, g.durable.artifacts.find order.id⟩, ⟨hmem, rfl⟩,
    ⟨next, g'.durable.artifacts.find next.id⟩, ⟨hmem', rfl⟩,
    ⟨hid'.trans hid.symm, hagent, happroved, hbefore, hafter, hstage⟩, hp⟩

/-- The turn of an order with one attempt times out: the order is dead-lettered with its evidence. -/
theorem backtestFailure_kept_of_timeout :
    ∃ x ∈ (Run.run (Gateway.step singleAttempt) {}
        (inputsOf { manifests := [alphaManifest] } backtesting)).durable,
      ∃ x' ∈ ((Run.run (Gateway.step singleAttempt) {}
        (inputsOf { manifests := [alphaManifest] } backtesting)).step singleAttempt
          { event := .raise .timeout }).durable,
        FailsAtBacktest x.order x'.order ∧ KeptForRetry x.order x'.order := by
  obtain ⟨x, hx, x', hx', hf, _⟩ := @exists_failure
    (Run.run (Gateway.step singleAttempt) {} (inputsOf { manifests := [alphaManifest] } backtesting))
    ((Run.run (Gateway.step singleAttempt) {} (inputsOf { manifests := [alphaManifest] }
      backtesting)).step singleAttempt { event := .raise .timeout })
    "strategy-1" (fun _ _ => true) (by decide +kernel)
  have hsoft := (backtestFailure_kept_iff singleAttempt
    (inputsOf { manifests := [alphaManifest] } backtesting) { event := .raise .timeout } x x' hx hx'
      hf).mpr (failsSoftly_of_timeout rfl)
  exact ⟨x, hx, x', hx', hf, kept_of_waiting hx' hf hsoft⟩

/-- The turn raises an exception: the order fails and its evidence is gone. -/
theorem backtestFailure_loses_evidence :
    ∃ x ∈ (Run.run (Gateway.step defaultRunner) {}
        (inputsOf { manifests := [alphaManifest] } backtesting)).durable,
      ∃ x' ∈ ((Run.run (Gateway.step defaultRunner) {}
        (inputsOf { manifests := [alphaManifest] } backtesting)).step defaultRunner
          { event := .raise (runtimeError "agent crashed") }).durable,
        FailsAtBacktest x.order x'.order ∧ ¬ KeptForRetry x.order x'.order := by
  obtain ⟨x, hx, x', hx', hf, hp⟩ := @exists_failure
    (Run.run (Gateway.step defaultRunner) {} (inputsOf { manifests := [alphaManifest] } backtesting))
    ((Run.run (Gateway.step defaultRunner) {} (inputsOf { manifests := [alphaManifest] }
      backtesting)).step defaultRunner { event := .raise (runtimeError "agent crashed") })
    "strategy-1"
    (fun order next => order.results.strategy.isSome && next.results.strategy.isNone)
    (by decide +kernel)
  refine ⟨x, hx, x', hx', hf, fun hkept => ?_⟩
  simp only [Bool.and_eq_true] at hp
  have hsame := congrArg Results.strategy hkept.results
  dsimp only at hsame
  rw [hsame] at hp
  rw [Option.isNone_iff_eq_none.mp hp.2] at hp
  cases hp.1

end ChainQuantStudio.Studio
