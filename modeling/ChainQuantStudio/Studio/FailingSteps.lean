import ChainQuantStudio.Studio.BacktestFailures

/-!
# Steps that fail an order

Which order a step fails and what it leaves of it: an exception empties the results, and a timeout
or a Review that did not pass requeues the order with what it has.
-/

namespace ChainQuantStudio.Studio

section Quiet

variable {config : RunnerConfig} {outside : Outside} {g : Gateway} {d' : Durable} {x x' y : Entry}

theorem kept_quiet {d : Durable} (hx : x ∈ d) (hid : x'.order.id = x.order.id)
    (hbefore : Gateway.retryable x.order.status = false) (hmem : x' ∈ d) :
    Gateway.retryable x'.order.status = false := by
  rw [Durable.eq_of_mem hmem hx hid]
  exact hbefore

theorem eq_of_fails (hx : x ∈ g.durable) (hr : Rewritten g.durable d' y) (hx' : x' ∈ d')
    (hid : x'.order.id = x.order.id) (hbefore : Gateway.retryable x.order.status = false)
    (hafter : Gateway.retryable x'.order.status = true) : x' = y := by
  rcases (hr x').mp hx' with heq | ⟨hmem, _⟩
  · exact heq
  · rw [kept_quiet hx hid hbefore hmem] at hafter
    cases hafter

theorem Requeue.apply_status_uncounted (config : RunnerConfig) {r : Requeue} (order : WorkOrder)
    (hcount : r.countAttempt = false) (haction : r.userAction = none) :
    (r.apply config order).status = .queued := by
  have hex : ¬ r.exhausted config order := by
    rintro ⟨hc, -⟩
    rw [hcount] at hc
    cases hc
  simp [Requeue.apply, hex, haction]

theorem cancelWorker_quiet (hT : g.Tracks) (hx : x ∈ g.durable)
    (hx' : x' ∈ (g.cancelWorker config outside).durable) (hid : x'.order.id = x.order.id)
    (hbefore : Gateway.retryable x.order.status = false) :
    Gateway.retryable x'.order.status = false := by
  by_contra hafter
  rw [Bool.not_eq_false] at hafter
  have hself : x' ∉ g.durable := fun hmem => by
    rw [kept_quiet hx hid hbefore hmem] at hafter
    cases hafter
  unfold Gateway.cancelWorker at hx'
  split at hx'
  case h_1 e on hw =>
    simp only [Gateway.Tracks, hw] at hT
    obtain ⟨w, hwm, hf, _⟩ := hT
    dsimp only at hx'
    unfold Execution.cancelled at hx'
    rw [hf.id] at hx'
    split at hx'
    · obtain ⟨record, hr, _⟩ := finish_spec outside hwm .cancelled .cancelled
        { e.results with error := some "Cancelled by Manager Agent" }
      rw [eq_of_fails hx hr hx' hid hbefore hafter] at hafter
      cases hafter
    · obtain ⟨hr, _⟩ := requeue_spec config hwm
        { stage := e.stage, results := e.results
          reason := "Gateway stopped while the work order was running", countAttempt := false }
      rw [eq_of_fails hx hr hx' hid hbefore hafter,
        Requeue.apply_status_uncounted config _ rfl rfl] at hafter
      cases hafter
  case h_2 => exact hself hx'
  case h_3 => exact hself hx'

theorem claim_quiet (now : ℤ) (hx : x ∈ g.durable) (hx' : x' ∈ (g.claim now).durable)
    (hid : x'.order.id = x.order.id) (hbefore : Gateway.retryable x.order.status = false) :
    Gateway.retryable x'.order.status = false := by
  have hself := kept_quiet hx hid hbefore
  unfold Gateway.claim at hx'
  split at hx'
  case h_1 =>
    split at hx'
    · exact hself hx'
    · dsimp only at hx'
      split at hx'
      · exact hself hx'
      · rename_i order hdue
        have hmem : order ∈ g.durable.store.workOrders := List.mem_of_find?_eq_some hdue
        have ho : (⟨order, g.durable.artifacts.find order.id⟩ : Entry) ∈ g.durable := ⟨hmem, rfl⟩
        have hr := Rewritten.modify ho (·.claimed) fun _ => rfl
        rcases (hr x').mp hx' with rfl | ⟨hmem, _⟩
        · rfl
        · exact hself hmem
  case h_2 => exact hself hx'

theorem cancel_quiet (identifier : Option String) (hT : g.Tracks) (hx : x ∈ g.durable)
    (hx' : x' ∈ (g.cancel config outside identifier).durable) (hid : x'.order.id = x.order.id)
    (hbefore : Gateway.retryable x.order.status = false) :
    Gateway.retryable x'.order.status = false := by
  rcases cancel_cases config outside g identifier with
    heq | ⟨w, _, _, ⟨_, heq⟩ | ⟨_, _, hr⟩⟩
  · rw [heq] at hx'
    exact kept_quiet hx hid hbefore hx'
  · rw [heq] at hx'
    have hT' : ({ g with cancelRequested := w.order.id :: g.cancelRequested } : Gateway).Tracks :=
      hT
    exact cancelWorker_quiet hT' hx hx' hid hbefore
  · rcases (hr x').mp hx' with rfl | ⟨hmem, _⟩
    · rfl
    · exact kept_quiet hx hid hbefore hmem

theorem stop_quiet (hT : g.Tracks) (hx : x ∈ g.durable)
    (hx' : x' ∈ (g.stop config outside).durable) (hid : x'.order.id = x.order.id)
    (hbefore : Gateway.retryable x.order.status = false) :
    Gateway.retryable x'.order.status = false := by
  have hself := kept_quiet hx hid hbefore
  unfold Gateway.stop at hx'
  split at hx'
  · exact hself hx'
  · exact hself hx'
  · exact hself hx'
  · exact cancelWorker_quiet hT hx hx' hid hbefore

def Event.quiet : Event → Bool
  | .begin | .reply _ | .acquisitionFailed _ | .raise _ | .recover => false
  | _ => true

theorem quiet_step {input : Input} (hquiet : input.event.quiet = true) (hT : g.Tracks)
    (hx : x ∈ g.durable) (hx' : x' ∈ (g.step config input).durable)
    (hid : x'.order.id = x.order.id) (hbefore : Gateway.retryable x.order.status = false) :
    Gateway.retryable x'.order.status = false := by
  have hself := kept_quiet hx hid hbefore
  unfold Gateway.step at hx'
  cases hevent : input.event with
  | recover => simp [hevent, Event.quiet] at hquiet
  | begin => simp [hevent, Event.quiet] at hquiet
  | reply text => simp [hevent, Event.quiet] at hquiet
  | acquisitionFailed detail => simp [hevent, Event.quiet] at hquiet
  | raise failure => simp [hevent, Event.quiet] at hquiet
  | create work stamp =>
    simp only [hevent] at hx'
    rcases create_back hx' with hmem | ⟨_, hfresh⟩
    · exact hself hmem
    · rw [hid, Durable.find_mem hx] at hfresh
      cases hfresh
  | start =>
    simp only [hevent, Gateway.start] at hx'
    split at hx' <;> exact hself hx'
  | claim =>
    simp only [hevent] at hx'
    exact claim_quiet _ hx hx' hid hbefore
  | close =>
    simp only [hevent, Gateway.close] at hx'
    split at hx' <;> exact hself hx'
  | cancel identifier =>
    simp only [hevent] at hx'
    exact cancel_quiet identifier hT hx hx' hid hbefore
  | stop =>
    simp only [hevent] at hx'
    exact stop_quiet hT hx hx' hid hbefore
  | crash =>
    simp only [hevent] at hx'
    exact hself hx'
  | resumeQuota identifier =>
    simp only [hevent, Gateway.resumeQuota] at hx'
    split at hx'
    · exact hself hx'
    · have hmapped : x' ∈ g.durable.onStore
          (·.mapOrders (·.quotaResumed identifier) (by simp)) := hx'
      obtain ⟨w, hwm, rfl⟩ := Durable.mem_mapOrders.mp hmapped
      rw [WorkOrder.quotaResumed_id] at hid
      rw [Durable.eq_of_mem hwm hx hid]
      dsimp only
      unfold WorkOrder.quotaResumed
      split <;> exact hbefore
  | approve identifier gate approved note =>
    simp only [hevent] at hx'
    rcases approve_rewritten g identifier gate approved note with
      heq | ⟨w, _, _, next, hnext, hr⟩
    · rw [heq] at hx'
      exact hself hx'
    · rcases (hr x').mp hx' with rfl | ⟨hmem, _⟩
      · rcases w.order.approval_status hnext with hs | hs | hs | hs | hs <;> (rw [hs]; rfl)
      · exact hself hmem
  | retry identifier artifactId artifactVersion reason =>
    simp only [hevent] at hx'
    rcases retry_rewritten g input.outside identifier artifactId artifactVersion reason with
      heq | ⟨w, _, _, _, hr⟩
    · rw [heq] at hx'
      exact hself hx'
    · rcases (hr x').mp hx' with rfl | ⟨hmem, _⟩
      · rfl
      · exact hself hmem

end Quiet

section Fails

variable {config : RunnerConfig} {outside : Outside} {turns : List AgentTurn} {g : Gateway}
  {d : Durable} {x x' : Entry} {e : Execution} {identifier : String}

def WorkOrder.Emptied (order : WorkOrder) : Prop :=
  ∃ reason, order.results = { error := some reason }

theorem not_keptForRetry_of_emptied {before after : WorkOrder} (h : after.Emptied)
    (hb : before.results.Implemented) : ¬ KeptForRetry before after := by
  rintro ⟨hkeeps, -⟩
  obtain ⟨reason, hr⟩ := h
  have hs := congrArg Results.strategy hkeeps
  rw [hr] at hs
  have hsome := hb.strategy
  dsimp only at hs
  rw [← hs] at hsome
  cases hsome

def Durable.Unfailed (identifier : String) (d : Durable) : Prop :=
  ∀ order, d.find identifier = some order → Gateway.retryable order.status = false

def Segment.FailsHard (identifier : String) : Segment → Prop
  | .awaiting d _ _ => d.Unfailed identifier
  | .returned d => d.Unfailed identifier
  | .raised _ e failure => e.order.id = identifier ∧ failure ≠ .timeout

theorem Durable.Unfailed.of_mem (hx : x ∈ d) (h : Gateway.retryable x.order.status = false) :
    d.Unfailed x.order.id := by
  intro order horder
  rw [Durable.find_mem hx] at horder
  rw [← Option.some.inj horder]
  exact h

theorem handle_error {typeName message : String} {d d' : Durable} {x₁ : Entry}
    (hr : Rewritten d d' x₁) (hid : e.order.id = x₁.order.id)
    (hyears : ¬ (Failure.error typeName message).OutOfYears outside) :
    ∃ y, Rewritten d (e.handle config outside (.error typeName message) d').1 y ∧
      (Gateway.retryable y.order.status = true → y.order.Emptied) := by
  have hhandled := handle_handled config d' e hyears
  generalize e.handle config outside (.error typeName message) d' = written at hhandled ⊢
  cases hhandled with
  | quota _ _ retryAt =>
    rw [hid]
    have hopen : Rewritten d (d'.openCircuit (typeName ++ ": " ++ message) retryAt) x₁ :=
      hr.congr rfl rfl
    obtain ⟨hq, _⟩ := requeue_spec config hopen.mem _
    refine ⟨_, hopen.trans hq (by simp), fun hw => ?_⟩
    rw [Requeue.apply_status_uncounted config _ rfl rfl] at hw
    cases hw
  | failed =>
    rw [hid]
    obtain ⟨record, hf, _⟩ := finish_spec outside hr.mem .failed .failed _
    exact ⟨_, hr.trans hf rfl, fun _ => ⟨_, rfl⟩⟩

theorem proceed_emptied {seg : Segment} (hx : x ∈ g.durable)
    (hseg : seg.Spec turns g.durable x) (hhard : seg.FailsHard x.order.id)
    (hx' : x' ∈ (g.proceed config outside x.order.id seg).durable)
    (hid : x'.order.id = x.order.id) (hbefore : Gateway.retryable x.order.status = false)
    (hafter : Gateway.retryable x'.order.status = true) : x'.order.Emptied := by
  have hfind : ∀ {d' : Durable}, x' ∈ d' → d'.Unfailed x.order.id → x'.order.Emptied := by
    intro d' hmem hun
    rw [hun x'.order (by rw [← hid]; exact Durable.find_mem hmem)] at hafter
    cases hafter
  cases seg with
  | awaiting d e on => exact hfind hx' hhard
  | returned d => exact hfind hx' hhard
  | raised d e failure =>
    obtain ⟨x₁, hr, hi, hunnamed⟩ := hseg
    obtain ⟨_, hfailure⟩ := hhard
    cases failure with
    | timeout => exact absurd rfl hfailure
    | error typeName message =>
      obtain ⟨y, hry, hy⟩ :=
        @handle_error config outside e typeName message g.durable d x₁ hr
          (hi.id.trans hi.frame.id.symm) (hunnamed.not_outOfYears outside)
      have heq := eq_of_fails hx hry hx' hid hbefore hafter
      rw [heq] at hafter ⊢
      exact hy hafter

theorem dispatch_failsHard (h : d.Unfailed identifier) (hid : e.order.id = identifier) :
    (Execution.dispatch d e).FailsHard identifier := by
  unfold Execution.dispatch
  split
  case h_1 => exact h
  case h_2 =>
    split
    · exact ⟨hid, nofun⟩
    · exact h
  case h_3 =>
    split
    · exact ⟨hid, nofun⟩
    · exact h
  case h_4 =>
    split
    · exact ⟨hid, nofun⟩
    · exact h
  case h_5 =>
    unfold Execution.runOptimization
    split
    · exact h
    · exact ⟨hid, nofun⟩
  case h_6 => exact ⟨hid, nofun⟩

theorem Durable.Unfailed.checkpoint (h : d.Unfailed identifier) (outside : Outside)
    (stage : Stage) (results : Results) (artifactId artifactVersion : Option String) :
    (d.checkpoint outside identifier stage results artifactId artifactVersion).1.Unfailed
      identifier := by
  intro order horder
  rw [find_checkpoint] at horder
  obtain ⟨before, hbefore, rfl⟩ := Option.map_eq_some_iff.mp horder
  exact h before hbefore

theorem checkpoint_ok (outside : Outside) (hx : x ∈ d) (stage : Stage)
    (hstage : stage ≠ .reviewImplementation) (results : Results) :
    (d.checkpoint outside x.order.id stage results none none).2 = none := by
  obtain ⟨_, _, _, hsame, _⟩ := checkpoint_spec outside hx stage results none none
  exact (hsame hstage).2

theorem datasetReady_failsHard (hx : x ∈ d) (h : d.Unfailed x.order.id)
    (hid : e.order.id = x.order.id) : (e.datasetReady outside d).FailsHard x.order.id := by
  have hc := h.checkpoint outside .backtest e.results none none
  have hok := checkpoint_ok outside hx .backtest (by decide) e.results
  unfold Execution.datasetReady
  rw [hid]
  split
  case h_1 d' failure hw =>
    rw [hw] at hok
    cases hok
  case h_2 d' hw =>
    rw [hw] at hc
    exact dispatch_failsHard hc hid

theorem begin_failsHard (hx : x ∈ d) (h : d.Unfailed x.order.id)
    (hid : e.order.id = x.order.id) : (e.begin outside d).FailsHard x.order.id := by
  unfold Execution.begin
  split
  · exact h
  · split
    · exact h
    · split
      · exact datasetReady_failsHard hx h hid
      · exact dispatch_failsHard h hid

theorem backtested_failsHard {handoff text : String} (hx : x ∈ d) (h : d.Unfailed x.order.id)
    (hid : e.order.id = x.order.id) :
    (e.resume config outside (.turn (.backtest handoff)) text d).FailsHard x.order.id := by
  have hc := h.checkpoint outside .reviewBacktest { e.results with backtest := some text }
    none none
  have hok := checkpoint_ok outside hx .reviewBacktest (by decide)
    { e.results with backtest := some text }
  simp only [Execution.resume]
  rw [hid]
  split
  case h_1 d' failure hw =>
    rw [hw] at hok
    cases hok
  case h_2 d' hw =>
    rw [hw] at hc
    exact hc

theorem completeReview_failsHard {report : String} (hx : x ∈ d)
    (h : d.Unfailed x.order.id) (hid : e.order.id = x.order.id)
    (hpass : reviewOutcome report .reviewBacktest = .pass)
    (hrecord : artifactRecord outside x.order ≠ .error .timeout) :
    (Execution.completeReview config outside .reviewBacktest report d e).FailsHard
      x.order.id := by
  unfold Execution.completeReview
  rw [hpass]
  dsimp only
  rw [hid, Durable.find_mem hx]
  dsimp only
  split
  · have hc := h.checkpoint outside .optimize e.results none none
    have hok := checkpoint_ok outside hx .optimize (by decide) e.results
    split
    case h_1 d' failure hw =>
      rw [hw] at hok
      cases hok
    case h_2 d' hw =>
      rw [hw] at hc
      unfold Execution.runOptimization
      split
      · exact hc
      · exact ⟨hid, nofun⟩
  · have hfinished : (d.finish outside x.order.id .awaitingBacktestApproval .backtestApproval
        e.results).1.Unfailed x.order.id := by
      intro order horder
      rw [find_finish] at horder
      obtain ⟨before, _, rfl⟩ := Option.map_eq_some_iff.mp horder
      rfl
    cases hw : d.finish outside x.order.id .awaitingBacktestApproval .backtestApproval
        e.results with
    | mk d' raised =>
      cases raised with
      | none =>
        rw [hw] at hfinished
        exact hfinished
      | some failure =>
        refine ⟨hid, ?_⟩
        rintro rfl
        have hraised := finish_raised outside d .awaitingBacktestApproval .backtestApproval
          e.results (Durable.find_mem hx)
        rw [hw] at hraised
        cases hrec : artifactRecord outside x.order with
        | error failure =>
          rw [hrec] at hraised
          rw [hrec, ← Option.some.inj hraised] at hrecord
          exact hrecord rfl
        | ok record =>
          rw [hrec] at hraised
          cases hraised

theorem Outcome.not_atBacktest {s s' : Stage} {r r' : Results} {status : Status}
    (h : Outcome turns identifier s r status s' r') (hstatus : Gateway.retryable status = true)
    (hs : s ≠ .dataset ∧ s ≠ .backtest ∧ s ≠ .reviewBacktest) :
    s' ≠ .backtest ∧ s' ≠ .reviewBacktest := by
  cases h with
  | sentBack _ _ hback =>
    cases hback with
    | same => exact hs.2
    | maintenance => exact ⟨nofun, nofun⟩
    | dataset => exact ⟨nofun, nofun⟩
    | prepared _ _ hp =>
      rcases hp with hp | hp
      · exact absurd hp hs.1
      · exact absurd hp hs.2.1
    | implemented => exact ⟨nofun, nofun⟩
    | unreviewed => exact hs.2
    | rejected stage =>
      cases stage with
      | reviewImplementation => exact ⟨nofun, nofun⟩
      | reviewBacktest => exact absurd rfl hs.2.2
    | optimized => exact ⟨nofun, nofun⟩
  | failed => exact ⟨nofun, nofun⟩
  | prepared => cases hstatus
  | implemented => cases hstatus
  | backtested => cases hstatus
  | optimizing => cases hstatus
  | implementationGate => cases hstatus
  | backtestGate => cases hstatus
  | optimizationGate => cases hstatus
  | cancelled => cases hstatus

theorem executed_eq {d' : Durable} {w y : Entry} (hwm : w ∈ g.durable) (hx : x ∈ g.durable)
    (hr : Rewritten g.durable d' y) (hy : y = w ∨ Worked turns w y) (hx' : x' ∈ d')
    (hid : x'.order.id = x.order.id) (hbefore : Gateway.retryable x.order.status = false)
    (hafter : Gateway.retryable x'.order.status = true) : w = x ∧ Worked turns x x' := by
  have heq := eq_of_fails hx hr hx' hid hbefore hafter
  rcases hy with rfl | hw
  · rw [heq] at hid hafter
    rw [Durable.eq_of_mem hwm hx hid, hbefore] at hafter
    cases hafter
  · rw [heq] at hid ⊢
    have hwx := Durable.eq_of_mem hwm hx (hw.frame.id.symm.trans hid)
    subst hwx
    exact ⟨rfl, hw⟩

theorem proceed_worked {seg : Segment} {w : Entry} (hwm : w ∈ g.durable) (hx : x ∈ g.durable)
    (hseg : seg.Spec turns g.durable w)
    (hx' : x' ∈ (g.proceed config outside w.order.id seg).durable)
    (hid : x'.order.id = x.order.id) (hbefore : Gateway.retryable x.order.status = false)
    (hafter : Gateway.retryable x'.order.status = true) : w = x ∧ Worked turns x x' := by
  cases seg with
  | awaiting d e on =>
    obtain ⟨y, hr, hy, _⟩ := hseg
    exact executed_eq hwm hx hr hy hx' hid hbefore hafter
  | returned d =>
    obtain ⟨y, hr, hy⟩ := hseg
    exact executed_eq hwm hx hr hy hx' hid hbefore hafter
  | raised d e failure =>
    obtain ⟨x₁, hr, hi, hunnamed⟩ := hseg
    obtain ⟨y, hry, hw⟩ := handle_spec config turns hr hi (hunnamed.not_outOfYears outside)
    exact executed_eq hwm hx hry (.inr hw) hx' hid hbefore hafter

theorem Worked.not_failsAtBacktest {s : Stage} (hw : Worked turns x x')
    (hs : x.order.stage = some s) (hne : s ≠ .dataset ∧ s ≠ .backtest ∧ s ≠ .reviewBacktest) :
    ¬ FailsAtBacktest x.order x'.order := by
  intro hf
  obtain ⟨t, t', ht, ht', hout⟩ := hw.outcome
  rw [hs] at ht
  obtain rfl := Option.some.inj ht
  obtain ⟨hb, hr⟩ := hout.not_atBacktest hf.after hne
  rcases hf.stage with hat | hat
  · rw [WorkOrder.atBacktest_iff, hs] at hat
    rcases hat with hat | hat
    · exact hne.2.1 (Option.some.inj hat)
    · exact hne.2.2 (Option.some.inj hat)
  · rw [WorkOrder.atBacktest_iff, ht'] at hat
    rcases hat with hat | hat
    · exact hb (Option.some.inj hat)
    · exact hr (Option.some.inj hat)

theorem FailsAtBacktest.stands (h : FailsAtBacktest x.order x'.order) (hev : Evidenced x'.order)
    (hframe : Frame x.order x'.order) (hartifact : x'.order.artifact = x.order.artifact)
    (hkeeps : x.order.results.Keeps x'.order.results)
    (hstage : x'.order.atBacktest = true ∨ x'.order.stage = some .dataset)
    (hbound : ∀ artifactId artifactVersion,
      x.order.artifact = (some artifactId, some artifactVersion) → x'.order.atBacktest = true) :
    Stands x.order x'.order := by
  have hlive : x'.order.status ≠ .cancelled := by
    intro hc
    have hafter := h.after
    rw [hc] at hafter
    cases hafter
  have himplemented : x'.order.results.Implemented := by
    rcases hstage with hat | hd
    · rcases (WorkOrder.atBacktest_iff _).mp hat with hs | hs
      · exact hev.staged hlive _ hs rfl
      · exact hev.staged hlive _ hs rfl
    · exact hev.staged hlive _ hd rfl
  have happroval : x'.order.implementationApproval = x.order.implementationApproval := by
    unfold WorkOrder.implementationApproval
    rw [hframe.approvals]
  exact ⟨hframe.agent.trans h.strategy, h.approved, h.after, happroval, hartifact, hkeeps,
    himplemented, hstage, hbound, hev.lastError⟩

theorem Follows.stage_of_strategy {order : WorkOrder} (h : Follows e order)
    (hagent : order.agent = .strategy) : order.stage = some e.stage := by
  rcases h.stage with hs | ⟨_, hm, _⟩
  · exact hs
  · rw [hagent] at hm
    cases hm

theorem WorkOrder.atBacktest_congr {order next : WorkOrder} (h : next.stage = order.stage) :
    next.atBacktest = order.atBacktest := by
  simp only [atBacktest, h]

theorem acquisitionFailed_kept_iff {detail : String} (hfollows : Follows e x.order)
    (hx : x ∈ g.durable)
    (hx' : x' ∈
      (g.closing e.order.id (e.acquisitionFailed config outside detail g.durable)).durable)
    (hev : Evidenced x'.order) (hf : FailsAtBacktest x.order x'.order) :
    (x.order.artifactId = none ∨ x.order.artifactVersion = none → Stands x.order x'.order) ∧
      (¬ (x.order.artifactId = none ∨ x.order.artifactVersion = none) →
        ¬ KeptForRetry x.order x'.order) := by
  have hmem : x' ∈ (e.acquisitionFailed config outside detail g.durable).1 := hx'
  unfold Execution.acquisitionFailed at hmem
  rw [hfollows.id] at hmem
  obtain ⟨hr, _⟩ := requeue_spec config hx
    { stage := .dataset, results := e.results
      reason := "public Binance archive acquisition failed: " ++ detail
      retryNotBefore := some (outside.now + 300 * 1000000) }
  have heq := eq_of_fails hx hr hmem hf.id hf.before hf.after
  have hframe : Frame x.order x'.order := by
    rw [heq]
    exact .requeued _ _
  have hstage : x'.order.stage = some .dataset := by rw [heq, Requeue.apply_stage]
  constructor
  · intro hunbound
    refine hf.stands hev hframe ?_ ?_ (.inr hstage) ?_
    · rw [heq, Requeue.apply_artifact]
    · rw [heq, Requeue.apply_results, hfollows.results]
      exact .refl _
    · intro artifactId artifactVersion hbound
      obtain ⟨hid, hversion⟩ := Prod.mk.inj hbound
      rcases hunbound with h | h
      · rw [h] at hid
        cases hid
      · rw [h] at hversion
        cases hversion
  · rw [not_or]
    rintro ⟨hid, hversion⟩ hkept
    obtain ⟨artifactId, hid⟩ := Option.ne_none_iff_exists'.mp hid
    obtain ⟨artifactVersion, hversion⟩ := Option.ne_none_iff_exists'.mp hversion
    have hbound : x.order.artifact = (some artifactId, some artifactVersion) := by
      rw [← hid, ← hversion]
      rfl
    obtain ⟨_, hback, _⟩ := hkept.resumes artifactId artifactVersion "" hbound
    have hnot : x'.order.atBacktest = false := by
      simp [WorkOrder.atBacktest, hstage]
    have hstrategy := retried_stage_of_not_atBacktest hnot (hframe.agent.trans hf.strategy)
      artifactId artifactVersion ""
    rw [hstrategy] at hback
    cases hback

theorem completeReview_sentBack {report : String}
    (h : reviewOutcome report .reviewBacktest ≠ .pass) :
    ∃ r : Requeue, Execution.completeReview config outside .reviewBacktest report d e =
        Segment.ofWrite e (d.requeue config e.order.id r) ∧
      r.results = e.results ∧ (r.stage = .backtest ∨ r.stage = .reviewBacktest) := by
  unfold Execution.completeReview
  cases hout : reviewOutcome report .reviewBacktest with
  | pass => exact absurd hout h
  | incomplete => exact ⟨_, rfl, rfl, .inr rfl⟩
  | fail => exact ⟨_, rfl, rfl, .inl rfl⟩
  | blocked => exact ⟨_, rfl, rfl, .inl rfl⟩

theorem requeue_stands {d' : Durable} {x₁ : Entry} {r : Requeue} (hx : x ∈ g.durable)
    (hr₁ : Rewritten g.durable d' x₁) (hframe : Frame x.order x₁.order)
    (hartifact : x₁.order.artifact = x.order.artifact)
    (hkeeps : x.order.results.Keeps r.results)
    (hstage : r.stage = .backtest ∨ r.stage = .reviewBacktest)
    (hx' : x' ∈ (d'.requeue config x.order.id r).1) (hev : Evidenced x'.order)
    (hf : FailsAtBacktest x.order x'.order) : Stands x.order x'.order := by
  rw [← hframe.id] at hx'
  obtain ⟨hr, _⟩ := requeue_spec config hr₁.mem r
  have heq := eq_of_fails hx (hr₁.trans hr (by simp)) hx' hf.id hf.before hf.after
  have hat : x'.order.atBacktest = true := by
    rw [WorkOrder.atBacktest_iff, heq, Requeue.apply_stage]
    rcases hstage with h | h
    · exact .inl (by rw [h])
    · exact .inr (by rw [h])
  refine hf.stands hev ?_ ?_ ?_ (.inl hat) fun _ _ _ => hat
  · rw [heq]
    exact hframe.trans (.requeued _ _)
  · rw [heq, Requeue.apply_artifact, hartifact]
  · rw [heq, Requeue.apply_results]
    exact hkeeps

theorem raise_timeout_stands (hfollows : Follows e x.order) (hx : x ∈ g.durable)
    (hx' : x' ∈ (g.closing e.order.id (e.handle config outside .timeout g.durable)).durable)
    (hev : Evidenced x'.order) (hf : FailsAtBacktest x.order x'.order) :
    Stands x.order x'.order := by
  have hmem : x' ∈ (e.handle config outside .timeout g.durable).1 := hx'
  unfold Execution.handle at hmem
  dsimp only at hmem
  rw [hfollows.id] at hmem
  have hstage := hfollows.stage_of_strategy hf.strategy
  obtain ⟨hr, _⟩ := requeue_spec config hx
    { stage := e.stage, results := e.results
      reason := "Codex " ++ e.stage.value ++ " turn exceeded " ++ config.turnTimeout ++
        " seconds" }
  have heq := eq_of_fails hx hr hmem hf.id hf.before hf.after
  have hsame : x'.order.stage = x.order.stage := by
    rw [heq, Requeue.apply_stage, hstage]
  have hat : x.order.atBacktest = true := by
    rcases hf.stage with h | h
    · exact h
    · rw [← WorkOrder.atBacktest_congr hsame]
      exact h
  rw [WorkOrder.atBacktest_iff, hstage] at hat
  refine requeue_stands hx (.self hx) (.refl _) rfl ?_ ?_ hmem hev hf
  · rw [hfollows.results]
    exact .refl _
  · rcases hat with h | h
    · exact .inl (Option.some.inj h)
    · exact .inr (Option.some.inj h)

def Execution.reviewed (e : Execution) (report : String) : Execution :=
  { e with stage := .reviewBacktest, results := e.results.setReview report .reviewBacktest }

theorem sentBack_stands {report : String} (hx : x ∈ g.durable) (hfollows : Follows e x.order)
    (hout : reviewOutcome report .reviewBacktest ≠ .pass)
    (hx' : x' ∈ (g.proceed config outside x.order.id
      (Execution.completeReview config outside .reviewBacktest report g.durable
        (e.reviewed report))).durable)
    (hev : Evidenced x'.order) (hf : FailsAtBacktest x.order x'.order) :
    Stands x.order x'.order := by
  obtain ⟨r, hseg, hrr, hrs⟩ :=
    @completeReview_sentBack config outside g.durable (e.reviewed report) report hout
  have hid : (e.reviewed report).order.id = x.order.id := hfollows.id
  have hpair : g.durable.requeue config x.order.id r =
      ((g.durable.requeue config x.order.id r).1, none) :=
    Prod.ext rfl (requeue_spec config hx r).2
  rw [hseg, hid, hpair] at hx'
  refine requeue_stands hx (.self hx) (.refl _) rfl ?_ hrs hx' hev hf
  rw [hrr]
  simp only [Execution.reviewed, hfollows.results]
  exact .setReview _ _

theorem recordTimeout_stands {report handoff : String} (hx : x ∈ g.durable)
    (hfollows : Follows e x.order) (hback : e.results.backtest = some handoff)
    (hpass : reviewOutcome report .reviewBacktest = .pass)
    (hrecord : artifactRecord outside x.order = .error .timeout)
    (hx' : x' ∈ (g.proceed config outside x.order.id
      (Execution.completeReview config outside .reviewBacktest report g.durable
        (e.reviewed report))).durable)
    (hev : Evidenced x'.order) (hf : FailsAtBacktest x.order x'.order) :
    Stands x.order x'.order := by
  have hid : (e.reviewed report).order.id = x.order.id := hfollows.id
  have hunfailed : g.durable.Unfailed x.order.id := .of_mem hx hf.before
  unfold Execution.completeReview at hx'
  rw [hpass] at hx'
  dsimp only at hx'
  rw [hid, Durable.find_mem hx] at hx'
  dsimp only at hx'
  split at hx'
  case isTrue =>
    -- the checkpoint goes through and the optimizer's turn is awaited
    have hc := hunfailed.checkpoint outside .optimize (e.reviewed report).results none none
    have hpair : g.durable.checkpoint outside x.order.id .optimize (e.reviewed report).results
        none none = ((g.durable.checkpoint outside x.order.id .optimize
          (e.reviewed report).results none none).1, none) :=
      Prod.ext rfl (checkpoint_ok outside hx .optimize (by decide) _)
    rw [hpair] at hx'
    generalize (g.durable.checkpoint outside x.order.id .optimize (e.reviewed report).results none
      none).1 = d' at hx' hc
    simp only [Execution.runOptimization, Execution.reviewed, Results.setReview, hback] at hx'
    have hmem : x' ∈ d' := hx'
    have hafter := hc x'.order (by rw [← hf.id]; exact Durable.find_mem hmem)
    rw [hf.after] at hafter
    cases hafter
  case isFalse =>
    obtain ⟨record, hr, _⟩ := finish_spec outside hx .awaitingBacktestApproval .backtestApproval
      (e.reviewed report).results
    have hraised := finish_raised outside g.durable .awaitingBacktestApproval .backtestApproval
      (e.reviewed report).results (Durable.find_mem hx)
    rw [hrecord] at hraised
    have hpair : g.durable.finish outside x.order.id .awaitingBacktestApproval .backtestApproval
        (e.reviewed report).results = ((g.durable.finish outside x.order.id
          .awaitingBacktestApproval .backtestApproval (e.reviewed report).results).1,
            some .timeout) := Prod.ext rfl hraised
    rw [hpair] at hx'
    have hmem : x' ∈ ((e.reviewed report).handle config outside .timeout
        (g.durable.finish outside x.order.id .awaitingBacktestApproval .backtestApproval
          (e.reviewed report).results).1).1 := hx'
    unfold Execution.handle at hmem
    dsimp only at hmem
    rw [hid] at hmem
    refine requeue_stands hx hr (.finished _ _ _ _) rfl ?_ (.inr rfl) hmem hev hf
    simp only [Execution.reviewed, hfollows.results]
    exact .setReview _ _

end Fails

end ChainQuantStudio.Studio
