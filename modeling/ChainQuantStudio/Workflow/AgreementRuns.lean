import ChainQuantStudio.Workflow.GatewayAgreement

/-!
# Runs of the studio and the gateway together

Every step of the two keeps them in agreement, from a new project and its new order on.
-/

namespace ChainQuantStudio.Workflow

open Studio (Gateway Worker WorkOrder Execution Await Turn Stage Status Approval ApprovalGate
  RunnerConfig Outside Durable ReviewStage reviewOutcome)

section Calls

variable {clock : ℕ → ClockReading} {validate : BacktestEvidence → Option String}

theorem call_refused (haware : ∀ n, (clock n).aware = true) {studio : QuantStudio}
    {projectId : String} {operation : Operation} {project : StudioProject}
    (hfound : studio.project? projectId = some project)
    (hrefuses : ¬ operation.Accepts validate project) :
    (studio.call clock validate (.perform projectId operation)).2 ≠ none ∧
      (studio.call clock validate (.perform projectId operation)).1 = studio := by
  have heffect : Effect validate studio (.perform projectId operation)
      (studio.call clock validate (.perform projectId operation)) :=
    call_effect haware studio _
  generalize studio.call clock validate (.perform projectId operation) = result at heffect ⊢
  cases heffect with
  | raised _ error => exact ⟨by simp, rfl⟩
  | logged hrequest hprojects => exact absurd rfl (hrequest projectId operation)
  | performed _ _ hfound' haccepts hprojects =>
    rw [hfound] at hfound'
    exact absurd (Option.some.inj hfound' ▸ haccepts) hrefuses

theorem decision_accepts {project : StudioProject} (gate : ApprovalGate) (approved : Bool)
    (note : String) :
    (decision gate approved note).Accepts validate project ↔
      project.stage = gateStage gate ∧ blank note = false := by
  cases gate <;> exact Iff.rfl

end Calls

section Phases

variable {project : StudioProject} {order : WorkOrder} {worker : Worker}

theorem Phase.idle (h : Phase project order worker) (hworker : Resting worker) :
    Phase project order .idle := by
  cases h with
  | queued _ hstatus hstage hproject hprepared =>
    exact .queued trivial hstatus hstage hproject hprepared
  | claimed => exact hworker.elim
  | running => exact hworker.elim
  | waiting gate _ hstatus hstage hproject hgate =>
    exact .waiting gate trivial hstatus hstage hproject hgate
  | approved _ hstatus hstage hproject => exact .approved trivial hstatus hstage hproject

theorem Phase.rests {gate : ApprovalGate} (h : Phase project order worker)
    (hstatus : order.status = gate.expected) : Resting worker ∧ AtGate order gate := by
  cases h with
  | queued _ hqueued =>
    rw [hqueued] at hstatus
    cases gate <;> cases hstatus
  | claimed hworking =>
    rw [hworking] at hstatus
    cases gate <;> cases hstatus
  | running hfollows =>
    rw [hfollows.working] at hstatus
    cases gate <;> cases hstatus
  | waiting gate' hworker hwaiting _ _ hgate =>
    obtain rfl := expected_injective (hwaiting.symm.trans hstatus)
    exact ⟨hworker, hgate⟩
  | approved _ happroved =>
    rw [happroved] at hstatus
    cases gate <;> cases hstatus

theorem decided_agrees {gate : ApprovalGate} {validate : BacktestEvidence → Option String}
    (hmatches : Matches project order) (h : Phase project order worker)
    (hstatus : order.status = gate.expected) (approved : Bool) (note : String) :
    Decided order worker gate approved note
      (((decision gate approved note).handler validate).change project) := by
  obtain ⟨hworker, hgate⟩ := h.rests hstatus
  cases gate with
  | implementation => exact implementation_decided hmatches hworker hstatus hgate
  | optimization => exact optimization_decided hmatches hworker hstatus hgate
  | backtest => exact backtest_decided hmatches hworker hstatus hgate
  | live => exact live_decided hmatches hworker hstatus hgate

end Phases

section Steps

variable {clock : ℕ → ClockReading} {validate : BacktestEvidence → Option String}
  {config : RunnerConfig} {projectId identifier : String} {studio : QuantStudio} {g : Gateway}
  {project : StudioProject} {order : WorkOrder}

theorem SegmentAgrees.proceed {outside : Outside} {segment : Studio.Segment}
    (h : SegmentAgrees identifier project segment)
    (hproject : studio.project? projectId = some project) (g : Gateway)
    (history : Studio.History) :
    ∃ order, Agrees projectId identifier
      ⟨studio, { g.proceed config outside identifier segment with history := history }⟩ project
      order := by
  cases h with
  | awaiting order hholds hid hsame hphase => exact ⟨order, hproject, hholds, hid, hsame, hphase⟩
  | returned order hholds hid hsame hphase => exact ⟨order, hproject, hholds, hid, hsame, hphase⟩

theorem claim_agrees (h : Agrees projectId identifier ⟨studio, g⟩ project order) (now : ℤ) :
    ∃ order', Agrees projectId identifier ⟨studio, g.claim now⟩ project order' := by
  obtain ⟨durable, worker, cancelRequested, history⟩ := g
  cases worker with
  | idle =>
    have hentries : durable.store.workOrders.entries = [order] := h.holds
    simp only [Gateway.claim, hentries, List.find?_cons, List.find?_nil]
    split
    case isTrue => exact ⟨order, h⟩
    case isFalse =>
      cases hdue : order.due now with
      | false => exact ⟨order, h.project?, h.holds, h.id, h.same, h.phase⟩
      | true =>
        have hqueued : order.status = .queued := by
          simp only [WorkOrder.due, Bool.and_eq_true, beq_iff_eq] at hdue
          exact hdue.1
        refine ⟨order.claimed, h.project?, h.holds.modify (·.claimed) fun _ => rfl, h.id,
          ⟨h.same.agent, h.same.kind, h.same.required, h.same.optimization, h.same.approvals⟩, ?_⟩
        cases h.phase with
        | queued _ _ _ hproject hprepared => exact .claimed rfl rfl hproject hprepared
        | waiting gate _ hstatus =>
          rw [hqueued] at hstatus
          cases gate <;> cases hstatus
        | approved _ hstatus =>
          rw [hqueued] at hstatus
          cases hstatus
  | stopped | starting | claimed | running | closing => exact ⟨order, h⟩

theorem begin_step_agrees (h : Agrees projectId identifier ⟨studio, g⟩ project order)
    (outside : Outside) :
    ∃ order', Agrees projectId identifier ⟨studio, g.begin config outside⟩ project order' := by
  obtain ⟨durable, worker, cancelRequested, history⟩ := g
  cases worker with
  | claimed order' =>
    cases h.phase with
    | claimed hstatus hstage hproject hprepared =>
      have hsegment : SegmentAgrees identifier project
          ((Execution.ofClaimed order).begin outside durable) :=
        begin_agrees h.holds h.id h.same hstatus hstage hproject hprepared
      obtain rfl := h.id
      exact hsegment.proceed h.project? _ _
    | queued hworker => exact hworker.elim
    | waiting _ hworker => exact hworker.elim
    | approved hworker => exact hworker.elim
  | stopped | starting | idle | running | closing => exact ⟨order, h⟩

theorem close_agrees (h : Agrees projectId identifier ⟨studio, g⟩ project order) :
    ∃ order', Agrees projectId identifier ⟨studio, g.close⟩ project order' := by
  obtain ⟨durable, worker, cancelRequested, history⟩ := g
  cases worker with
  | closing active stops =>
    have hrests : stops = false := by
      cases h.phase with
      | queued hworker => exact hworker
      | waiting _ hworker => exact hworker
      | approved hworker => exact hworker
    subst hrests
    exact ⟨order, h.project?, h.holds, h.id, h.same, h.phase.idle rfl⟩
  | stopped | starting | idle | claimed | running => exact ⟨order, h⟩

theorem acquired_agrees {e : Execution}
    (h : Agrees projectId identifier ⟨studio, g⟩ project order)
    (hworker : g.worker = .running e .dataset) (outside : Outside) (dataset : String) :
    ∃ order', Agrees projectId identifier ⟨studio, g.reply config outside dataset⟩ project
      order' := by
  obtain ⟨durable, worker, cancelRequested, history⟩ := g
  obtain rfl := hworker
  cases h.phase with
  | running hfollows hsame hfits hproject hprepared =>
    have hbacktesting : project.stage = .backtesting ∧ Prepared order .backtest := by
      obtain hstage | hstage := hfits
      · rw [hstage] at hproject hprepared
        exact ⟨hproject, hprepared⟩
      · rw [hstage] at hproject hprepared
        exact ⟨hproject, hprepared⟩
    have hsegment : SegmentAgrees identifier project
        (e.resume config outside .dataset dataset durable) :=
      datasetReady_agrees h.holds h.id h.same hfollows hsame hbacktesting.1 hbacktesting.2 _
    obtain rfl : e.order.id = identifier := hfollows.id.trans h.id
    exact hsegment.proceed h.project? _ _
  | queued hworker => exact hworker.elim
  | waiting _ hworker => exact hworker.elim
  | approved hworker => exact hworker.elim

theorem turn_segment_agrees {outside : Outside} {d : Durable} {e : Execution} {turn : Turn}
    {text : String} {implementation : StrategyImplementation} {evidence : BacktestEvidence}
    (hholds : d.Holds order) (hid : order.id = identifier) (hmatches : Matches project order)
    (hphase : Phase project order (.running e (.turn turn)))
    (hvalid : ValidTurn validate config outside d e text implementation evidence turn) :
    ∃ operation, turnOperation text implementation evidence turn = some operation ∧
      operation.Accepts validate project ∧
      SegmentAgrees identifier ((operation.handler validate).change project)
        (e.resume config outside (.turn turn) text d) := by
  cases hphase with
  | running hfollows hsame hfits hproject hprepared =>
    cases turn with
    | strategy prior =>
      refine ⟨_, rfl, ⟨?_, hvalid.1⟩,
        strategy_agrees hholds hid hmatches hfollows hsame prior hvalid⟩
      rw [hproject, show e.stage = .strategy from hfits]
      cases project.artifactKind with
      | signal => exact .inl rfl
      | strategy => exact .inr rfl
    | review stage handoff =>
      have hstage : e.stage = stage.stage := hfits.1
      rw [hstage] at hproject hprepared
      cases stage with
      | reviewImplementation =>
        exact ⟨_, rfl, ⟨hproject, hvalid.1⟩, reviewImplementation_agrees hholds hid hmatches
          hfollows hsame hprepared handoff hvalid⟩
      | reviewBacktest =>
        exact ⟨_, rfl, ⟨hproject, hvalid.1⟩, reviewBacktest_agrees hholds hid hmatches hfollows
          hsame hprepared handoff hvalid⟩
    | backtest handoff =>
      rw [show e.stage = .backtest from hfits] at hproject hprepared
      refine ⟨_, rfl, ⟨hproject, hvalid.1, fun hkind => hvalid.2 ?_⟩, backtest_agrees hholds hid
        hmatches hfollows hsame hprepared handoff text validate evidence⟩
      rw [hsame.kind, hmatches.kind, hkind]
      rfl
    | optimize handoff =>
      rw [show e.stage = .optimize from hfits] at hproject hprepared
      exact ⟨_, rfl, ⟨hproject, hvalid.1⟩, optimize_agrees hholds hid hmatches hfollows hprepared
        hsame handoff hvalid⟩
    | maintenance => exact hvalid.elim
  | queued hworker => exact hworker.elim
  | waiting _ hworker => exact hworker.elim
  | approved hworker => exact hworker.elim

theorem turn_agrees (haware : ∀ n, (clock n).aware = true) {e : Execution} {turn : Turn}
    {outside : Outside} {text : String} {implementation : StrategyImplementation}
    {evidence : BacktestEvidence}
    (h : Agrees projectId identifier ⟨studio, g⟩ project order)
    (hworker : g.worker = .running e (.turn turn))
    (hvalid : ValidTurn validate config outside g.durable e text implementation evidence turn) :
    ∃ operation, turnOperation text implementation evidence turn = some operation ∧
      ∃ project' order', Agrees projectId identifier
        ⟨(studio.call clock validate (.perform projectId operation)).1,
          g.reply config outside text⟩ project' order' := by
  obtain ⟨durable, worker, cancelRequested, history⟩ := g
  obtain rfl := hworker
  obtain ⟨operation, hoperation, haccepts, hsegment⟩ :=
    turn_segment_agrees h.holds h.id h.same h.phase hvalid
  have hperformed := (call_performed haware h.project? haccepts).2
  have hid : e.order.id = identifier := by
    cases h.phase with
    | running hfollows => exact hfollows.id.trans h.id
    | queued hworker => exact hworker.elim
    | waiting _ hworker => exact hworker.elim
    | approved hworker => exact hworker.elim
  obtain rfl := hid
  exact ⟨operation, hoperation, _, hsegment.proceed hperformed _ _⟩

theorem studioAccepts_iff (haware : ∀ n, (clock n).aware = true) {pair : Pair}
    (hproject : pair.studio.project? projectId = some project) (gate : ApprovalGate)
    (approved : Bool) (note : String) :
    pair.StudioAccepts clock validate projectId gate approved note ↔
      project.stage = gateStage gate ∧ blank note = false := by
  rw [← @decision_accepts validate project gate approved note]
  constructor
  · intro h
    by_contra hrefuses
    exact (call_refused haware hproject hrefuses).1 h
  · intro haccepts
    exact (call_performed haware hproject haccepts).1

theorem Agrees.gatewayAccepts_iff {pair : Pair}
    (h : Agrees projectId identifier pair project order) (gate : ApprovalGate)
    (approved : Bool) (note : String) :
    pair.GatewayAccepts identifier gate approved note ↔
      order.status = gate.expected ∧ blank note = false := by
  have hfind : pair.gateway.durable.find identifier = some order := h.id ▸ h.holds.find
  constructor
  · rintro ⟨hblank, found, next, hfound, hnext⟩
    rw [hfind] at hfound
    obtain rfl := Option.some.inj hfound
    exact ⟨(order.approval_eq_ok hnext).1, hblank⟩
  · rintro ⟨hstatus, hblank⟩
    obtain ⟨next, hnext, -, -⟩ :=
      @decided_agrees project order _ gate (fun _ => none) h.same h.phase hstatus approved note
    exact ⟨hblank, order, next, hfind, hnext⟩

theorem approve_accepted {gate : ApprovalGate} {approved : Bool} {note : String}
    {next : WorkOrder} (hholds : g.durable.Holds order) (hid : order.id = identifier)
    (hblank : blank note = false) (hnext : order.approval gate approved note = .ok next) :
    (g.approve identifier gate approved note).durable.Holds next ∧
      (g.approve identifier gate approved note).worker = g.worker := by
  have hfind : g.durable.find identifier = some order := hid ▸ hholds.find
  have hsame : { next with id := order.id } = next := by rw [← order.approval_id hnext]
  unfold Gateway.approve
  rw [if_neg (by simpa [blank] using hblank), hfind]
  dsimp only
  rw [hnext]
  refine ⟨?_, rfl⟩
  subst hid
  have hmodified := hholds.modify (fun current => { next with id := current.id }) fun _ => rfl
  rwa [hsame] at hmodified

theorem approve_refused {gate : ApprovalGate} {approved : Bool} {note : String}
    (hholds : g.durable.Holds order) (hid : order.id = identifier)
    (hrefuses : ¬ (order.status = gate.expected ∧ blank note = false)) :
    g.approve identifier gate approved note = g := by
  have hfind : g.durable.find identifier = some order := hid ▸ hholds.find
  unfold Gateway.approve
  split
  case isTrue => rfl
  case isFalse hblank =>
    have hstatus : order.status ≠ gate.expected := fun h => hrefuses ⟨h, by simpa [blank] using hblank⟩
    rw [hfind]
    simp only [WorkOrder.approval, if_pos hstatus]

theorem decide_agrees (haware : ∀ n, (clock n).aware = true)
    (h : Agrees projectId identifier ⟨studio, g⟩ project order) (gate : ApprovalGate)
    (approved : Bool) (note : String) :
    ∃ project' order', Agrees projectId identifier
      ⟨(studio.call clock validate (.perform projectId (decision gate approved note))).1,
        g.approve identifier gate approved note⟩ project' order' := by
  have hgate := h.phase.at_gate gate
  by_cases haccepts : order.status = gate.expected ∧ blank note = false
  · obtain ⟨next, hnext, hmatches, hphase⟩ :=
      @decided_agrees project order _ gate validate h.same h.phase haccepts.1 approved note
    obtain ⟨hholds, hworker⟩ := approve_accepted h.holds h.id haccepts.2 hnext
    have hdecision : (decision gate approved note).Accepts validate project :=
      (decision_accepts gate approved note).mpr ⟨hgate.mpr haccepts.1, haccepts.2⟩
    have hperformed := (call_performed haware h.project? hdecision).2
    exact ⟨_, next, hperformed, hholds, (order.approval_id hnext).trans h.id, hmatches,
      hworker ▸ hphase⟩
  · have hrefuses : ¬ (decision gate approved note).Accepts validate project := fun hdecision =>
      haccepts ⟨hgate.mp ((decision_accepts gate approved note).mp hdecision).1,
        ((decision_accepts gate approved note).mp hdecision).2⟩
    rw [(call_refused haware h.project? hrefuses).2, approve_refused h.holds h.id haccepts]
    exact ⟨project, order, h⟩

theorem Agrees.step (haware : ∀ n, (clock n).aware = true) {pair : Pair} {joint : Joint}
    (h : Agrees projectId identifier pair project order)
    (hvalid : Valid validate config pair joint) :
    ∃ project' order', Agrees projectId identifier
      (pair.step clock validate config projectId identifier joint) project' order' := by
  obtain ⟨studio, g⟩ := pair
  obtain ⟨happening, outside⟩ := joint
  cases happening with
  | claim =>
    obtain ⟨order', h'⟩ := claim_agrees h outside.now
    exact ⟨project, order', h'⟩
  | begin =>
    obtain ⟨order', h'⟩ := @begin_step_agrees config projectId identifier _ _ _ _ h outside
    exact ⟨project, order', h'⟩
  | close =>
    obtain ⟨order', h'⟩ := close_agrees h
    exact ⟨project, order', h'⟩
  | acquired dataset =>
    simp only [Pair.step, Happening.operation, Happening.event]
    split
    case h_1 event hevent =>
      split at hevent
      case h_1 e hworker =>
        obtain rfl := Option.some.inj hevent
        obtain ⟨order', h'⟩ :=
          @acquired_agrees config projectId identifier _ _ _ _ e h hworker outside dataset
        exact ⟨project, order', h'⟩
      case h_2 => cases hevent
    case h_2 => exact ⟨project, order, h⟩
  | turn text implementation evidence =>
    cases hworker : runningTurn g.worker with
    | none =>
      simp only [Pair.step, Happening.operation, Happening.event, hworker]
      exact ⟨project, order, h⟩
    | some turn =>
      obtain ⟨e, he⟩ : ∃ e, g.worker = .running e (.turn turn) := by
        unfold runningTurn at hworker
        split at hworker
        · obtain rfl := Option.some.inj hworker
          exact ⟨_, ‹_›⟩
        · cases hworker
      have hturn : ValidTurn validate config outside g.durable e text implementation evidence
          turn := by simpa [Valid, he] using hvalid
      obtain ⟨operation, hoperation, hagrees⟩ := @turn_agrees clock validate config projectId
        identifier studio g project order haware e turn outside text implementation evidence h he
        hturn
      simpa [Pair.step, Happening.operation, Happening.event, hworker, hoperation, Gateway.step]
        using hagrees
  | decide gate approved note => exact decide_agrees haware h gate approved note

end Steps

section Runs

variable (clock : ℕ → ClockReading) (validate : BacktestEvidence → Option String)
  (config : RunnerConfig) (submission : Submission) (operation : Studio.Operation)
  (artifactId : Option String) (uploaded : Bool) (stamp : String)

def orderId : String := submission.artifactKind.gateway.value ++ "-" ++ stamp

/-- A new project of the studio, and the gateway with the same work as its one order. -/
def Pair.start : Pair where
  studio := ((QuantStudio.create clock).1.call clock validate (.submit submission)).1
  gateway := ({ worker := .idle } : Gateway).create
    (.research submission.artifactKind.gateway submission.backtestRequired operation artifactId
      uploaded) stamp

variable {clock}

theorem start_agrees (haware : ∀ n, (clock n).aware = true) (hcheck : submission.check [] = none) :
    ∃ order, order.status = .queued ∧ order.stage = none ∧
      Agrees submission.projectId (orderId submission stamp)
        (Pair.start clock validate submission operation artifactId uploaded stamp)
        submission.project order := by
  have hkind : submission.artifactKind.gateway ≠ .maintenance := by
    cases submission.artifactKind <;> decide
  refine ⟨Studio.createWorkOrder stamp .strategy submission.artifactKind.gateway
    submission.backtestRequired operation artifactId, rfl, rfl, ?_, ?_, rfl, ?_, ?_⟩
  · obtain ⟨created, hcreated, hempty⟩ := emit_spec haware ({} : QuantStudio) none
      ⟨.system, .info, "量化工作室控制層已就緒；交易 Agent 維持硬性待機。"⟩
    have hcheck' : submission.check created.projects = none := by rw [hempty]; exact hcheck
    obtain ⟨next, hnext, hprojects⟩ := emit_spec haware
      (created.assign submission.projectId submission.project) (some submission.projectId)
      submission.notice
    have hstudio : (Pair.start clock validate submission operation artifactId uploaded
        stamp).studio = next := by
      simp only [Pair.start, QuantStudio.create, hcreated, QuantStudio.call, QuantStudio.submit,
        hcheck', hnext]
    rw [hstudio, QuantStudio.project?, hprojects]
    simp [QuantStudio.assign, Dict.get?_set]
  · simp only [Pair.start, Gateway.create, Studio.NewWork.order, if_neg hkind]
    rfl
  · refine ⟨rfl, rfl, rfl, ?_, {}, rfl, rfl, rfl, rfl⟩
    have hstrategy : ∀ kind : ArtifactKind,
        (kind.gateway == .strategy) = decide (kind = .strategy) := by
      rintro (_ | _) <;> rfl
    simp only [Studio.createWorkOrder, Submission.project, hstrategy]
    rfl
  · have hworker : (Pair.start clock validate submission operation artifactId uploaded
        stamp).gateway.worker = .idle := by
      simp only [Pair.start, Gateway.create, Studio.NewWork.order, if_neg hkind]
      rfl
    rw [hworker]
    exact .queued trivial rfl (.inr rfl) rfl trivial

variable {validate config submission operation artifactId uploaded stamp}

theorem Phase.stage {project : StudioProject} {order : WorkOrder} {worker : Worker}
    (h : Phase project order worker) (hagent : order.agent = .strategy) :
    project.stage = studioStage project.artifactKind order.status order.stage := by
  cases h with
  | queued _ hstatus hstage hproject =>
    rw [hproject, hstatus]
    obtain hstage | hstage := hstage
    · rw [hstage]
      rfl
    · simp [studioStage, hstage, WorkOrder.resumeStage, hagent, Studio.Agent.stage]
  | claimed hstatus hstage hproject =>
    rw [hproject, hstatus, hstage]
    rfl
  | @running e on hfollows hsame hfits hproject hprepared =>
    rw [hproject, hfollows.working]
    obtain hstage | ⟨-, hmaintenance, -⟩ := hfollows.stage
    · rw [hstage]
      rfl
    · rw [hagent] at hmaintenance
      cases hmaintenance
  | waiting gate _ hstatus hstage hproject =>
    rw [hproject, hstatus]
    cases gate <;> rfl
  | approved _ hstatus hstage hproject =>
    rw [hproject, hstatus, hstage]
    simp only [studioStage]
    split <;> rfl

theorem studio_agrees_with_gateway (haware : ∀ n, (clock n).aware = true)
    (hcheck : submission.check [] = none) {joints : List Joint}
    (hvalid : Run.Guarded
      (Pair.step clock validate config submission.projectId (orderId submission stamp))
      (Valid validate config)
      (Pair.start clock validate submission operation artifactId uploaded stamp) joints) :
    (∀ kind status, status = .queued ∨ status = .working →
      studioStage kind status (some .dataset) = .backtesting) ∧
    ∀ before, before <+: joints →
      let pair := Run.run
        (Pair.step clock validate config submission.projectId (orderId submission stamp))
        (Pair.start clock validate submission operation artifactId uploaded stamp) before
      ∃ project order approvals,
        pair.studio.project? submission.projectId = some project ∧
        pair.gateway.durable.find (orderId submission stamp) = some order ∧
        order.approvals = some approvals ∧
        project.stage = studioStage project.artifactKind order.status order.stage ∧
        project.implementationApproved = granted approvals.implementation ∧
        project.backtestApproved = granted approvals.backtest ∧
        project.liveApproved = granted approvals.live ∧
        ∀ gate approved note,
          pair.StudioAccepts clock validate submission.projectId gate approved note ↔
            pair.GatewayAccepts (orderId submission stamp) gate approved note := by
  refine ⟨?_, ?_⟩
  · rintro kind status (rfl | rfl) <;> rfl
  · intro before hbefore pair
    have hguarded : Run.Guarded
        (Pair.step clock validate config submission.projectId (orderId submission stamp))
        (Valid validate config)
        (Pair.start clock validate submission operation artifactId uploaded stamp) before := by
      obtain ⟨after, rfl⟩ := hbefore
      exact (Run.guarded_append.mp hvalid).1
    obtain ⟨order, -, -, hstart⟩ := start_agrees validate submission operation artifactId uploaded
      stamp haware hcheck
    obtain ⟨project, order, h⟩ : ∃ project order,
        Agrees submission.projectId (orderId submission stamp) pair project order :=
      Run.run_invariant_of_guarded
        (fun pair => ∃ project order,
          Agrees submission.projectId (orderId submission stamp) pair project order)
        (fun pair joint hagrees hjoint => by
          obtain ⟨project, order, h⟩ := hagrees
          exact h.step haware hjoint)
        ⟨_, order, hstart⟩ hguarded
    obtain ⟨approvals, happrovals, himplementation, hbacktest, hlive⟩ := h.same.approvals
    refine ⟨project, order, approvals, h.project?, h.id ▸ h.holds.find, happrovals,
      h.phase.stage h.same.agent, himplementation.symm, hbacktest.symm, hlive.symm, ?_⟩
    intro gate approved note
    rw [studioAccepts_iff haware h.project?, h.gatewayAccepts_iff, h.phase.at_gate]

end Runs

/-- A signal that is implemented, reviewed and approved at every gate it has. -/
theorem studio_agrees_with_gateway_signal :
    let submission : Submission :=
      { projectId := "p1", title := "t", idea := some "i", artifactKind := .signal
        backtestRequired := false }
    let implementation : StrategyImplementation :=
      { strategyId := "s", version := "1", specPath := none, modulePath := "m", testPaths := ["t"] }
    let evidence : BacktestEvidence :=
      { runId := "r", manifestPath := "m", chartPaths := [], summary := [] }
    let joints : List Joint :=
      [.claim, .begin, .turn "done" implementation evidence,
        .turn (Studio.completeReport "PASS" .reviewImplementation) implementation evidence, .close,
        .decide .live true "ok", .decide .implementation true "ok", .decide .live true "ok"].map
          fun happening => { happening := happening }
    ∃ project order approvals,
      (Run.run (Pair.step (fun _ => { micros := 0 }) (fun _ => none) Studio.defaultRunner "p1"
        (orderId submission "1")) (Pair.start (fun _ => { micros := 0 }) (fun _ => none) submission
          .create none false "1") joints).studio.project? "p1" = some project ∧
      (Run.run (Pair.step (fun _ => { micros := 0 }) (fun _ => none) Studio.defaultRunner "p1"
        (orderId submission "1")) (Pair.start (fun _ => { micros := 0 }) (fun _ => none) submission
          .create none false "1") joints).gateway.durable.find (orderId submission "1") =
            some order ∧
      order.approvals = some approvals ∧
      project.stage = studioStage project.artifactKind order.status order.stage ∧
      project.liveApproved = granted approvals.live := by
  intro submission implementation evidence joints
  obtain ⟨project, order, approvals, hproject, horder, happrovals, hstage, -, -, hlive, -⟩ :=
    (@studio_agrees_with_gateway (fun _ => { micros := 0 }) (fun _ => none) Studio.defaultRunner
      submission .create none false "1" (fun _ => rfl) (by decide +kernel) joints
      (by decide +kernel)).2 joints (List.prefix_refl _)
  exact ⟨project, order, approvals, hproject, horder, happrovals, hstage, hlive⟩

/-- The status and the stage of an order alone do not say where the studio stands: a new signal and
a new strategy differ in the studio alone. -/
theorem no_stage_mapping :
    ¬ ∃ mapping : Status → Option Stage → WorkflowStage, ∀ submission : Submission,
      submission.check [] = none →
        ∃ project order,
          (Pair.start (fun _ => { micros := 0 }) (fun _ => none) submission .create none false
            "1").studio.project? submission.projectId = some project ∧
          (Pair.start (fun _ => { micros := 0 }) (fun _ => none) submission .create none false
            "1").gateway.durable.find (orderId submission "1") = some order ∧
          project.stage = mapping order.status order.stage := by
  rintro ⟨mapping, h⟩
  have hmapped : ∀ kind, mapping .queued none = implementationStage kind := by
    intro kind
    let submission : Submission :=
      { projectId := "p1", title := "t", idea := some "i", artifactKind := kind }
    have hcheck : submission.check [] = none := by
      cases kind <;> decide +kernel
    obtain ⟨project, order, hproject, horder, hstage⟩ := h submission hcheck
    obtain ⟨started, hstatus, hnone, hagrees⟩ :=
      @start_agrees (fun _ => { micros := 0 }) (fun _ => none) submission .create none false "1"
        (fun _ => rfl) hcheck
    rw [hagrees.project?] at hproject
    have hfind := hagrees.holds.find
    rw [hagrees.id, horder] at hfind
    rw [← Option.some.inj hproject, Option.some.inj hfind, hstatus, hnone] at hstage
    exact hstage.symm
  have hsignal := hmapped .signal
  rw [hmapped .strategy] at hsignal
  cases hsignal

end ChainQuantStudio.Workflow
