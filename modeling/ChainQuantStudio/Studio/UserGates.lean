import ChainQuantStudio.Studio.GatewaySteps

/-!
# User gates

No strategy order gets past the implementation gate, and none is approved, without the decisions the
user must have made. The one way around the gates is the optimizer-stage recovery, when it restores
an order whose implementation approval was taken back.
-/

namespace ChainQuantStudio.Studio

def Stage.afterImplementation : Stage → Bool
  | .dataset | .backtest | .reviewBacktest | .optimize | .optimizationApproval
  | .backtestApproval | .liveApproval | .readyForSignal | .researchApproved => true
  | _ => false

namespace WorkOrder

variable (order : WorkOrder)

def implementationApproved : Bool := order.implementationApproval.any (·.approved)

def backtestApproved : Bool := (order.approvals.bind (·.backtest)).any (·.approved)

def liveApproved : Bool := (order.approvals.bind (·.live)).any (·.approved)

def activeAfterImplementation : Prop :=
  (order.status = .queued ∨ order.status = .working) ∧
    (order.stage = some .dataset ∨ order.stage = some .backtest ∨
      order.stage = some .reviewBacktest ∨ order.stage = some .optimize)

/-- What the user must have decided about an order where it stands. -/
structure UserGated : Prop where
  implementation : order.agent = .strategy →
    (order.activeAfterImplementation ∨ order.status = .awaitingOptimizationApproval ∨
      order.status = .awaitingBacktestApproval ∨ order.status = .awaitingLiveApproval ∨
      order.status = .approved) → order.implementationApproved = true
  live : order.status = .approved → order.liveApproved = true
  backtest : order.status = .approved → order.needsBacktest = true → order.backtestApproved = true

end WorkOrder

def Status.Fits : Status → Option Stage → Prop
  | .awaitingImplementationApproval, stage => stage = some .implementationApproval
  | .awaitingOptimizationApproval, stage => stage = some .optimizationApproval
  | .awaitingBacktestApproval, stage => stage = some .backtestApproval
  | .awaitingLiveApproval, stage => stage = some .liveApproval
  | .approved, stage => stage = some .readyForSignal ∨ stage = some .researchApproved
  | _, _ => True

structure Gated (order : WorkOrder) : Prop where
  fits : order.status.Fits order.stage
  implementation : ∀ s, order.stage = some s → s.afterImplementation = true →
    order.implementationApproved = true
  backtest : order.stage = some .liveApproval → order.needsBacktest = true →
    order.backtestApproved = true
  live : order.stage = some .readyForSignal ∨ order.stage = some .researchApproved →
    order.liveApproved = true ∧ (order.needsBacktest = true → order.backtestApproved = true)

theorem Gated.userGated {order : WorkOrder} (h : Gated order) : order.UserGated := by
  have hfits := h.fits
  constructor
  · rintro _ (⟨_, hs⟩ | hs | hs | hs | hs)
    · rcases hs with hs | hs | hs | hs <;> exact h.implementation _ hs rfl
    · rw [hs] at hfits
      exact h.implementation _ hfits rfl
    · rw [hs] at hfits
      exact h.implementation _ hfits rfl
    · rw [hs] at hfits
      exact h.implementation _ hfits rfl
    · rw [hs] at hfits
      rcases hfits with hs | hs <;> exact h.implementation _ hs rfl
  · intro hs
    rw [hs] at hfits
    exact (h.live hfits).1
  · intro hs
    rw [hs] at hfits
    exact (h.live hfits).2

def Stage.decided : Stage → Bool
  | .liveApproval | .readyForSignal | .researchApproved => true
  | _ => false

theorem SentBack.stages {s s' : Stage} {r r' : Results} (h : SentBack s r s' r') :
    (s'.afterImplementation = true → s.afterImplementation = true) ∧
      (s'.decided = true → s' = s) := by
  cases h with
  | same => exact ⟨id, fun _ => rfl⟩
  | maintenance => exact ⟨nofun, nofun⟩
  | dataset _ hs => rcases hs with rfl | rfl <;> exact ⟨fun _ => rfl, nofun⟩
  | prepared _ _ hs => rcases hs with rfl | rfl <;> exact ⟨fun _ => rfl, nofun⟩
  | implemented => exact ⟨id, fun _ => rfl⟩
  | unreviewed => exact ⟨id, fun _ => rfl⟩
  | rejected stage =>
    cases stage with
    | reviewImplementation => exact ⟨nofun, nofun⟩
    | reviewBacktest => exact ⟨fun _ => rfl, nofun⟩
  | optimized => exact ⟨id, fun _ => rfl⟩

theorem Outcome.stages {turns : List AgentTurn} {identifier : String} {s s' : Stage}
    {r r' : Results} {status : Status} (h : Outcome turns identifier s r status s' r') :
    status.Fits (some s') ∧ (s'.afterImplementation = true → s.afterImplementation = true) ∧
      (s'.decided = true → s' = s) := by
  cases h with
  | prepared _ _ hs => rcases hs with rfl | rfl <;> exact ⟨trivial, fun _ => rfl, nofun⟩
  | implemented => exact ⟨trivial, nofun, nofun⟩
  | backtested => exact ⟨trivial, fun _ => rfl, nofun⟩
  | optimizing => exact ⟨trivial, fun _ => rfl, nofun⟩
  | implementationGate => exact ⟨rfl, nofun, nofun⟩
  | backtestGate => exact ⟨rfl, fun _ => rfl, nofun⟩
  | optimizationGate => exact ⟨rfl, fun _ => rfl, nofun⟩
  | sentBack _ hstatus hback =>
    refine ⟨?_, hback.stages⟩
    rcases hstatus with rfl | rfl | rfl <;> trivial
  | failed => exact ⟨trivial, nofun, nofun⟩
  | cancelled => exact ⟨trivial, nofun, nofun⟩

theorem Gated.of_before {order : WorkOrder} {s : Stage} (hfits : order.status.Fits order.stage)
    (hs : order.stage = some s) (hbefore : s.afterImplementation = false) : Gated order := by
  refine ⟨hfits, ?_, ?_, ?_⟩
  · intro s' hs' hafter
    rw [hs] at hs'
    obtain rfl := Option.some.inj hs'
    rw [hbefore] at hafter
    cases hafter
  · intro hlive
    rw [hs] at hlive
    obtain rfl := Option.some.inj hlive
    cases hbefore
  · rintro (hready | hready) <;>
    · rw [hs] at hready
      obtain rfl := Option.some.inj hready
      cases hbefore

theorem Gated.of_frame {order next : WorkOrder} {s s' : Stage} (h : Gated order)
    (hframe : Frame order next) (hs : order.stage = some s) (hs' : next.stage = some s')
    (hfits : next.status.Fits next.stage)
    (hafter : s'.afterImplementation = true → s.afterImplementation = true)
    (hdecided : s'.decided = true → s' = s) : Gated next := by
  have hi : next.implementationApproved = order.implementationApproved := by
    simp only [WorkOrder.implementationApproved, WorkOrder.implementationApproval,
      hframe.approvals]
  have hb : next.backtestApproved = order.backtestApproved := by
    simp only [WorkOrder.backtestApproved, hframe.approvals]
  have hl : next.liveApproved = order.liveApproved := by
    simp only [WorkOrder.liveApproved, hframe.approvals]
  have hn : next.needsBacktest = order.needsBacktest := by
    simp only [WorkOrder.needsBacktest, hframe.backtestRequired]
  refine ⟨hfits, ?_, ?_, ?_⟩
  · intro t ht hta
    rw [hs'] at ht
    obtain rfl := Option.some.inj ht
    rw [hi]
    exact h.implementation s hs (hafter hta)
  · intro ht
    rw [hs'] at ht
    obtain rfl := Option.some.inj ht
    rw [hn, hb]
    exact h.backtest (by rw [hs, hdecided rfl])
  · intro ht
    rw [hn, hb, hl]
    apply h.live
    rw [hs'] at ht
    rcases ht with ht | ht <;>
    · obtain rfl := Option.some.inj ht
      have hsame := hdecided rfl
      subst hsame
      simp [hs]

theorem Gated.worked {turns : List AgentTurn} {x x' : Entry} (h : Gated x.order)
    (hw : Worked turns x x') : Gated x'.order := by
  obtain ⟨s, s', hs, hs', hout⟩ := hw.outcome
  obtain ⟨hfits, hafter, hdecided⟩ := hout.stages
  exact h.of_frame hw.frame hs hs' (by rw [hs']; exact hfits) hafter hdecided

@[simp] theorem Agent.stage_afterImplementation (a : Agent) :
    a.stage.afterImplementation = false := by
  cases a <;> rfl

theorem Gated.of_resumed {order next : WorkOrder} (h : Gated order) (hframe : Frame order next)
    (hs : next.stage = some order.resumeStage) (hfits : next.status.Fits next.stage) :
    Gated next := by
  rcases resumeStage_cases order with hsame | hagent
  · exact h.of_frame hframe hsame hs hfits id fun _ => rfl
  · exact .of_before hfits hs (by rw [hagent]; simp)

section Decided

variable (order : WorkOrder) (gate : ApprovalGate) (approved : Bool) (note : String)

@[simp] theorem implementationApproved_noteDecision :
    (order.noteDecision gate approved note).implementationApproved =
      if gate = .implementation then approved else order.implementationApproved := by
  cases gate <;> cases ha : order.approvals <;>
    simp [WorkOrder.noteDecision, WorkOrder.implementationApproved,
      WorkOrder.implementationApproval, Approvals.set, ha]

@[simp] theorem backtestApproved_noteDecision :
    (order.noteDecision gate approved note).backtestApproved =
      if gate = .backtest then approved else order.backtestApproved := by
  cases gate <;> cases ha : order.approvals <;>
    simp [WorkOrder.noteDecision, WorkOrder.backtestApproved, Approvals.set, ha]

@[simp] theorem liveApproved_noteDecision :
    (order.noteDecision gate approved note).liveApproved =
      if gate = .live then approved else order.liveApproved := by
  cases gate <;> cases ha : order.approvals <;>
    simp [WorkOrder.noteDecision, WorkOrder.liveApproved, Approvals.set, ha]

@[simp] theorem needsBacktest_noteDecision :
    (order.noteDecision gate approved note).needsBacktest = order.needsBacktest := rfl

end Decided

theorem Gated.of_implemented {order : WorkOrder} {s : Stage} (hs : order.stage = some s)
    (hfits : order.status.Fits order.stage) (hdecided : s.decided = false)
    (hi : order.implementationApproved = true) : Gated order := by
  refine ⟨hfits, fun _ _ _ => hi, ?_, ?_⟩
  · intro h
    rw [hs] at h
    obtain rfl := Option.some.inj h
    cases hdecided
  · rintro (h | h) <;>
    · rw [hs] at h
      obtain rfl := Option.some.inj h
      cases hdecided

theorem Gated.of_awaitingLive {order : WorkOrder} (hstatus : order.status = .awaitingLiveApproval)
    (hs : order.stage = some .liveApproval) (hi : order.implementationApproved = true)
    (hb : order.needsBacktest = true → order.backtestApproved = true) : Gated order := by
  refine ⟨by rw [hstatus]; exact hs, fun _ _ _ => hi, fun _ => hb, ?_⟩
  rintro (h | h) <;>
  · rw [hs] at h
    cases h

theorem Gated.decided {order next : WorkOrder} {gate : ApprovalGate} {approved : Bool}
    {note : String} (h : Gated order) (hstatus : order.status = gate.expected)
    (hd : order.decided gate approved note = .ok next) : Gated next := by
  have hfits := h.fits
  rw [hstatus] at hfits
  have hi := implementationApproved_noteDecision order gate approved note
  have hb := backtestApproved_noteDecision order gate approved note
  have hl := liveApproved_noteDecision order gate approved note
  unfold WorkOrder.decided at hd
  cases gate with
  | implementation =>
    cases approved with
    | false =>
      obtain rfl := Except.ok.inj hd
      exact .of_before trivial rfl rfl
    | true =>
      dsimp only at hd
      split at hd
      · obtain rfl := Except.ok.inj hd
        exact .of_implemented rfl trivial rfl hi
      · rename_i hneeds
        obtain rfl := Except.ok.inj hd
        exact .of_awaitingLive rfl rfl hi fun hn => absurd hn hneeds
  | optimization =>
    dsimp only at hd
    split at hd
    · cases hd
    · split at hd
      · cases hd
      · split at hd
        · obtain rfl := Except.ok.inj hd
          exact .of_before trivial rfl rfl
        · obtain rfl := Except.ok.inj hd
          exact .of_implemented rfl rfl rfl (hi.trans (h.implementation _ hfits rfl))
  | backtest =>
    have happroved := h.implementation _ hfits rfl
    cases approved with
    | false =>
      obtain rfl := Except.ok.inj hd
      refine .of_implemented rfl trivial rfl ?_
      exact hi.trans happroved
    | true =>
      obtain rfl := Except.ok.inj hd
      exact .of_awaitingLive rfl rfl (hi.trans happroved) fun _ => hb
  | live =>
    have happroved := h.implementation _ hfits rfl
    cases approved with
    | false =>
      obtain rfl := Except.ok.inj hd
      exact .of_before rfl rfl rfl
    | true =>
      obtain rfl := Except.ok.inj hd
      refine ⟨?_, fun _ _ _ => hi.trans happroved, ?_, fun _ => ⟨hl, fun hn => ?_⟩⟩
      · dsimp only [Status.Fits]
        split <;> simp
      · intro hs
        dsimp only at hs
        split at hs <;> cases hs
      · exact hb.trans (h.backtest hfits hn)

theorem Gated.retried {order : WorkOrder} (artifactId artifactVersion reason : String) :
    Gated (order.retried artifactId artifactVersion reason) := by
  by_cases hp : order.preservesImplementation artifactId artifactVersion
  · refine .of_implemented (s := .backtest) ?_ trivial rfl ?_
    · simp [WorkOrder.retried, hp]
    · have happroved := hp.2.2.1
      simp only [WorkOrder.implementationApproved, WorkOrder.implementationApproval,
        WorkOrder.retried, if_pos hp]
      cases ha : order.approvals with
      | none => simp [WorkOrder.implementationApproval, ha] at happroved
      | some approvals => simpa [WorkOrder.implementationApproval, ha] using happroved
  · refine .of_before (s := order.agent.stage) trivial ?_ (by simp)
    simp [WorkOrder.retried, hp]

@[simp] theorem implementationApproved_migrateOptimization (order : WorkOrder) :
    order.migrateOptimization.implementationApproved = order.implementationApproved ∧
      order.migrateOptimization.backtestApproved = order.backtestApproved ∧
      order.migrateOptimization.liveApproved = order.liveApproved ∧
      order.migrateOptimization.needsBacktest = order.needsBacktest ∧
      order.migrateOptimization.status = order.status ∧
      order.migrateOptimization.stage = order.stage := by
  unfold WorkOrder.migrateOptimization
  split
  · simp
  · cases ha : order.approvals <;>
      simp [WorkOrder.implementationApproved, WorkOrder.implementationApproval,
        WorkOrder.backtestApproved, WorkOrder.liveApproved, WorkOrder.needsBacktest, ha]

theorem Gated.migrated {order : WorkOrder} (h : Gated order) : Gated order.migrateOptimization := by
  obtain ⟨hi, hb, hl, hn, hstatus, hstage⟩ := implementationApproved_migrateOptimization order
  constructor
  · rw [hstatus, hstage]
    exact h.fits
  · rw [hstage, hi]
    exact h.implementation
  · rw [hstage, hn, hb]
    exact h.backtest
  · rw [hstage, hl, hn, hb]
    exact h.live

theorem Gated.failedReview {order : WorkOrder} (config : RunnerConfig) (h : Gated order) :
    Gated (order.recoverFailedReview config) := by
  cases hf : order.failedReview with
  | none =>
    rw [recoverFailedReview_of_none config hf]
    exact h
  | some failed =>
    obtain ⟨stage, review⟩ := failed
    obtain ⟨hframe, hs, _, _, _, hstatus⟩ := recoverFailedReview_spec config hf
    have hopened := (failedReview_eq_some hf).1
    have hfits := h.fits
    have hfits' : (order.recoverFailedReview config).status.Fits
        (order.recoverFailedReview config).stage := by
      rcases hstatus with hst | hst | hst <;> rw [hst] <;> trivial
    unfold WorkOrder.openedBy at hopened
    split at hopened
    · obtain rfl := Option.some.inj hopened
      exact .of_before hfits' hs rfl
    · rename_i hawaiting
      obtain rfl := Option.some.inj hopened
      rw [hawaiting] at hfits
      exact h.of_frame hframe hfits hs hfits' (fun _ => rfl) nofun
    · cases hopened

theorem Gated.recovery {config : RunnerConfig} {outside : Outside} {allowed : Entry → Prop}
    {x x' : Entry} (hallowed : allowed x → x.order.implementationApproved = true)
    (h : Gated x.order) (hr : Recovery config outside allowed x x') : Gated x'.order := by
  cases hr with
  | migrated => exact h.migrated
  | interrupted =>
    dsimp only
    unfold WorkOrder.recoverInterrupted
    split
    · exact h.of_resumed ⟨rfl, rfl, rfl, rfl, rfl, rfl⟩ rfl trivial
    · exact h
  | optimizerStage hreg hal =>
    simp only [WorkOrder.recoverOptimizerStage, if_pos hreg]
    exact .of_implemented rfl trivial rfl (hallowed hal)
  | passedReview =>
    dsimp only
    unfold WorkOrder.recoverPassedReview
    split
    · exact .of_before rfl rfl rfl
    · exact h
  | failedReview => exact h.failedReview config
  | completedOptimize results hc =>
    have hs := (completedBacktest_eq_some hc).2.1
    exact h.of_frame ⟨rfl, rfl, rfl, rfl, rfl, rfl⟩ hs rfl trivial (fun _ => rfl)
      fun hp => by cases hp
  | completedGate results record hc =>
    have hs := (completedBacktest_eq_some hc).2.1
    exact h.of_frame ⟨rfl, rfl, rfl, rfl, rfl, rfl⟩ hs rfl rfl (fun _ => rfl)
      fun hp => by cases hp
  | cleared =>
    dsimp only
    unfold WorkOrder.clearTerminalRetry
    split
    · exact h
    · exact ⟨h.fits, h.implementation, h.backtest, h.live⟩

section Runs

variable {config : RunnerConfig} {input : Input} {turns : List AgentTurn} {g : Gateway}

theorem Gated.moved {allowed : Entry → Prop} {x x' : Entry}
    (hallowed : ∀ x, allowed x → x.order.implementationApproved = true) (h : Gated x.order)
    (hm : Moved config input turns allowed x x') : Gated x'.order := by
  cases hm with
  | worked hw => exact h.worked hw
  | claimed => exact h.of_resumed ⟨rfl, rfl, rfl, rfl, rfl, rfl⟩ rfl trivial
  | cancelled => exact .of_before (s := .cancelled) trivial rfl rfl
  | quotaResumed identifier =>
    dsimp only
    unfold WorkOrder.quotaResumed
    split
    · exact ⟨h.fits, h.implementation, h.backtest, h.live⟩
    · exact h
  | decided _ hd =>
    obtain ⟨hstatus, moved, hmoved, rfl⟩ := x.order.approval_eq_ok hd
    have hg := h.decided hstatus hmoved
    exact ⟨hg.fits, hg.implementation, hg.backtest, hg.live⟩
  | retried artifactId artifactVersion reason => exact .retried _ _ _
  | recovered _ hchain =>
    induction hchain with
    | refl => exact h
    | tail _ hr ih => exact ih.recovery (hallowed _) hr

theorem Gated.created {x : Entry} (h : Created g input x) : Gated x.order := by
  obtain ⟨work, stamp, _, horder, _⟩ := h
  obtain ⟨hstatus, hs | hs, _⟩ := NewWork.order_spec horder
  · constructor
    · rw [hstatus]
      trivial
    · intro s hs'
      rw [hs] at hs'
      cases hs'
    · intro hs'
      rw [hs] at hs'
      cases hs'
    · rintro (hs' | hs') <;>
      · rw [hs] at hs'
        cases hs'
  · exact .of_before (by rw [hstatus]; trivial) hs rfl

/-- Every order stands where the user's decisions allow. -/
def Gateway.UserGated (g : Gateway) : Prop := ∀ x ∈ g.durable, x.order.UserGated

structure Gateway.Gated (g : Gateway) : Prop where
  tracks : g.Tracks
  orders : ∀ x ∈ g.durable, Studio.Gated x.order

theorem gated_step (h : g.Gated)
    (hguard : g.RestoresOnly (fun x => x.order.implementationApproved = true) input) :
    (g.step config input).Gated := by
  obtain ⟨hev, ht⟩ := step_evolves hguard h.tracks
  refine ⟨ht, hev.forall_mem h.orders (fun _ _ hx => hx) (fun _ hx => .created hx) ?_⟩
  intro x _ x' hx hm
  exact hx.moved (fun _ hal => hal) hm

theorem not_mem_initial (x : Entry) : x ∉ ({} : Gateway).durable := fun h =>
  Keyed.not_mem_empty _ h.1

theorem gated_initial : ({} : Gateway).Gated :=
  ⟨trivial, fun x hx => absurd hx (not_mem_initial x)⟩

theorem not_userGated_of_restored
    (h : ¬ g.RestoresOnly (fun x => x.order.implementationApproved = true) input) :
    ¬ (g.step config input).UserGated := by
  simp only [Gateway.RestoresOnly, not_forall] at h
  obtain ⟨hevent, hstarting, x, hx, hreg, happroved⟩ := h
  intro hgated
  have hmem : (⟨x.order.recoverOptimizerStage config, x.record⟩ : Entry) ∈
      (g.step config input).durable := by
    simp only [Gateway.step, hevent, Gateway.recover, hstarting]
    exact recover_restored hx hreg
  have hgate := (hgated _ hmem).implementation
  apply happroved
  simp only [WorkOrder.recoverOptimizerStage, if_pos hreg] at hgate
  exact hgate hreg.2.1 (.inl ⟨.inl rfl, .inr (.inr (.inr rfl))⟩)

end Runs

/-- The user gates hold in every state of a run exactly when no startup of the run restores to the
optimizer stage an order whose implementation is not approved. -/
theorem userGates_always_iff (config : RunnerConfig) (inputs : List Input) :
    (∀ before, before <+: inputs →
        (Run.run (Gateway.step config) {} before).UserGated) ↔
      Run.Guarded (Gateway.step config)
        (Gateway.RestoresOnly fun x => x.order.implementationApproved = true) {} inputs := by
  apply Run.always_iff_guarded (fun _ => True) Gateway.Gated
  · intro g hg x hx
    exact (hg.orders x hx).userGated
  · intro g input hg _ hguard
    exact gated_step hg hguard
  · intro g input _ _ hguard
    exact not_userGated_of_restored hguard
  · exact gated_initial
  · exact fun _ _ => trivial

/-- The manifest of version 1.0.0 of a strategy, implemented for the order `strategy-1`. -/
def alphaManifest : ManifestFile where
  registry := .strategies
  path := "strategies/implemented/alpha/1.0.0.toml"
  stem := "1.0.0"
  workOrder := some "strategy-1"
  stableId := some "alpha"
  version := some "1.0.0"
  sha256 := "00"

def sixTimeouts : List Event :=
  (List.replicate 6 [Event.claim, .begin, .raise .timeout, .close]).flatten

def optimizerRemediation : List Event :=
  [.create (.research .strategy true .create none false) "1", .start, .recover, .claim, .begin,
    .reply "implemented", .reply (completeReport "PASS" .reviewImplementation), .close,
    .approve "strategy-1" .implementation true "ok", .claim, .begin, .reply "dataset",
    .reply "backtested", .reply (completeReport "PASS" .reviewBacktest), .raise .timeout, .close] ++
  sixTimeouts.drop 4 ++ [.retry "strategy-1" "alpha" "1.0.0" "repaired"] ++ sixTimeouts

theorem not_userGated_of_any {g : Gateway}
    (h : (g.durable.store.workOrders.entries.any fun order => order.agent == .strategy &&
      order.status == .queued && order.stage == some .optimize &&
      !order.implementationApproved) = true) : ¬ g.UserGated := by
  intro hgated
  obtain ⟨order, horder, hbad⟩ := List.any_eq_true.mp h
  simp only [Bool.and_eq_true, beq_iff_eq, Bool.not_eq_true'] at hbad
  obtain ⟨⟨⟨hagent, hstatus⟩, hstage⟩, happroved⟩ := hbad
  have hgate := (hgated ⟨order, g.durable.artifacts.find order.id⟩ ⟨horder, rfl⟩).implementation hagent
    (.inl ⟨.inl hstatus, .inr (.inr (.inr hstage))⟩)
  rw [happroved] at hgate
  cases hgate

/-- A restart then puts the order before the optimizer, with its approvals taken back. -/
theorem restart_skips_implementation_gate :
    ¬ (Run.run (Gateway.step defaultRunner) {}
      (inputsOf { manifests := [alphaManifest] }
        (optimizerRemediation ++ [.crash, .start, .recover]))).UserGated :=
  not_userGated_of_any (by decide +kernel)

end ChainQuantStudio.Studio
