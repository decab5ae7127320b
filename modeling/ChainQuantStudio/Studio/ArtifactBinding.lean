import ChainQuantStudio.Studio.BlockerRuns

/-!
# The version an order is bound to

A completed Strategy stage binds its order to the version its handoff identifies, unless the order
has a version. Beside the gateway it is observed which orders were retried after a remediation or
restored to the optimizer: what these hold may be older than the version they are bound to.
-/

namespace ChainQuantStudio.Studio

def History.lastImplementation (history : History) (identifier : String) : Option Implementation :=
  (history.implementations.filter (·.workOrder == identifier)).getLast?

def Stage.reviewable (s : Stage) : Bool := s == .reviewImplementation || s.pastReview

def Gateway.completesStrategy (g : Gateway) (input : Input) : Option (Execution × String) :=
  match input.event, g.worker with
  | .reply text, .running e (.turn (.strategy _)) => some (e, text)
  | _, _ => none

structure Binding where
  gateway : Gateway := {}
  disturbed : List String := []

namespace Binding

variable (config : RunnerConfig) (b : Binding) (input : Input)

def disturbs (after : Gateway) : List String :=
  (after.durable.store.workOrders.entries.filter (·.remediationRetryCount != 0)).map (·.id) ++
    match input.event, b.gateway.worker with
    | .recover, .starting =>
      (b.gateway.durable.resumed.store.workOrders.entries.filter
        fun order => decide order.optimizerRegression).map (·.id)
    | _, _ => []

def step : Binding where
  gateway := b.gateway.step config input
  disturbed := b.disturbs input (b.gateway.step config input) ++ b.disturbed

/-- Each completed Strategy stage leaves its order bound to the version the handoff identifies; an
execution uses the version of its order; and an order past its Review holds the last handoff, which
a Review turn passed, has the version it identifies and is recorded with it. -/
structure FollowsImplementation : Prop where
  bound : ∀ i ∈ b.gateway.history.implementations, ∀ artifactId version,
    i.identified = some (artifactId, version) → i.bound = (some artifactId, some version)
  used : ∀ e on, b.gateway.worker = .running e on →
    ∃ x ∈ b.gateway.durable, x.order.id = e.order.id ∧ e.order.artifact = x.order.artifact
  reviewed : ∀ x ∈ b.gateway.durable, x.order.id ∉ b.disturbed → ∀ s, x.order.stage = some s →
    s.pastReview = true → ∀ i, b.gateway.history.lastImplementation x.order.id = some i →
      x.order.results.strategy = some i.evidence ∧
      Passed b.gateway.history.turns x.order.id .reviewImplementation x.order.results ∧
      ∀ artifactId version, i.identified = some (artifactId, version) →
        x.order.artifact = (some artifactId, some version) ∧
          ∃ record, x.record = some record ∧ record.artifactId = some artifactId ∧
            record.artifactVersion = some version

/-- A handoff that identifies a version comes to an order that has none, or that one. -/
def BindsHandoff : Prop :=
  ∀ e text, b.gateway.completesStrategy input = some (e, text) → ∀ artifactId version,
    identifiedArtifact input.outside.manifests e.order text = some (artifactId, version) →
      e.order.artifactVersion = none ∨ e.order.artifact = (some artifactId, some version)

end Binding

section Implemented

variable {config : RunnerConfig} {outside : Outside} {input : Input} {g : Gateway} {d : Durable}
  {x x' : Entry} {e : Execution} {text : String}

theorem bindArtifactIdentity_artifact_iff {manifests : List ManifestFile} {order : WorkOrder}
    {artifactId version : String}
    (h : identifiedArtifact manifests order text = some (artifactId, version)) :
    (bindArtifactIdentity manifests order text).artifact = (some artifactId, some version) ↔
      order.artifactVersion = none ∨ order.artifact = (some artifactId, some version) := by
  unfold bindArtifactIdentity
  rw [h]
  cases hv : order.artifactVersion with
  | none => simp [WorkOrder.artifact]
  | some bound => simp

theorem completesStrategy_eq_some (h : g.completesStrategy input = some (e, text)) :
    input.event = .reply text ∧ ∃ prior, g.worker = .running e (.turn (.strategy prior)) := by
  unfold Gateway.completesStrategy at h
  split at h
  · rename_i hevent hworker
    obtain ⟨rfl, rfl⟩ := Prod.mk.inj (Option.some.inj h)
    exact ⟨hevent, _, hworker⟩
  · cases h

theorem find_handle (config : RunnerConfig) (e : Execution) {failure : Failure}
    (hyears : ¬ failure.OutOfYears outside) {order : WorkOrder}
    (h : d.find e.order.id = some order) :
    ∃ next, (e.handle config outside failure d).1.find e.order.id = some next ∧
      next.artifact = order.artifact ∧
      (next.stage = some e.stage ∨ next.stage = some .failed) := by
  have hhandled := handle_handled config d e hyears
  generalize e.handle config outside failure d = written at hhandled ⊢
  cases hhandled with
  | late =>
    rw [find_requeue, h]
    exact ⟨_, rfl, by simp, .inl (by simp)⟩
  | quota typeName message retryAt =>
    have hopen : (d.openCircuit (typeName ++ ": " ++ message) retryAt).find e.order.id =
        some order := h
    rw [find_requeue, hopen]
    exact ⟨_, rfl, by simp, .inl (by simp)⟩
  | failed =>
    rw [find_finish, h]
    exact ⟨_, rfl, rfl, .inr rfl⟩

theorem find_implemented (config : RunnerConfig) (outside : Outside) (hx : x ∈ g.durable)
    (hf : Follows e x.order) (hstage : e.stage = .strategy) (prior : Option String) :
    ∃ next, (g.proceed config outside e.order.id
        (e.resume config outside (.turn (.strategy prior)) text g.durable)).durable.find
          e.order.id = some next ∧
      next.artifact = (bindArtifactIdentity outside.manifests e.order text).artifact ∧
      ∀ s, next.stage = some s → s.reviewable = true →
        s = .reviewImplementation ∧ next.results.strategy = some text := by
  obtain ⟨hor, hor'⟩ := bindArtifactIdentity_or outside.manifests e.order text
  obtain ⟨hid, hversion⟩ := Prod.mk.inj hf.artifact
  have hfind : g.durable.find e.order.id = some x.order := by
    rw [hf.id]
    exact Durable.find_mem hx
  simp only [Execution.resume, bindArtifactIdentity_id]
  have hc := find_checkpoint outside e.order.id g.durable .reviewImplementation
    { e.results with strategy := some text }
    (bindArtifactIdentity outside.manifests e.order text).artifactId
    (bindArtifactIdentity outside.manifests e.order text).artifactVersion
  rw [hfind, Option.map_some] at hc
  have hartifact : (x.order.checkpointed .reviewImplementation
      { e.results with strategy := some text }
      (bindArtifactIdentity outside.manifests e.order text).artifactId
      (bindArtifactIdentity outside.manifests e.order text).artifactVersion).artifact =
      (bindArtifactIdentity outside.manifests e.order text).artifact := by
    simp only [WorkOrder.checkpointed, WorkOrder.artifact, ← hid, ← hversion, hor, hor']
  split
  case h_1 d' failure hw =>
    have hunnamed : failure.Unnamed := by
      rw [hf.id] at hw
      exact checkpoint_unnamed hx (congrArg Prod.snd hw)
    rw [hw] at hc
    obtain ⟨next, hnext, ha, hs⟩ := find_handle config
      { e with
        results := { e.results with strategy := some text }
        order := bindArtifactIdentity outside.manifests e.order text }
      (hunnamed.not_outOfYears outside) (by rw [bindArtifactIdentity_id]; exact hc)
    rw [bindArtifactIdentity_id] at hnext
    refine ⟨next, hnext, ha.trans hartifact, fun s hs' hreview => ?_⟩
    rcases hs with hs | hs
    · rw [hs, hstage] at hs'
      obtain rfl := Option.some.inj hs'
      cases hreview
    · rw [hs] at hs'
      obtain rfl := Option.some.inj hs'
      cases hreview
  case h_2 d' hw =>
    rw [hw] at hc
    exact ⟨_, hc, hartifact, fun s hs _ => ⟨(Option.some.inj hs).symm, rfl⟩⟩

end Implemented

/-- An order at a stage `s'` holds the implementation it held at the stage `s`. -/
structure Continues (turns : List AgentTurn) (s s' : Stage) (x x' : Entry) : Prop where
  id : x'.order.id = x.order.id
  artifact : x'.order.artifact = x.order.artifact
  strategy : x'.order.results.strategy = x.order.results.strategy
  keepsRecord : KeepsRecord x x'
  passed : s'.pastReview = true →
    Passed turns x'.order.id .reviewImplementation x'.order.results ∨
      (s.pastReview = true ∧
        x'.order.results.reviewImplementation = x.order.results.reviewImplementation)

def Continued (turns : List AgentTurn) (x x' : Entry) : Prop :=
  ∀ s', x'.order.stage = some s' → s'.reviewable = true →
    ∃ s, x.order.stage = some s ∧ s.reviewable = true ∧ Continues turns s s' x x'

section Moves

variable {config : RunnerConfig} {outside : Outside} {input : Input} {turns : List AgentTurn}
  {allowed : Entry → Prop} {x x' x'' : Entry}

theorem Passed.congr {identifier : String} {r r' : Results}
    (h : Passed turns identifier .reviewImplementation r) (hs : r'.strategy = r.strategy)
    (hr : r'.reviewImplementation = r.reviewImplementation) :
    Passed turns identifier .reviewImplementation r' := by
  obtain ⟨handoff, report, hh, hrep, hpass, hlog⟩ := h
  exact ⟨handoff, report, hs.trans hh, hr.trans hrep, hpass, hlog⟩

theorem Continued.refl (x : Entry) : Continued turns x x := fun s hs hreview =>
  ⟨s, hs, hreview, rfl, rfl, rfl, .refl x, fun hp => .inr ⟨hp, rfl⟩⟩

theorem Continued.trans (h : Continued turns x x') (h' : Continued turns x' x'') :
    Continued turns x x'' := by
  intro s'' hs'' hreview''
  obtain ⟨s', hs', hreview', hc'⟩ := h' s'' hs'' hreview''
  obtain ⟨s, hs, hreview, hc⟩ := h s' hs' hreview'
  refine ⟨s, hs, hreview, hc'.id.trans hc.id, hc'.artifact.trans hc.artifact,
    hc'.strategy.trans hc.strategy, hc.keepsRecord.trans hc'.keepsRecord hc'.artifact,
    fun hp => ?_⟩
  rcases hc'.passed hp with hpassed | ⟨hp', hr'⟩
  · exact .inl hpassed
  · rcases hc.passed hp' with hpassed | ⟨hp, hr⟩
    · rw [hc'.id]
      exact .inl (hpassed.congr hc'.strategy hr')
    · exact .inr ⟨hp, hr'.trans hr⟩

theorem Continued.of_same (hid : x'.order.id = x.order.id)
    (hstage : x'.order.stage = x.order.stage) (hartifact : x'.order.artifact = x.order.artifact)
    (hresults : x'.order.results = x.order.results) (hrecord : x'.record = x.record) :
    Continued turns x x' := by
  intro s hs hreview
  refine ⟨s, hstage.symm.trans hs, hreview, hid, hartifact, ?_, .of_record hrecord,
    fun hp => .inr ⟨hp, ?_⟩⟩
  · rw [hresults]
  · rw [hresults]

theorem Continued.of_stage {s : Stage} (hstage : x'.order.stage = some s)
    (hs : s.reviewable = false) : Continued turns x x' := by
  intro s' hs' hreview
  rw [hstage] at hs'
  obtain rfl := Option.some.inj hs'
  rw [hs] at hreview
  cases hreview

theorem Continued.of_past {s : Stage} (hid : x'.order.id = x.order.id)
    (hstage : x.order.stage = some s) (hs : s.pastReview = true)
    (hartifact : x'.order.artifact = x.order.artifact)
    (hstrategy : x'.order.results.strategy = x.order.results.strategy)
    (hreview : x'.order.results.reviewImplementation = x.order.results.reviewImplementation)
    (hrecord : KeepsRecord x x') : Continued turns x x' := by
  intro s' _ _
  refine ⟨s, hstage, ?_, hid, hartifact, hstrategy, hrecord, fun _ => .inr ⟨hs, hreview⟩⟩
  rw [Stage.reviewable, hs, Bool.or_true]

@[simp] theorem Agent.stage_reviewable (a : Agent) : a.stage.reviewable = false := by
  cases a <;> rfl

theorem Continued.of_resumed (hid : x'.order.id = x.order.id)
    (hstage : x'.order.stage = some x.order.resumeStage)
    (hartifact : x'.order.artifact = x.order.artifact)
    (hresults : x'.order.results = x.order.results) (hrecord : x'.record = x.record) :
    Continued turns x x' := by
  rcases resumeStage_cases x.order with hsame | hagent
  · exact .of_same hid (hstage.trans hsame.symm) hartifact hresults hrecord
  · exact .of_stage hstage (by rw [hagent]; simp)

theorem SentBack.retains {s s' : Stage} {r r' : Results} (h : SentBack s r s' r')
    (hreview : s'.reviewable = true) :
    s.reviewable = true ∧ r'.strategy = r.strategy ∧ (s'.pastReview = true →
      s.pastReview = true ∧ r'.reviewImplementation = r.reviewImplementation) := by
  cases h with
  | same => exact ⟨hreview, rfl, fun hp => ⟨hp, rfl⟩⟩
  | maintenance => cases hreview
  | dataset _ hs => rcases hs with rfl | rfl <;> exact ⟨rfl, rfl, fun _ => ⟨rfl, rfl⟩⟩
  | prepared _ _ hs => rcases hs with rfl | rfl <;> exact ⟨rfl, rfl, fun _ => ⟨rfl, rfl⟩⟩
  | implemented => cases hreview
  | unreviewed stage =>
    cases stage with
    | reviewImplementation => exact ⟨rfl, rfl, nofun⟩
    | reviewBacktest => exact ⟨rfl, rfl, fun _ => ⟨rfl, rfl⟩⟩
  | rejected stage =>
    cases stage with
    | reviewImplementation => cases hreview
    | reviewBacktest => exact ⟨rfl, rfl, fun _ => ⟨rfl, rfl⟩⟩
  | optimized => exact ⟨rfl, rfl, fun _ => ⟨rfl, rfl⟩⟩

theorem Outcome.retains {identifier : String} {s s' : Stage} {r r' : Results} {status : Status}
    (h : Outcome turns identifier s r status s' r') (hreview : s'.reviewable = true) :
    (s = .strategy ∧ s' = .reviewImplementation ∧ status = .working) ∨
      (s.reviewable = true ∧ r'.strategy = r.strategy ∧ (s'.pastReview = true →
        Passed turns identifier .reviewImplementation r' ∨
          (s.pastReview = true ∧ r'.reviewImplementation = r.reviewImplementation))) := by
  cases h with
  | prepared _ _ hs =>
    rcases hs with rfl | rfl <;> exact .inr ⟨rfl, rfl, fun _ => .inr ⟨rfl, rfl⟩⟩
  | implemented => exact .inl ⟨rfl, rfl, rfl⟩
  | implementationGate _ _ hp => exact .inr ⟨rfl, rfl, fun _ => .inl hp⟩
  | sentBack _ _ hback =>
    obtain ⟨hs, hstrategy, hpast⟩ := hback.retains hreview
    exact .inr ⟨hs, hstrategy, fun hp => .inr (hpast hp)⟩
  | failed => cases hreview
  | cancelled => cases hreview
  | backtested => exact .inr ⟨rfl, rfl, fun _ => .inr ⟨rfl, rfl⟩⟩
  | optimizing => exact .inr ⟨rfl, rfl, fun _ => .inr ⟨rfl, rfl⟩⟩
  | backtestGate => exact .inr ⟨rfl, rfl, fun _ => .inr ⟨rfl, rfl⟩⟩
  | optimizationGate => exact .inr ⟨rfl, rfl, fun _ => .inr ⟨rfl, rfl⟩⟩

structure Implemented (x x' : Entry) : Prop where
  before : x.order.stage = some .strategy
  after : x'.order.stage = some .reviewImplementation
  recorded : x'.order.artifactVersion.isSome = true →
    ∃ record, x'.record = some record ∧ record.Names x'.order

theorem Worked.continued (hw : Worked turns x x') :
    Implemented x x' ∨ Continued turns x x' := by
  obtain ⟨s, s', hs, hs', hout⟩ := hw.outcome
  cases hreview : s'.reviewable with
  | false => exact .inr (.of_stage hs' hreview)
  | true =>
    rcases hout.retains hreview with ⟨rfl, rfl, hworking⟩ | ⟨hbefore, hstrategy, hpast⟩
    · exact .inl ⟨hs, hs', hw.recorded hworking hs'⟩
    · right
      intro t ht _
      rw [hs'] at ht
      obtain rfl := Option.some.inj ht
      refine ⟨s, hs, hbefore, hw.frame.id, hw.artifact ?_, hstrategy, hw.keepsRecord, ?_⟩
      · rw [hs]
        rintro h
        obtain rfl := Option.some.inj h
        cases hbefore
      · rw [hw.frame.id]
        exact hpast

theorem Continued.decided {gate : ApprovalGate} {approved : Bool} {note : String}
    {next : WorkOrder} (hfits : x.order.status.Fits x.order.stage)
    (h : x.order.approval gate approved note = .ok next) :
    Continued turns x ⟨next, x.record⟩ := by
  have hid := x.order.approval_id h
  obtain ⟨hstatus, moved, hmoved, rfl⟩ := x.order.approval_eq_ok h
  have hstage : ∃ s, x.order.stage = some s ∧ s.pastReview = true := by
    rw [hstatus] at hfits
    cases gate with
    | implementation => exact ⟨_, hfits, rfl⟩
    | optimization => exact ⟨_, hfits, rfl⟩
    | backtest => exact ⟨_, hfits, rfl⟩
    | live => exact ⟨_, hfits, rfl⟩
  obtain ⟨s, hs, hpast⟩ := hstage
  have hkept : ∀ {order : WorkOrder}, order.id = x.order.id → order.artifact = x.order.artifact →
      order.results.strategy = x.order.results.strategy →
      order.results.reviewImplementation = x.order.results.reviewImplementation →
      Continued turns x ⟨order, x.record⟩ := fun hid ha hst hr =>
    .of_past hid hs hpast ha hst hr (.of_record rfl)
  unfold WorkOrder.decided at hmoved
  cases gate with
  | implementation =>
    cases approved with
    | false =>
      obtain rfl := Except.ok.inj hmoved
      exact .of_stage rfl rfl
    | true =>
      dsimp only at hmoved
      split at hmoved
      · obtain rfl := Except.ok.inj hmoved
        exact hkept hid rfl rfl rfl
      · obtain rfl := Except.ok.inj hmoved
        exact hkept hid rfl rfl rfl
  | optimization =>
    dsimp only at hmoved
    split at hmoved
    · cases hmoved
    · split at hmoved
      · cases hmoved
      · split at hmoved
        · obtain rfl := Except.ok.inj hmoved
          exact .of_stage rfl rfl
        · obtain rfl := Except.ok.inj hmoved
          exact hkept hid rfl rfl rfl
  | backtest =>
    cases approved with
    | false =>
      obtain rfl := Except.ok.inj hmoved
      exact hkept hid rfl rfl rfl
    | true =>
      obtain rfl := Except.ok.inj hmoved
      exact hkept hid rfl rfl rfl
  | live =>
    cases approved with
    | false =>
      obtain rfl := Except.ok.inj hmoved
      exact hkept hid rfl rfl rfl
    | true =>
      obtain rfl := Except.ok.inj hmoved
      exact hkept hid rfl rfl rfl

theorem quotaResumed_continued (turns : List AgentTurn) (x : Entry) (identifier : Option String) :
    Continued turns x ⟨x.order.quotaResumed identifier, x.record⟩ := by
  unfold WorkOrder.quotaResumed
  split
  · exact .of_same rfl rfl rfl rfl rfl
  · exact .refl x

theorem Recovery.id (h : Recovery config outside allowed x x') : x'.order.id = x.order.id := by
  cases h <;> simp

theorem Continued.recovery (he : Evidenced x.order) (hallowed : ¬ allowed x)
    (h : Recovery config outside allowed x x') : Continued turns x x' := by
  have hid := h.id
  cases h with
  | migrated =>
    unfold WorkOrder.migrateOptimization
    split
    · exact .refl x
    · exact .of_same rfl rfl rfl rfl rfl
  | interrupted =>
    unfold WorkOrder.recoverInterrupted
    split
    · exact .of_resumed rfl rfl rfl rfl rfl
    · exact .refl x
  | optimizerStage _ hal => exact absurd hal hallowed
  | passedReview =>
    rw [WorkOrder.recoverPassedReview,
      if_neg (not_passedReviewDeadLetter_of_lastError he.lastError)]
    exact .refl x
  | failedReview =>
    cases hf : x.order.failedReview with
    | none =>
      rw [recoverFailedReview_of_none config hf]
      exact .refl x
    | some failed =>
      obtain ⟨stage, review⟩ := failed
      obtain ⟨_, hstage, hresults, hartifact, _⟩ := recoverFailedReview_spec config hf
      cases stage with
      | reviewImplementation => exact .of_stage hstage rfl
      | reviewBacktest =>
        have hgate : x.order.stage = some .backtestApproval := by
          have hopen := (failedReview_eq_some hf).1
          have hfits := he.fits
          unfold WorkOrder.openedBy at hopen
          split at hopen
          · cases hopen
          · rename_i hs
            rw [hs] at hfits
            exact hfits
          · cases hopen
        refine .of_past hid hgate rfl hartifact ?_ ?_ (.of_record rfl)
        · dsimp only
          rw [hresults]
        · dsimp only
          rw [hresults]
  | completedOptimize results hc =>
    obtain ⟨_, hs, evidence, _, rfl⟩ := completedBacktest_eq_some hc
    exact .of_past rfl hs rfl rfl rfl rfl (.of_record rfl)
  | completedGate results record hc hrecord =>
    obtain ⟨_, hs, evidence, _, rfl⟩ := completedBacktest_eq_some hc
    exact .of_past rfl hs rfl rfl rfl rfl hrecord
  | cleared =>
    unfold WorkOrder.clearTerminalRetry
    split
    · exact .refl x
    · exact .of_same rfl rfl rfl rfl rfl

theorem Continued.recovered (he : Evidenced x.order)
    (hallowed : ∀ y, y.order.id = x.order.id → ¬ allowed y)
    (h : Relation.ReflTransGen (Recovery config outside allowed) x x') : Continued turns x x' := by
  suffices hall : Evidenced x'.order ∧ x'.order.id = x.order.id ∧ Continued turns x x' from
    hall.2.2
  induction h with
  | refl => exact ⟨he, rfl, .refl x⟩
  | tail _ hr ih =>
    obtain ⟨he', hid, hc⟩ := ih
    exact ⟨he'.recovery hr, hr.id.trans hid, hc.trans (.recovery he' (hallowed _ hid) hr)⟩

theorem Moved.continued (he : Evidenced x.order)
    (hallowed : ∀ y, y.order.id = x.order.id → ¬ allowed y)
    (hretried : x'.order.remediationRetryCount = 0)
    (hm : Moved config input turns allowed x x') :
    Implemented x x' ∨ Continued turns x x' := by
  cases hm with
  | worked hw => exact hw.continued
  | claimed => exact .inr (.of_resumed rfl rfl rfl rfl rfl)
  | cancelled => exact .inr (.of_stage rfl rfl)
  | quotaResumed identifier => exact .inr (quotaResumed_continued _ x identifier)
  | decided _ ha => exact .inr (.decided he.fits ha)
  | retried => exact absurd hretried (Nat.succ_ne_zero _)
  | recovered _ hchain => exact .inr (.recovered he hallowed hchain)

end Moves

section Handoffs

variable {config : RunnerConfig} {outside : Outside} {input : Input} {turns : List AgentTurn}
  {g : Gateway} {d d' : Durable} {x x' w y : Entry} {e : Execution} {allowed : Entry → Prop}

theorem Continued.not_implemented (h : Continued turns x x') : ¬ Implemented x x' := by
  intro hi
  obtain ⟨s, hs, hreview, _⟩ := h _ hi.after rfl
  rw [hi.before] at hs
  obtain rfl := Option.some.inj hs
  cases hreview

theorem kept_not_implemented (hx : x ∈ d) (hmem : x' ∈ d) (hid : x'.order.id = x.order.id) :
    ¬ Implemented x x' := by
  intro h
  have hbefore := h.before
  rw [← Durable.eq_of_mem hmem hx hid, h.after] at hbefore
  cases hbefore

theorem rewritten_not_implemented (hx : x ∈ d) (hr : Rewritten d d' y)
    (hy : y.order.stage ≠ some .reviewImplementation) (hx' : x' ∈ d')
    (hid : x'.order.id = x.order.id) : ¬ Implemented x x' := by
  rcases (hr x').mp hx' with rfl | ⟨hmem, _⟩
  · exact fun h => hy h.after
  · exact kept_not_implemented hx hmem hid

theorem continued_not_implemented (hx : x ∈ d) (hw : w ∈ d) (hr : Rewritten d d' y)
    (hyw : y.order.id = w.order.id) (hc : Continued [] w y) (hx' : x' ∈ d')
    (hid : x'.order.id = x.order.id) : ¬ Implemented x x' := by
  rcases (hr x').mp hx' with rfl | ⟨hmem, _⟩
  · rw [Durable.eq_of_mem hx hw (hid.symm.trans hyw)]
    exact hc.not_implemented
  · exact kept_not_implemented hx hmem hid

theorem executed_not_implemented (hx : x ∈ d) (hw : w ∈ d) (hf : Follows e w.order)
    (hchanges : d.ChangesOnly w.order.id d')
    (hstage : w.order.stage = some .strategy →
      ∀ order, d'.find e.order.id = some order → order.stage ≠ some .reviewImplementation)
    (hx' : x' ∈ d') (hid : x'.order.id = x.order.id) : ¬ Implemented x x' := by
  rcases hchanges x' hx' with hmem | hwid
  · exact kept_not_implemented hx hmem hid
  · intro h
    obtain rfl := Durable.eq_of_mem hx hw (hid.symm.trans hwid)
    refine hstage h.before x'.order ?_ h.after
    rw [hf.id, ← hid]
    exact Durable.find_mem hx'

theorem Follows.atStrategy {order : WorkOrder} (h : Follows e order)
    (hstage : order.stage = some .strategy) : e.stage = .strategy ∨ e.stage = .maintenance := by
  rcases h.stage with hs | ⟨hm, _⟩
  · rw [hstage] at hs
    exact .inl (Option.some.inj hs).symm
  · exact .inr hm

theorem begin_of_strategy (config : RunnerConfig) {order : WorkOrder}
    (hstage : order.stage = some .strategy) :
    (g.proceed config outside order.id ((Execution.ofClaimed order).begin outside g.durable)).durable =
      g.durable := by
  have he : (Execution.ofClaimed order).stage = .strategy := by simp [Execution.ofClaimed, hstage]
  unfold Execution.begin
  split
  · rfl
  · simp only [he, Execution.dispatch]
    rfl

theorem begin_not_implemented (hT : g.Tracks) (hx : x ∈ g.durable)
    (hx' : x' ∈ (g.begin config outside).durable) (hid : x'.order.id = x.order.id) :
    ¬ Implemented x x' := by
  unfold Gateway.begin at hx'
  split at hx'
  case h_1 order hclaimed =>
    simp only [Gateway.Tracks, hclaimed] at hT
    obtain ⟨w, hw, rfl, hworking, hstage⟩ := hT
    have hf := Follows.ofClaimed hworking hstage
    have hseg : ((Execution.ofClaimed w.order).begin outside g.durable).Spec [] g.durable w :=
      begin_spec hw hworking hstage
    refine executed_not_implemented hx hw hf (proceed_changesOnly hseg) ?_ hx' hid
    intro hs order horder
    rw [begin_of_strategy config hs] at horder
    obtain ⟨hmem, hoid⟩ := Durable.find_eq_some.mp horder
    have heq : order = w.order := Keyed.eq_of_mem hmem hw.1 hoid
    rw [heq, hs]
    decide
  case h_2 => exact kept_not_implemented hx hx' hid

theorem raise_not_implemented (failure : Failure) (hT : g.Tracks) (hx : x ∈ g.durable)
    (hx' : x' ∈ (g.raise config outside failure).durable) (hid : x'.order.id = x.order.id) :
    ¬ Implemented x x' := by
  unfold Gateway.raise at hx'
  split at hx'
  case h_1 e on hrunning =>
    obtain ⟨w, hw, hf, _⟩ := hT.running hrunning
    by_cases hyears : failure.OutOfYears outside
    · obtain ⟨hkept, _⟩ := handle_outOfYears config hw hf.id hyears
      rcases (hkept x').mp hx' with rfl | ⟨hx', _⟩
      · exact kept_not_implemented hx hw hid
      · exact kept_not_implemented hx hx' hid
    obtain ⟨z, hr, hworked⟩ := handle_spec config [] (.self hw) hf.interrupted hyears
    refine executed_not_implemented hx hw hf (hr.changesOnly hworked.frame.id) ?_ hx' hid
    intro hs order horder
    have hfind : g.durable.find e.order.id = some w.order := by
      rw [hf.id]
      exact Durable.find_mem hw
    obtain ⟨next, hnext, _, hstage⟩ := find_handle config e hyears hfind
    obtain rfl := Option.some.inj (hnext.symm.trans horder)
    rcases hstage with hstage | hstage
    · rw [hstage]
      rcases hf.atStrategy hs with hs | hs <;> simp [hs]
    · simp [hstage]
  case h_2 => exact kept_not_implemented hx hx' hid

theorem acquisitionFailed_not_implemented (detail : String) (hT : g.Tracks) (hx : x ∈ g.durable)
    (hx' : x' ∈ (g.acquisitionFailed config outside detail).durable)
    (hid : x'.order.id = x.order.id) : ¬ Implemented x x' := by
  unfold Gateway.acquisitionFailed at hx'
  split at hx'
  case h_1 e hrunning =>
    obtain ⟨w, hw, hf, hfits⟩ := hT.running hrunning
    obtain ⟨z, hr, hworked⟩ := acquisitionFailed_spec config outside [] hw hf hfits detail
    refine executed_not_implemented hx hw hf (hr.changesOnly hworked.frame.id) ?_ hx' hid
    intro hs
    have he := hf.atStrategy hs
    rcases hfits with hd | hd <;> simp [hd] at he
  case h_2 => exact kept_not_implemented hx hx' hid

theorem cancelWorker_not_implemented (hT : g.Tracks) (hx : x ∈ g.durable)
    (hx' : x' ∈ (g.cancelWorker config outside).durable) (hid : x'.order.id = x.order.id) :
    ¬ Implemented x x' := by
  unfold Gateway.cancelWorker at hx'
  split at hx'
  case h_1 e on hrunning =>
    obtain ⟨w, hw, hf, _⟩ := hT.running hrunning
    obtain ⟨z, hr, hworked⟩ :=
      cancelled_spec config outside [] hw hf (e.order.id ∈ g.cancelRequested)
    refine executed_not_implemented hx hw hf (hr.changesOnly hworked.frame.id) ?_ hx' hid
    intro hs order horder
    unfold Execution.cancelled at horder
    split at horder
    · rw [find_finish] at horder
      obtain ⟨before, _, rfl⟩ := Option.map_eq_some_iff.mp horder
      simp [WorkOrder.finished]
    · rw [find_requeue] at horder
      obtain ⟨before, _, rfl⟩ := Option.map_eq_some_iff.mp horder
      rcases hf.atStrategy hs with hs | hs <;> simp [hs]
  case h_2 => exact kept_not_implemented hx hx' hid
  case h_3 => exact kept_not_implemented hx hx' hid

theorem reply_not_implemented (text : String) (hT : g.Tracks) (hx : x ∈ g.durable)
    (hnone : ∀ e prior, g.worker ≠ .running e (.turn (.strategy prior)))
    (hx' : x' ∈ (g.reply config outside text).durable) (hid : x'.order.id = x.order.id) :
    ¬ Implemented x x' := by
  unfold Gateway.reply at hx'
  split at hx'
  case h_1 e on hrunning =>
    obtain ⟨w, hw, hf, hfits⟩ := hT.running hrunning
    obtain ⟨turns, hseg⟩ := exists_resume_spec config outside text hw hf hfits
    have hchanges : g.durable.ChangesOnly w.order.id
        (g.proceed config outside e.order.id (e.resume config outside on text g.durable)).durable := by
      rw [hf.id]
      exact proceed_changesOnly hseg
    refine executed_not_implemented hx hw hf hchanges ?_ hx' hid
    intro hs order horder
    have he := hf.atStrategy hs
    cases on with
    | dataset => rcases hfits with hd | hd <;> simp [hd] at he
    | turn turn =>
      cases turn with
      | strategy prior => exact absurd hrunning (hnone e prior)
      | review stage handoff =>
        rw [hfits.1] at he
        cases stage <;> simp [ReviewStage.stage] at he
      | backtest handoff =>
        have hb : e.stage = .backtest := hfits
        simp [hb] at he
      | optimize handoff =>
        have ho : e.stage = .optimize := hfits
        simp [ho] at he
      | maintenance =>
        simp only [Execution.resume, Gateway.proceed] at horder
        obtain ⟨hmem, hoid⟩ := Durable.find_eq_some.mp horder
        have heq : order = w.order := Keyed.eq_of_mem hmem hw.1 (hoid.trans hf.id)
        rw [heq, hs]
        decide
  case h_2 => exact kept_not_implemented hx hx' hid

theorem claim_not_implemented (now : ℤ) (hx : x ∈ g.durable) (hx' : x' ∈ (g.claim now).durable)
    (hid : x'.order.id = x.order.id) : ¬ Implemented x x' := by
  unfold Gateway.claim at hx'
  split at hx'
  case h_1 =>
    split at hx'
    · exact kept_not_implemented hx hx' hid
    · dsimp only at hx'
      split at hx'
      · exact kept_not_implemented hx hx' hid
      · rename_i order hdue
        have hmem : order ∈ g.durable.store.workOrders := List.mem_of_find?_eq_some hdue
        have ho : (⟨order, g.durable.artifacts.find order.id⟩ : Entry) ∈ g.durable := ⟨hmem, rfl⟩
        have hr := Rewritten.modify ho (·.claimed) fun _ => rfl
        exact continued_not_implemented hx ho hr rfl (.of_resumed rfl rfl rfl rfl rfl) hx' hid
  case h_2 => exact kept_not_implemented hx hx' hid

theorem step_not_implemented (hg : g.Evidenced) (hnone : g.completesStrategy input = none)
    (hrestores : g.RestoresOnly allowed input) (hx : x ∈ g.durable)
    (hallowed : ∀ y, y.order.id = x.order.id → ¬ allowed y) (hx' : x' ∈ (g.step config input).durable)
    (hid : x'.order.id = x.order.id) : ¬ Implemented x x' := by
  have hself := fun hmem => @kept_not_implemented g.durable x x' hx hmem hid
  have hT := hg.tracks
  unfold Gateway.step at hx'
  cases hevent : input.event with
  | create work stamp =>
    simp only [hevent] at hx'
    rcases create_back hx' with hmem | ⟨_, hfresh⟩
    · exact hself hmem
    · rw [hid, Durable.find_mem hx] at hfresh
      cases hfresh
  | start =>
    simp only [hevent, Gateway.start] at hx'
    split at hx' <;> exact hself hx'
  | recover =>
    simp only [hevent, Gateway.recover] at hx'
    split at hx'
    · rename_i hstarting
      obtain ⟨w, hw, hwid, hchain⟩ := (recover_linked (hrestores hevent hstarting)).back x' hx'
      obtain rfl := Durable.eq_of_mem hx hw (hid.symm.trans hwid)
      have hc : Continued [] x x' := .recovered (hg.orders x hx) hallowed hchain
      exact hc.not_implemented
    · exact hself hx'
  | claim =>
    simp only [hevent] at hx'
    exact claim_not_implemented _ hx hx' hid
  | begin =>
    simp only [hevent] at hx'
    exact begin_not_implemented hT hx hx' hid
  | reply text =>
    simp only [hevent] at hx'
    refine reply_not_implemented text hT hx (fun e prior hworker => ?_) hx' hid
    simp [Gateway.completesStrategy, hevent, hworker] at hnone
  | acquisitionFailed detail =>
    simp only [hevent] at hx'
    exact acquisitionFailed_not_implemented detail hT hx hx' hid
  | raise failure =>
    simp only [hevent] at hx'
    exact raise_not_implemented failure hT hx hx' hid
  | close =>
    simp only [hevent, Gateway.close] at hx'
    split at hx' <;> exact hself hx'
  | cancel identifier =>
    simp only [hevent] at hx'
    rcases cancel_cases config input.outside g identifier with
      heq | ⟨w, _, _, ⟨_, heq⟩ | ⟨_, _, hr⟩⟩
    · rw [heq] at hx'
      exact hself hx'
    · rw [heq] at hx'
      have hT' : ({ g with cancelRequested := w.order.id :: g.cancelRequested } : Gateway).Tracks :=
        hT
      exact cancelWorker_not_implemented hT' hx hx' hid
    · exact rewritten_not_implemented hx hr (by simp [WorkOrder.cancelledIdle]) hx' hid
  | stop =>
    simp only [hevent, Gateway.stop] at hx'
    split at hx'
    · exact hself hx'
    · exact hself hx'
    · exact hself hx'
    · exact cancelWorker_not_implemented hT hx hx' hid
  | crash =>
    simp only [hevent] at hx'
    exact hself hx'
  | resumeQuota identifier =>
    simp only [hevent, Gateway.resumeQuota] at hx'
    split at hx'
    · exact hself hx'
    · have hmapped : x' ∈ g.durable.onStore
          (·.mapOrders (·.quotaResumed identifier) (by simp)) := hx'
      obtain ⟨w, hw, rfl⟩ := Durable.mem_mapOrders.mp hmapped
      rw [WorkOrder.quotaResumed_id] at hid
      obtain rfl := Durable.eq_of_mem hw hx hid
      exact (quotaResumed_continued [] w identifier).not_implemented
  | approve identifier gate approved note =>
    simp only [hevent] at hx'
    rcases approve_rewritten g identifier gate approved note with
      heq | ⟨w, hw, _, next, hnext, hr⟩
    · rw [heq] at hx'
      exact hself hx'
    · exact continued_not_implemented hx hw hr (w.order.approval_id hnext)
        (.decided (hg.orders w hw).fits hnext) hx' hid
  | retry identifier artifactId artifactVersion reason =>
    simp only [hevent] at hx'
    rcases retry_rewritten g input.outside identifier artifactId artifactVersion reason with
      heq | ⟨w, hw, _, _, hr⟩
    · rw [heq] at hx'
      exact hself hx'
    · refine rewritten_not_implemented hx hr ?_ hx' hid
      simp only [WorkOrder.retried]
      split
      · decide
      · cases w.order.agent <;> decide

end Handoffs

structure Implementation.HeldBy (i : Implementation) (x : Entry) : Prop where
  evidence : x.order.results.strategy = some i.evidence
  artifact : ∀ artifactId version, i.identified = some (artifactId, version) →
    x.order.artifact = (some artifactId, some version)
  recorded : x.order.artifactVersion.isSome = true →
    ∃ record, x.record = some record ∧ record.Names x.order

structure Binding.Sound (b : Binding) : Prop where
  evidenced : b.gateway.Evidenced
  known : ∀ i ∈ b.gateway.history.implementations,
    ∃ x ∈ b.gateway.durable, x.order.id = i.workOrder
  bound : ∀ i ∈ b.gateway.history.implementations, ∀ artifactId version,
    i.identified = some (artifactId, version) → i.bound = (some artifactId, some version)
  held : ∀ x ∈ b.gateway.durable, x.order.id ∉ b.disturbed → ∀ s, x.order.stage = some s →
    s.reviewable = true → ∀ i, b.gateway.history.lastImplementation x.order.id = some i →
      i.HeldBy x
  passed : ∀ x ∈ b.gateway.durable, x.order.id ∉ b.disturbed → ∀ s, x.order.stage = some s →
    s.pastReview = true →
      Passed b.gateway.history.turns x.order.id .reviewImplementation x.order.results

section Runs

variable {config : RunnerConfig} {input : Input} {b : Binding} {g : Gateway} {e : Execution}
  {text : String} {x x' : Entry}

theorem Stage.reviewable_of_past {s : Stage} (h : s.pastReview = true) : s.reviewable = true := by
  rw [reviewable, h, Bool.or_true]

theorem Binding.Sound.followsImplementation (h : b.Sound) : b.FollowsImplementation where
  bound := h.bound
  used := by
    intro e on hw
    obtain ⟨x, hx, hf, _⟩ := h.evidenced.tracks.running hw
    exact ⟨x, hx, hf.id.symm, hf.artifact⟩
  reviewed := by
    intro x hx hid s hs hpast i hi
    have hheld := h.held x hx hid s hs (Stage.reviewable_of_past hpast) i hi
    refine ⟨hheld.evidence, h.passed x hx hid s hs hpast, fun artifactId version hident => ?_⟩
    have ha := hheld.artifact artifactId version hident
    obtain ⟨haid, hav⟩ := Prod.mk.inj ha
    obtain ⟨record, hrec, hnames⟩ := hheld.recorded (by rw [hav]; rfl)
    obtain ⟨hversion, hartifact⟩ := hnames version hav
    exact ⟨ha, record, hrec, hartifact artifactId haid, hversion⟩

theorem Implementation.HeldBy.continued {i : Implementation} {turns : List AgentTurn}
    {s s' : Stage} (h : i.HeldBy x) (hc : Continues turns s s' x x') : i.HeldBy x' := by
  refine ⟨hc.strategy.trans h.evidence, fun a v hident => hc.artifact.trans (h.artifact a v hident),
    fun hv => ?_⟩
  have hversion := (Prod.mk.inj hc.artifact).2
  rw [hversion] at hv
  rcases hc.keepsRecord with hr | hr
  · obtain ⟨record, hrec, hnames⟩ := h.recorded hv
    exact ⟨record, hr.trans hrec, hnames.of_artifact hc.artifact⟩
  · exact hr

theorem implementations_step (h : g.completesStrategy input = none) :
    (g.step config input).history.implementations = g.history.implementations := by
  by_cases hreply : ∃ text, input.event = .reply text
  · obtain ⟨text, hevent⟩ := hreply
    simp only [Gateway.step, hevent, Gateway.reply]
    split
    case h_1 e on hw =>
      cases on with
      | dataset => rfl
      | turn turn =>
        cases turn with
        | strategy prior => simp [Gateway.completesStrategy, hevent, hw] at h
        | _ => rfl
    case h_2 => rfl
  · rw [step_history fun text h => hreply ⟨text, h⟩]

def Gateway.noteImplementation (after : Gateway) (input : Input) (e : Execution)
    (text : String) : Implementation where
  workOrder := e.order.id
  evidence := text
  identified := identifiedArtifact input.outside.manifests e.order text
  bound := ((after.durable.find e.order.id).map (·.artifact)).getD (none, none)

theorem implementations_reply (h : g.completesStrategy input = some (e, text)) :
    (g.step config input).history.implementations = g.history.implementations ++
      [(g.step config input).noteImplementation input e text] := by
  obtain ⟨hevent, prior, hw⟩ := completesStrategy_eq_some h
  simp only [Gateway.step, hevent, Gateway.reply, hw, Gateway.noteReply,
    Gateway.noteImplementation]

theorem lastImplementation_noted {history history' : History} {i : Implementation}
    (h : history'.implementations = history.implementations ++ [i]) (identifier : String) :
    history'.lastImplementation identifier =
      if i.workOrder = identifier then some i else history.lastImplementation identifier := by
  unfold History.lastImplementation
  rw [h, List.filter_append]
  split
  · rename_i heq
    simp [heq]
  · rename_i hne
    simp [hne]

theorem find_reply (hT : g.Tracks) (h : g.completesStrategy input = some (e, text)) :
    ∃ x ∈ g.durable, Follows e x.order ∧ x.order.stage = some .strategy ∧
      g.durable.ChangesOnly e.order.id (g.step config input).durable ∧
      ∃ next, (g.step config input).durable.find e.order.id = some next ∧
        next.artifact = (bindArtifactIdentity input.outside.manifests e.order text).artifact ∧
        ∀ s, next.stage = some s → s.reviewable = true →
          s = .reviewImplementation ∧ next.results.strategy = some text := by
  obtain ⟨hevent, prior, hw⟩ := completesStrategy_eq_some h
  obtain ⟨x, hx, hf, hstage⟩ := hT.running hw
  have hs : x.order.stage = some .strategy := by
    have he : e.stage = .strategy := hstage
    rw [hf.stage_eq (by rw [he]; decide), he]
  obtain ⟨turns, hseg⟩ := exists_resume_spec config input.outside text hx hf hstage
  have hchanges := @proceed_changesOnly config input.outside turns g x _ hseg
  rw [← hf.id] at hchanges
  have hdurable : (g.step config input).durable = (g.proceed config input.outside e.order.id
      (e.resume config input.outside (.turn (.strategy prior)) text g.durable)).durable := by
    simp only [Gateway.step, hevent, Gateway.reply, hw]
  rw [hdurable]
  exact ⟨x, hx, hf, hs, hchanges, find_implemented config input.outside hx hf hstage prior⟩

theorem noteImplementation_bound (hT : g.Tracks) (h : g.completesStrategy input = some (e, text)) :
    ((g.step config input).noteImplementation input e text).bound =
      (bindArtifactIdentity input.outside.manifests e.order text).artifact := by
  obtain ⟨_, _, _, _, _, next, hnext, ha, _⟩ := @find_reply config input g e text hT h
  simp only [Gateway.noteImplementation, hnext, Option.map_some, Option.getD_some, ha]

theorem undisturbed_step (h : x.order.id ∉ (b.step config input).disturbed) :
    x.order.id ∉ b.disturbed ∧
      (x ∈ (b.step config input).gateway.durable → x.order.remediationRetryCount = 0) := by
  simp only [Binding.step, List.mem_append, not_or] at h
  refine ⟨h.2, fun hx => ?_⟩
  by_contra hne
  apply h.1
  simp only [Binding.disturbs, List.mem_append, List.mem_map, List.mem_filter]
  exact .inl ⟨x.order, ⟨hx.1, by simpa using hne⟩, rfl⟩

theorem restoresOnly_disturbed (config : RunnerConfig) (b : Binding) (input : Input) :
    b.gateway.RestoresOnly (fun y => y.order.id ∈ (b.step config input).disturbed) input := by
  intro hevent hstarting y hy hreg
  simp only [Binding.step, Binding.disturbs, hevent, hstarting, List.mem_append, List.mem_map,
    List.mem_filter]
  exact .inl (.inr ⟨y.order, ⟨hy.1, by simpa using hreg⟩, rfl⟩)

theorem undisturbed_cases (h : b.Sound) (hx' : x' ∈ (b.step config input).gateway.durable)
    (hid : x'.order.id ∉ (b.step config input).disturbed) :
    x' ∈ b.gateway.durable ∨ Created b.gateway input x' ∨
      ∃ x ∈ b.gateway.durable, x'.order.id = x.order.id ∧
        ((Implemented x x' ∧ b.gateway.completesStrategy input ≠ none) ∨
          Continued (b.step config input).gateway.history.turns x x') := by
  obtain ⟨hold, hretried⟩ := undisturbed_step hid
  have hrestores := restoresOnly_disturbed config b input
  obtain ⟨hev, _⟩ := step_evolves hrestores h.evidenced.tracks
  rcases hev.back x' hx' with hx | hc | ⟨x, hx, hxid, hm⟩
  · exact .inl hx
  · exact .inr (.inl hc)
  · refine .inr (.inr ⟨x, hx, hxid, ?_⟩)
    have hallowed : ∀ y : Entry, y.order.id = x.order.id →
        ¬ y.order.id ∈ (b.step config input).disturbed := by
      intro y hy
      rwa [hy, ← hxid]
    rcases hm.continued (h.evidenced.orders x hx) hallowed (hretried hx') with hi | hc
    · refine .inl ⟨hi, fun hnone => ?_⟩
      exact step_not_implemented h.evidenced hnone hrestores hx hallowed hx' hxid hi
    · exact .inr hc

theorem passed_step (h : b.Sound) (hx' : x' ∈ (b.step config input).gateway.durable)
    (hid : x'.order.id ∉ (b.step config input).disturbed) {s : Stage}
    (hs : x'.order.stage = some s) (hpast : s.pastReview = true) :
    Passed (b.step config input).gateway.history.turns x'.order.id .reviewImplementation
      x'.order.results := by
  have hturns := turns_step config b.gateway input
  obtain ⟨hold, _⟩ := undisturbed_step hid
  rcases undisturbed_cases h hx' hid with hx | ⟨work, stamp, _, hcreated, _⟩ |
    ⟨x, hx, hxid, ⟨hi, _⟩ | hc⟩
  · exact (h.passed x' hx hold s hs hpast).mono hturns
  · obtain ⟨_, hn | hn, _⟩ := NewWork.order_spec hcreated
    · rw [hn] at hs
      cases hs
    · rw [hn] at hs
      obtain rfl := Option.some.inj hs
      cases hpast
  · have hafter := hi.after
    rw [hs] at hafter
    obtain rfl := Option.some.inj hafter
    cases hpast
  · obtain ⟨t, ht, _, hcont⟩ := hc s hs (Stage.reviewable_of_past hpast)
    rcases hcont.passed hpast with hp | ⟨htpast, hreview⟩
    · exact hp
    · rw [hxid] at hold ⊢
      exact ((h.passed x hx hold t ht htpast).congr hcont.strategy hreview).mono hturns

theorem held_step (h : b.Sound) (hnone : b.gateway.completesStrategy input = none)
    (hx' : x' ∈ (b.step config input).gateway.durable)
    (hid : x'.order.id ∉ (b.step config input).disturbed) {s : Stage}
    (hs : x'.order.stage = some s) (hreview : s.reviewable = true) {i : Implementation}
    (hi : (b.step config input).gateway.history.lastImplementation x'.order.id = some i) :
    i.HeldBy x' := by
  obtain ⟨hold, _⟩ := undisturbed_step hid
  have hsame : b.gateway.history.lastImplementation x'.order.id = some i := by
    rw [← hi]
    simp only [History.lastImplementation, Binding.step, implementations_step hnone]
  rcases undisturbed_cases h hx' hid with hx | ⟨_, _, _, _, hfresh⟩ |
    ⟨x, hx, hxid, ⟨_, hsome⟩ | hc⟩
  · exact h.held x' hx hold s hs hreview i hsame
  · have hmem := List.mem_of_getLast? hsame
    obtain ⟨himp, hwork⟩ := List.mem_filter.mp hmem
    obtain ⟨y, hy, hyid⟩ := h.known i himp
    rw [beq_iff_eq] at hwork
    rw [← hwork, ← hyid, Durable.find_mem hy] at hfresh
    cases hfresh
  · exact absurd hnone hsome
  · obtain ⟨t, ht, htreview, hcont⟩ := hc s hs hreview
    rw [hxid] at hold hsame
    exact (h.held x hx hold t ht htreview i hsame).continued hcont

theorem held_reply (h : b.Sound) (hguard : b.BindsHandoff input)
    (hreply : b.gateway.completesStrategy input = some (e, text))
    (hx' : x' ∈ (b.step config input).gateway.durable)
    (hid : x'.order.id ∉ (b.step config input).disturbed) {s : Stage}
    (hs : x'.order.stage = some s) (hreview : s.reviewable = true) {i : Implementation}
    (hi : (b.step config input).gateway.history.lastImplementation x'.order.id = some i) :
    i.HeldBy x' := by
  obtain ⟨hold, _⟩ := undisturbed_step hid
  obtain ⟨x, hx, hf, hstage, hchanges, next, hnext, hartifact, hstages⟩ :=
    @find_reply config input b.gateway e text h.evidenced.tracks hreply
  have hlast := lastImplementation_noted
    (@implementations_reply config input b.gateway e text hreply) x'.order.id
  have hi' := hlast.symm.trans hi
  split at hi'
  · rename_i hwork
    obtain rfl := Option.some.inj hi'
    have hxid : e.order.id = x'.order.id := hwork
    obtain rfl : next = x'.order := by
      rw [hxid] at hnext
      exact Option.some.inj (hnext.symm.trans (Durable.find_mem hx'))
    obtain ⟨rfl, hevidence⟩ := hstages s hs hreview
    refine ⟨hevidence, fun artifactId version hident => ?_, ?_⟩
    · rw [hartifact]
      exact (bindArtifactIdentity_artifact_iff hident).mpr (hguard e text hreply _ _ hident)
    · have hsame : ∀ y ∈ b.gateway.durable, y.order.id = x'.order.id → y = x := fun y hy hyid =>
        Durable.eq_of_mem hy hx (hyid.trans (hxid.symm.trans hf.id))
      rcases undisturbed_cases h hx' hid with hmem | ⟨_, _, _, _, hfresh⟩ |
        ⟨y, hy, hyid, ⟨hi, _⟩ | hc⟩
      · rw [hsame x' hmem rfl, hstage] at hs
        cases hs
      · rw [← hxid, hf.id, Durable.find_mem hx] at hfresh
        cases hfresh
      · exact hi.recorded
      · obtain ⟨t, ht, htreview, _⟩ := hc _ hs rfl
        rw [hsame y hy hyid.symm, hstage] at ht
        obtain rfl := Option.some.inj ht
        cases htreview
  · rename_i hwork
    have hx : x' ∈ b.gateway.durable :=
      (hchanges x' hx').resolve_right fun heq => hwork heq.symm
    exact h.held x' hx hold s hs hreview i hi'

theorem Binding.sound_step (h : b.Sound) (hguard : b.BindsHandoff input) :
    (b.step config input).Sound where
  evidenced := evidenced_step config input h.evidenced
  known := by
    have hrestores := restoresOnly_disturbed config b input
    obtain ⟨hev, _⟩ := step_evolves hrestores h.evidenced.tracks
    have hkept : ∀ x ∈ b.gateway.durable, ∃ x' ∈ (b.step config input).gateway.durable,
        x'.order.id = x.order.id := hev.forth
    intro i hi
    cases hreply : b.gateway.completesStrategy input with
    | none =>
      simp only [step, implementations_step hreply] at hi
      obtain ⟨x, hx, hid⟩ := h.known i hi
      obtain ⟨x', hx', hid'⟩ := hkept x hx
      exact ⟨x', hx', hid'.trans hid⟩
    | some handoff =>
      obtain ⟨e, text⟩ := handoff
      simp only [step, implementations_reply hreply, List.mem_append, List.mem_singleton] at hi
      rcases hi with hi | rfl
      · obtain ⟨x, hx, hid⟩ := h.known i hi
        obtain ⟨x', hx', hid'⟩ := hkept x hx
        exact ⟨x', hx', hid'.trans hid⟩
      · obtain ⟨_, _, _, _, _, next, hnext, _⟩ := find_reply h.evidenced.tracks hreply
        exact ⟨_, Durable.exists_mem hnext, (Durable.find_eq_some.mp hnext).2⟩
  bound := by
    intro i hi artifactId version hident
    cases hreply : b.gateway.completesStrategy input with
    | none =>
      simp only [step, implementations_step hreply] at hi
      exact h.bound i hi artifactId version hident
    | some handoff =>
      obtain ⟨e, text⟩ := handoff
      simp only [step, implementations_reply hreply, List.mem_append, List.mem_singleton] at hi
      rcases hi with hi | rfl
      · exact h.bound i hi artifactId version hident
      · rw [noteImplementation_bound h.evidenced.tracks hreply]
        exact (bindArtifactIdentity_artifact_iff hident).mpr (hguard e text hreply _ _ hident)
  held := by
    intro x' hx' hid s hs hreview i hi
    cases hreply : b.gateway.completesStrategy input with
    | none => exact held_step h hreply hx' hid hs hreview hi
    | some handoff => exact held_reply h hguard hreply hx' hid hs hreview hi
  passed := fun x' hx' hid s hs hpast => passed_step h hx' hid hs hpast

theorem Binding.not_follows_of_not_binds (h : b.Sound) (hguard : ¬ b.BindsHandoff input) :
    ¬ (b.step config input).FollowsImplementation := by
  simp only [BindsHandoff, not_forall] at hguard
  obtain ⟨e, text, hreply, artifactId, version, hident, hother⟩ := hguard
  intro hfollows
  apply hother
  rw [← bindArtifactIdentity_artifact_iff hident,
    ← @noteImplementation_bound config input b.gateway e text h.evidenced.tracks hreply]
  apply hfollows.bound _ _ artifactId version hident
  simp only [step, implementations_reply hreply]
  exact List.mem_append_right _ (List.mem_singleton_self _)

theorem Binding.sound_initial : ({} : Binding).Sound where
  evidenced := ⟨trivial, fun x hx => absurd hx (not_mem_initial x)⟩
  known := fun _ hi => absurd hi List.not_mem_nil
  bound := fun _ hi => absurd hi List.not_mem_nil
  held := fun x hx => absurd hx (not_mem_initial x)
  passed := fun x hx => absurd hx (not_mem_initial x)

end Runs

/-- In every state of a run the version binding follows the implementation exactly when each handoff
of the run that identifies a version comes to an order without a version, or with that one. -/
theorem artifactBinding_always_iff (config : RunnerConfig) (inputs : List Input) :
    (∀ before, before <+: inputs →
        (Run.run (Binding.step config) {} before).FollowsImplementation) ↔
      Run.Guarded (Binding.step config) Binding.BindsHandoff {} inputs := by
  apply Run.always_iff_guarded (fun _ => True) Binding.Sound
  · exact fun b h => h.followsImplementation
  · exact fun b input h _ hguard => Binding.sound_step h hguard
  · exact fun b input h _ hguard => Binding.not_follows_of_not_binds h hguard
  · exact Binding.sound_initial
  · exact fun _ _ => trivial

/-- The next version of the strategy `alpha`, implemented for the same order. -/
def nextAlphaManifest : ManifestFile :=
  { alphaManifest with
    path := "strategies/implemented/alpha/1.1.0.toml", stem := "1.1.0", version := some "1.1.0" }

def revisedAfterFail : List Event :=
  [.create (.research .strategy true .create none false) "1", .start, .recover, .claim, .begin,
    .reply "alpha@1.0.0",
    .reply (completeReport "FAIL" .reviewImplementation ++ "\nBLOCKER: [exit-rule] late exits"),
    .close, .claim, .begin, .reply "alpha@1.1.0"]

theorem not_follows_of_any {b : Binding}
    (h : (b.gateway.history.implementations.any fun i => i.identified.any fun identity =>
      i.bound != (some identity.1, some identity.2)) = true) : ¬ b.FollowsImplementation := by
  obtain ⟨i, hi, h⟩ := List.any_eq_true.mp h
  obtain ⟨identity, hident, hother⟩ := (Option.any_eq_true _ _).mp h
  intro hfollows
  rw [hfollows.bound i hi identity.1 identity.2 hident] at hother
  simp at hother

theorem revision_keeps_failed_version :
    ¬ (Run.run (Binding.step defaultRunner) {}
      (inputsOf { manifests := [alphaManifest, nextAlphaManifest] }
        revisedAfterFail)).FollowsImplementation :=
  not_follows_of_any (by decide +kernel)

end ChainQuantStudio.Studio
