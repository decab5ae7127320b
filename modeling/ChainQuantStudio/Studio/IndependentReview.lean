import ChainQuantStudio.Studio.ImplementationEvidence

/-!
# Independent Review before the user gates

An order gets to its implementation gate, to its optimizer and to its backtest gate through a Review
turn that passed what the order holds, unless a startup takes the place of the Review: one that
finishes a delayed backtest writes its own verdict, and one that restores an optimizer trusts the
verdict it finds.
-/

namespace ChainQuantStudio.Studio

def Stage.pastBacktestReview : Stage → Bool
  | .optimize | .optimizationApproval | .backtestApproval => true
  | _ => false

structure Warrants (turns : List AgentTurn) (V : WorkOrder → Prop) : Prop where
  congr : ∀ order next, next.id = order.id → next.results.backtest = order.results.backtest →
    next.results.reviewBacktest = order.results.reviewBacktest → V order → V next
  passed : ∀ order, Passed turns order.id .reviewBacktest order.results → V order

def Vetted (V : WorkOrder → Prop) (order : WorkOrder) : Prop :=
  ∀ s, order.stage = some s → s.pastBacktestReview = true → V order

section Order

variable {turns : List AgentTurn} {V : WorkOrder → Prop} {order next : WorkOrder}

theorem Outcome.atImplementationGate {identifier : String} {s s' : Stage} {r r' : Results}
    {status : Status} (h : Outcome turns identifier s r status s' r')
    (hstatus : status = .awaitingImplementationApproval) :
    Passed turns identifier .reviewImplementation r' := by
  cases h with
  | implementationGate _ _ hp => exact hp
  | sentBack _ hs _ =>
    rw [hstatus] at hs
    rcases hs with hs | hs | hs <;> cases hs
  | _ => cases hstatus

theorem Outcome.pastBacktestReview {identifier : String} {s s' : Stage} {r r' : Results}
    {status : Status} (h : Outcome turns identifier s r status s' r')
    (hpast : s'.pastBacktestReview = true) :
    Passed turns identifier .reviewBacktest r' ∨
      (s.pastBacktestReview = true ∧ r'.backtest = r.backtest ∧
        r'.reviewBacktest = r.reviewBacktest) := by
  cases h with
  | optimizing _ _ hp => exact .inl hp
  | backtestGate _ _ hp => exact .inl hp
  | optimizationGate => exact .inr ⟨rfl, rfl, rfl⟩
  | sentBack _ _ hback =>
    cases hback with
    | same => exact .inr ⟨hpast, rfl, rfl⟩
    | optimized => exact .inr ⟨rfl, rfl, rfl⟩
    | unreviewed stage => cases stage <;> cases hpast
    | rejected stage => cases stage <;> cases hpast
    | _ => cases hpast
  | _ => cases hpast

theorem Vetted.of_before {s : Stage} (hs : order.stage = some s)
    (hbefore : s.pastBacktestReview = false) : Vetted V order := by
  intro t ht hpast
  rw [hs] at ht
  obtain rfl := Option.some.inj ht
  rw [hbefore] at hpast
  cases hpast

theorem Vetted.of_condition (h : V order) : Vetted V order := fun _ _ _ => h

theorem Vetted.of_same (hV : Warrants turns V) (h : Vetted V order)
    (hid : next.id = order.id) (hstage : next.stage = order.stage)
    (hresults : next.results = order.results) : Vetted V next := by
  intro s hs hpast
  refine hV.congr order next hid ?_ ?_ (h s (by rw [← hstage, hs]) hpast)
  · rw [hresults]
  · rw [hresults]

theorem Vetted.worked (hV : Warrants turns V) {x x' : Entry} (h : Vetted V x.order)
    (hw : Worked turns x x') : Vetted V x'.order := by
  obtain ⟨s, s', hs, hs', hout⟩ := hw.outcome
  intro t ht hpast
  rw [hs'] at ht
  obtain rfl := Option.some.inj ht
  rcases hout.pastBacktestReview hpast with hp | ⟨hbefore, hb, hr⟩
  · apply hV.passed
    rw [hw.frame.id]
    exact hp
  · exact hV.congr x.order _ hw.frame.id hb hr (h s hs hbefore)

@[simp] theorem Agent.stage_pastBacktestReview (a : Agent) :
    a.stage.pastBacktestReview = false := by
  cases a <;> rfl

theorem Vetted.resumed (hV : Warrants turns V) (h : Vetted V order)
    (hid : next.id = order.id) (hresults : next.results = order.results)
    (hs : next.stage = some order.resumeStage) :
    Vetted V next := by
  rcases resumeStage_cases order with hsame | hagent
  · exact h.of_same hV hid (hs.trans hsame.symm) hresults
  · exact .of_before hs (by rw [hagent]; simp)

theorem Vetted.decided (hV : Warrants turns V) {gate : ApprovalGate} {approved : Bool}
    {note : String} (h : Vetted V order) (hfits : order.status.Fits order.stage)
    (ha : order.approval gate approved note = .ok next) : Vetted V next := by
  obtain ⟨hstatus, moved, hmoved, rfl⟩ := order.approval_eq_ok ha
  rw [hstatus] at hfits
  suffices hm : Vetted V moved from hm.of_same hV rfl rfl rfl
  unfold WorkOrder.decided at hmoved
  cases gate with
  | implementation =>
    cases approved with
    | false =>
      obtain rfl := Except.ok.inj hmoved
      exact .of_before rfl rfl
    | true =>
      dsimp only at hmoved
      split at hmoved
      · obtain rfl := Except.ok.inj hmoved
        exact .of_before rfl rfl
      · obtain rfl := Except.ok.inj hmoved
        exact .of_before rfl rfl
  | optimization =>
    dsimp only at hmoved
    split at hmoved
    · cases hmoved
    · split at hmoved
      · cases hmoved
      · split at hmoved
        · obtain rfl := Except.ok.inj hmoved
          exact .of_before rfl rfl
        · obtain rfl := Except.ok.inj hmoved
          have hv := h .optimizationApproval hfits rfl
          exact .of_condition (hV.congr order _ rfl rfl rfl hv)
  | backtest =>
    cases approved with
    | false =>
      obtain rfl := Except.ok.inj hmoved
      exact .of_before rfl rfl
    | true =>
      obtain rfl := Except.ok.inj hmoved
      exact .of_before rfl rfl
  | live =>
    cases approved with
    | false =>
      obtain rfl := Except.ok.inj hmoved
      exact .of_before rfl rfl
    | true =>
      obtain rfl := Except.ok.inj hmoved
      refine .of_before rfl ?_
      split <;> rfl

theorem Vetted.retried (artifactId artifactVersion reason : String) :
    Vetted V (order.retried artifactId artifactVersion reason) := by
  refine .of_before (s := if order.preservesImplementation artifactId artifactVersion then .backtest
    else order.agent.stage) rfl ?_
  split
  · rfl
  · simp

end Order

section Startup

variable {config : RunnerConfig} {input : Input} {outside : Outside} {turns : List AgentTurn}
  {allowed : Entry → Prop} {V : WorkOrder → Prop} {x x' : Entry}

theorem Vetted.recovery (hV : Warrants turns V) (hallowed : ∀ y, allowed y → V y.order)
    (hnative : x.order.delayedBacktest outside = true → ∀ next : WorkOrder,
      next.results.reviewBacktest = some WorkOrder.nativeReview → V next)
    (he : Evidenced x.order) (h : Vetted V x.order)
    (hr : Recovery config outside allowed x x') : Vetted V x'.order := by
  cases hr with
  | migrated =>
    dsimp only
    unfold WorkOrder.migrateOptimization
    split
    · exact h
    · exact h.of_same hV rfl rfl rfl
  | interrupted =>
    dsimp only
    unfold WorkOrder.recoverInterrupted
    split
    · exact h.resumed hV rfl rfl rfl
    · exact h
  | optimizerStage hreg hal =>
    dsimp only
    unfold WorkOrder.recoverOptimizerStage
    rw [if_pos hreg]
    exact .of_condition (hV.congr x.order _ rfl rfl rfl (hallowed x hal))
  | passedReview =>
    dsimp only
    rw [WorkOrder.recoverPassedReview,
      if_neg (not_passedReviewDeadLetter_of_lastError he.lastError)]
    exact h
  | failedReview =>
    dsimp only
    cases hf : x.order.failedReview with
    | none =>
      rw [recoverFailedReview_of_none config hf]
      exact h
    | some failed =>
      obtain ⟨stage, review⟩ := failed
      obtain ⟨_, hstage, _⟩ := recoverFailedReview_spec config hf
      refine .of_before hstage ?_
      cases stage <;> rfl
  | completedOptimize results hc =>
    obtain ⟨_, _, evidence, _, rfl⟩ := completedBacktest_eq_some hc
    exact .of_condition (hnative (WorkOrder.delayedBacktest_of_completed hc) _ rfl)
  | completedGate results record hc _ =>
    obtain ⟨_, _, evidence, _, rfl⟩ := completedBacktest_eq_some hc
    exact .of_condition (hnative (WorkOrder.delayedBacktest_of_completed hc) _ rfl)
  | cleared =>
    dsimp only
    unfold WorkOrder.clearTerminalRetry
    split
    · exact h
    · exact h.of_same hV rfl rfl rfl

theorem Vetted.recovered (hV : Warrants turns V) (hallowed : ∀ y, allowed y → V y.order)
    (hnative : x.order.delayedBacktest outside = true → ∀ next : WorkOrder,
      next.results.reviewBacktest = some WorkOrder.nativeReview → V next)
    (he : Evidenced x.order) (h : Vetted V x.order)
    (hchain : Relation.ReflTransGen (Recovery config outside allowed) x x') :
    Vetted V x'.order := by
  induction hchain using Relation.ReflTransGen.head_induction_on with
  | refl => exact h
  | head hr _ ih =>
    refine ih (fun hdelayed => ?_) (he.recovery hr) (h.recovery hV hallowed hnative he hr)
    exact hnative (WorkOrder.delayedBacktest_of_recovery hr hdelayed)

theorem Recovery.awaitingImplementation (he : Evidenced x.order)
    (hr : Recovery config outside allowed x x')
    (h : x'.order.status = .awaitingImplementationApproval) :
    x.order.status = .awaitingImplementationApproval ∧ x'.order.results = x.order.results := by
  cases hr with
  | migrated =>
    rw [x.order.migrateOptimization_status] at h
    refine ⟨h, ?_⟩
    dsimp only
    unfold WorkOrder.migrateOptimization
    split <;> rfl
  | interrupted =>
    dsimp only at h ⊢
    unfold WorkOrder.recoverInterrupted at h ⊢
    split
    · rename_i hworking
      rw [if_pos hworking] at h
      cases h
    · rename_i hworking
      rw [if_neg hworking] at h
      exact ⟨h, rfl⟩
  | optimizerStage hreg => simp [WorkOrder.recoverOptimizerStage, hreg] at h
  | passedReview =>
    dsimp only at h ⊢
    rw [WorkOrder.recoverPassedReview,
      if_neg (not_passedReviewDeadLetter_of_lastError he.lastError)] at h ⊢
    exact ⟨h, rfl⟩
  | failedReview =>
    dsimp only at h ⊢
    cases hf : x.order.failedReview with
    | none =>
      rw [recoverFailedReview_of_none config hf] at h ⊢
      exact ⟨h, rfl⟩
    | some failed =>
      obtain ⟨_, _, _, _, _, hs | hs | hs⟩ := recoverFailedReview_spec config hf <;>
        (rw [hs] at h; cases h)
  | completedOptimize => cases h
  | completedGate => cases h
  | cleared =>
    rw [x.order.clearTerminalRetry_status] at h
    exact ⟨h, x.order.clearTerminalRetry_results⟩

theorem Vetted.moved (hV : Warrants turns V) (hallowed : ∀ y, allowed y → V y.order)
    (hnative : input.event = .recover → x.order.delayedBacktest input.outside = true →
      ∀ next : WorkOrder, next.results.reviewBacktest = some WorkOrder.nativeReview → V next)
    (he : Evidenced x.order) (h : Vetted V x.order)
    (hm : Moved config input turns allowed x x') : Vetted V x'.order := by
  cases hm with
  | worked hw => exact h.worked hV hw
  | claimed => exact h.resumed hV rfl rfl rfl
  | cancelled => exact .of_before rfl rfl
  | quotaResumed =>
    dsimp only
    unfold WorkOrder.quotaResumed
    split
    · exact h.of_same hV rfl rfl rfl
    · exact h
  | decided _ ha => exact h.decided hV he.fits ha
  | retried => exact .retried _ _ _
  | recovered hevent hchain => exact h.recovered hV hallowed (hnative hevent) he hchain

theorem Moved.awaitingImplementation (he : Evidenced x.order)
    (hm : Moved config input turns allowed x x')
    (hevent : ∀ identifier gate approved note, input.event ≠ .approve identifier gate approved note)
    (h : x'.order.status = .awaitingImplementationApproval) :
    (x.order.status = .awaitingImplementationApproval ∧ x'.order.results = x.order.results) ∨
      Passed turns x'.order.id .reviewImplementation x'.order.results := by
  cases hm with
  | worked hw =>
    obtain ⟨_, _, _, _, hout⟩ := hw.outcome
    rw [hw.frame.id]
    exact .inr (hout.atImplementationGate h)
  | claimed => cases h
  | cancelled => cases h
  | quotaResumed identifier =>
    rw [x.order.quotaResumed_status] at h
    refine .inl ⟨h, ?_⟩
    dsimp only
    unfold WorkOrder.quotaResumed
    split <;> rfl
  | decided happrove => exact absurd happrove (hevent _ _ _ _)
  | retried => cases h
  | recovered _ hchain =>
    suffices hall : Evidenced x'.order ∧
        (x'.order.status = .awaitingImplementationApproval →
          x.order.status = .awaitingImplementationApproval ∧
            x'.order.results = x.order.results) from .inl (hall.2 h)
    clear h
    induction hchain with
    | refl => exact ⟨he, fun h => ⟨h, rfl⟩⟩
    | tail _ hr ih =>
      refine ⟨ih.1.recovery hr, fun h => ?_⟩
      obtain ⟨hstatus, hresults⟩ := hr.awaitingImplementation ih.1 h
      obtain ⟨hx, hsame⟩ := ih.2 hstatus
      exact ⟨hx, hresults.trans hsame⟩

end Startup

theorem Passed.mono {turns turns' : List AgentTurn} {identifier : String} {stage : ReviewStage}
    {results : Results} (hturns : turns ⊆ turns') (h : Passed turns identifier stage results) :
    Passed turns' identifier stage results := by
  obtain ⟨handoff, report, hh, hr, hpass, hlog⟩ := h
  exact ⟨handoff, report, hh, hr, hpass, hturns hlog⟩

def HoldsPass (order : WorkOrder) : Prop :=
  ∃ report, order.results.reviewBacktest = some report ∧
    (reviewOutcome report .reviewBacktest = .pass ∨ report = WorkOrder.nativeReview)

def BacktestPassed (turns : List AgentTurn) (order : WorkOrder) : Prop :=
  Passed turns order.id .reviewBacktest order.results

theorem warrants_backtestPassed (turns : List AgentTurn) :
    Warrants turns (BacktestPassed turns) where
  congr := by
    rintro order next hid hb hr ⟨handoff, report, hh, hrep, hpass, hlog⟩
    refine ⟨handoff, report, hb.trans hh, hr.trans hrep, hpass, ?_⟩
    rw [hid]
    exact hlog
  passed := fun _ h => h

theorem warrants_holdsPass (turns : List AgentTurn) : Warrants turns HoldsPass where
  congr := by
    rintro order next _ _ hr ⟨report, hrep, hpass⟩
    exact ⟨report, hr.trans hrep, hpass⟩
  passed := by
    rintro order ⟨_, report, _, hrep, hpass, _⟩
    exact ⟨report, hrep, .inl hpass⟩

theorem BacktestPassed.not_native {turns : List AgentTurn} {order : WorkOrder}
    (h : BacktestPassed turns order) :
    order.results.reviewBacktest ≠ some WorkOrder.nativeReview := by
  obtain ⟨_, report, _, hreport, hpass, _⟩ := h
  have hreport' : order.results.reviewBacktest = some report := hreport
  rw [hreport']
  rintro hnative
  obtain rfl := Option.some.inj hnative
  rw [WorkOrder.nativeReview_incomplete] at hpass
  cases hpass

theorem HoldsPass.of_regression {order : WorkOrder} (h : order.optimizerRegression) :
    HoldsPass order := by
  have hpass := h.2.2.2.2.2.1
  obtain ⟨report, hr, hp⟩ := (Option.any_eq_true _ _).mp hpass
  exact ⟨report, hr, .inl (by simpa using hp)⟩

structure Gateway.Vetted (V : WorkOrder → Prop) (g : Gateway) : Prop where
  evidenced : g.Evidenced
  orders : ∀ x ∈ g.durable, Studio.Vetted V x.order

section Steps

variable {config : RunnerConfig} {input : Input} {g : Gateway} {V V' : WorkOrder → Prop}

theorem vetted_step (h : g.Vetted V) (hmono : ∀ order, V order → V' order)
    (hV : Warrants (g.step config input).history.turns V')
    (hrestored : g.RestoresOnly (fun x => V x.order) input)
    (hnative : input.event = .recover → ∀ x ∈ g.durable,
      x.order.delayedBacktest input.outside = true → ∀ next : WorkOrder,
        next.results.reviewBacktest = some WorkOrder.nativeReview → V' next) :
    (g.step config input).Vetted V' := by
  obtain ⟨hev, _⟩ := step_evolves hrestored h.evidenced.tracks
  refine ⟨evidenced_step config input h.evidenced, fun x' hx' => ?_⟩
  rcases hev.back x' hx' with hx | ⟨work, stamp, _, hcreated, _⟩ | ⟨x, hx, _, hm⟩
  · exact fun s hs hpast => hmono _ (h.orders x' hx s hs hpast)
  · obtain ⟨_, hn | hn, _⟩ := NewWork.order_spec hcreated
    · intro s hs
      rw [hn] at hs
      cases hs
    · exact .of_before hn rfl
  · have hx' : Studio.Vetted V' x.order := fun s hs hpast => hmono _ (h.orders x hx s hs hpast)
    exact hx'.moved hV (fun y hy => hmono _ hy) (fun hevent => hnative hevent x hx)
      (h.evidenced.orders x hx) hm

theorem Gateway.Vetted.gate (h : g.Vetted V) {x : Entry} (hx : x ∈ g.durable)
    (hgate : x.order.stage = some .optimize ∨ x.order.status = .awaitingOptimizationApproval ∨
      x.order.status = .awaitingBacktestApproval) : V x.order := by
  have hfits := (h.evidenced.orders x hx).fits
  rcases hgate with hs | hs | hs
  · exact h.orders x hx _ hs rfl
  · rw [hs] at hfits
    exact h.orders x hx _ hfits rfl
  · rw [hs] at hfits
    exact h.orders x hx _ hfits rfl

end Steps

theorem vetted_initial (V : WorkOrder → Prop) : ({} : Gateway).Vetted V :=
  ⟨⟨trivial, fun x hx => absurd hx (not_mem_initial x)⟩, fun x hx => absurd hx (not_mem_initial x)⟩

theorem holdsPass_step (config : RunnerConfig) (input : Input) {g : Gateway}
    (h : g.Vetted HoldsPass) : (g.step config input).Vetted HoldsPass := by
  have hrestored : g.RestoresOnly (fun x => HoldsPass x.order) input :=
    fun _ _ _ _ hreg => .of_regression hreg
  exact vetted_step h (fun _ hv => hv) (warrants_holdsPass _) hrestored
    fun _ _ _ _ _ hnative => ⟨_, hnative, .inr rfl⟩

def Gateway.EntersPassed (config : RunnerConfig) (g : Gateway) (input : Input)
    (stage : ReviewStage) (place : WorkOrder → Prop) : Prop :=
  ∀ x' ∈ (g.step config input).durable, place x'.order →
    (∃ x ∈ g.durable, x.order.id = x'.order.id ∧ place x.order ∧
      x'.order.results = x.order.results) ∨
    Passed (g.step config input).history.turns x'.order.id stage x'.order.results

/-- Review precedes the gates of the user, and the optimizer. A decision of the user may put an
order back at its implementation gate. -/
structure Gateway.ReviewPrecedesGates (config : RunnerConfig) (g : Gateway) (input : Input) :
    Prop where
  implementation : (∀ identifier gate approved note,
      input.event ≠ .approve identifier gate approved note) →
    g.EntersPassed config input .reviewImplementation (·.status = .awaitingImplementationApproval)
  optimizer : g.EntersPassed config input .reviewBacktest (·.stage = some .optimize)
  optimization :
    g.EntersPassed config input .reviewBacktest (·.status = .awaitingOptimizationApproval)
  backtest : g.EntersPassed config input .reviewBacktest (·.status = .awaitingBacktestApproval)

/-- The startup finishes no delayed backtest, and every optimizer it restores has the backtest that
its Review passed. -/
def Gateway.StartsReviewed (g : Gateway) (input : Input) : Prop :=
  input.event = .recover → g.worker = .starting →
    (∀ x ∈ g.durable, x.order.delayedBacktest input.outside = false) ∧
      ∀ x ∈ g.durable.resumed, x.order.optimizerRegression →
        Passed g.history.turns x.order.id .reviewBacktest x.order.results

section Converse

variable {config : RunnerConfig} {input : Input} {g : Gateway}

theorem recover_durable (hevent : input.event = .recover) (hstarting : g.worker = .starting) :
    (g.step config input).durable = (g.durable.recover config input.outside).1 := by
  simp only [Gateway.step, hevent, Gateway.recover, hstarting]

theorem step_of_not_starting (hevent : input.event = .recover) (h : g.worker ≠ .starting) :
    g.step config input = g := by
  simp only [Gateway.step, hevent, Gateway.recover]

theorem implementation_passed (he : g.Evidenced)
    (hevent : ∀ identifier gate approved note,
      input.event ≠ .approve identifier gate approved note) :
    g.EntersPassed config input .reviewImplementation
      (·.status = .awaitingImplementationApproval) := by
  intro x' hx' hstatus
  have hall : g.RestoresOnly (fun _ => True) input := fun _ _ _ _ _ => trivial
  obtain ⟨hmoves, _⟩ := @step_evolves config input (fun _ => True) g hall he.tracks
  rcases hmoves.back x' hx' with hx | ⟨work, stamp, _, hcreated, _⟩ | ⟨x, hx, hid, hm⟩
  · exact .inl ⟨x', hx, rfl, hstatus, rfl⟩
  · rw [(NewWork.order_spec hcreated).1] at hstatus
    cases hstatus
  · refine (hm.awaitingImplementation (he.orders x hx) hevent hstatus).imp_left fun hs => ?_
    exact ⟨x, hx, hid.symm, hs⟩

theorem backtestPassed_step (h : g.Vetted (BacktestPassed g.history.turns))
    (hguard : g.StartsReviewed input) :
    (g.step config input).Vetted (BacktestPassed (g.step config input).history.turns) := by
  by_cases hidle : input.event = .recover ∧ g.worker ≠ .starting
  · rw [step_of_not_starting hidle.1 hidle.2]
    exact h
  · have hstarting : input.event = .recover → g.worker = .starting := fun hevent =>
      not_not.mp fun hw => hidle ⟨hevent, hw⟩
    refine vetted_step h (fun _ hpassed => hpassed.mono (turns_step config g input))
      (warrants_backtestPassed _) (fun hevent hw => (hguard hevent hw).2)
      fun hevent x hx hdelayed => ?_
    rw [(hguard hevent (hstarting hevent)).1 x hx] at hdelayed
    cases hdelayed

theorem reviewPrecedesGates_of_vetted (he : g.Evidenced)
    (h : (g.step config input).Vetted (BacktestPassed (g.step config input).history.turns)) :
    g.ReviewPrecedesGates config input where
  implementation := implementation_passed he
  optimizer := fun _ hx' hs => .inr (h.gate hx' (.inl hs))
  optimization := fun _ hx' hs => .inr (h.gate hx' (.inr (.inl hs)))
  backtest := fun _ hx' hs => .inr (h.gate hx' (.inr (.inr hs)))

theorem not_precedes_of_delayed (hevent : input.event = .recover)
    (hstarting : g.worker = .starting) {x : Entry} (hx : x ∈ g.durable)
    (hdelayed : x.order.delayedBacktest input.outside = true) :
    ¬ g.ReviewPrecedesGates config input := by
  intro hprecedes
  obtain ⟨x₀, hx₀, hdelayed₀, y, hy, hid, hplace, hnative⟩ :=
    recover_delayed config hx hdelayed
  obtain ⟨hstatus₀, hstage₀⟩ := WorkOrder.stage_of_delayedBacktest hdelayed₀
  rw [← recover_durable hevent hstarting] at hy
  have hsame : ∀ z ∈ g.durable, z.order.id = y.order.id → z = x₀ := fun z hz hzy =>
    Durable.eq_of_mem hz hx₀ (hzy.trans hid)
  rcases hplace with hs | hs
  · rcases hprecedes.optimizer y hy hs with ⟨z, hz, hzy, hzs, _⟩ | hpassed
    · rw [hsame z hz hzy, hstage₀] at hzs
      cases hzs
    · exact BacktestPassed.not_native hpassed hnative
  · rcases hprecedes.backtest y hy hs with ⟨z, hz, hzy, hzs, _⟩ | hpassed
    · rw [hsame z hz hzy] at hzs
      rcases hstatus₀ with h | h <;> (rw [h] at hzs; cases hzs)
    · exact BacktestPassed.not_native hpassed hnative

theorem resumed_of_deadLetter {d : Durable} {x : Entry} (hx : x ∈ d.resumed)
    (hstatus : x.order.status = .deadLetter) :
    ∃ y ∈ d, y.order.id = x.order.id ∧ y.order.stage = x.order.stage := by
  obtain ⟨m, hm, rfl⟩ := Durable.mem_mapOrders.mp hx
  obtain ⟨y, hy, rfl⟩ := Durable.mem_mapOrders.mp hm
  refine ⟨y, hy, by simp, ?_⟩
  dsimp only at hstatus ⊢
  unfold WorkOrder.recoverInterrupted at hstatus ⊢
  split
  · rename_i hworking
    rw [if_pos hworking] at hstatus
    cases hstatus
  · unfold WorkOrder.migrateOptimization
    split <;> rfl

theorem not_precedes_of_regression (hevent : input.event = .recover)
    (hstarting : g.worker = .starting) {x : Entry} (hx : x ∈ g.durable.resumed)
    (hreg : x.order.optimizerRegression)
    (hstale : ¬ Passed g.history.turns x.order.id .reviewBacktest x.order.results) :
    ¬ g.ReviewPrecedesGates config input := by
  intro hprecedes
  obtain ⟨y, hy, hid, hstage⟩ := resumed_of_deadLetter hx hreg.1
  have hmem : (⟨x.order.recoverOptimizerStage config, x.record⟩ : Entry) ∈
      (g.step config input).durable := by
    rw [recover_durable hevent hstarting]
    exact recover_restored hx hreg
  have hturns : (g.step config input).history.turns = g.history.turns := by
    rw [step_history fun text hreply => by rw [hevent] at hreply; cases hreply]
  have hplace : (x.order.recoverOptimizerStage config).stage = some .optimize := by
    simp [WorkOrder.recoverOptimizerStage, hreg]
  have hresults : (x.order.recoverOptimizerStage config).results = x.order.results := by
    simp [WorkOrder.recoverOptimizerStage, hreg]
  rcases hprecedes.optimizer _ hmem hplace with ⟨z, hz, hzx, hzs, _⟩ | hpassed
  · have hzy : z = y := Durable.eq_of_mem hz hy (by
      rw [hzx, hid]
      exact x.order.recoverOptimizerStage_id config)
    rw [hzy, hstage, hreg.2.2.1] at hzs
    cases hzs
  · rw [hturns, hresults, x.order.recoverOptimizerStage_id config] at hpassed
    exact hstale hpassed

theorem not_precedes_of_not_reviewed (h : ¬ g.StartsReviewed input) :
    ¬ g.ReviewPrecedesGates config input := by
  simp only [Gateway.StartsReviewed, not_forall] at h
  obtain ⟨hevent, hstarting, hbad⟩ := h
  rcases not_and_or.mp hbad with hbad | hbad
  · obtain ⟨x, hx, hdelayed⟩ : ∃ x ∈ g.durable,
        x.order.delayedBacktest input.outside = true := by simpa using hbad
    exact not_precedes_of_delayed hevent hstarting hx hdelayed
  · simp only [not_forall] at hbad
    obtain ⟨x, hx, hreg, hstale⟩ := hbad
    exact not_precedes_of_regression hevent hstarting hx hreg hstale

end Converse

/-- Along every run, what a step puts at a gate of the user or at the optimizer has passed the
Review turn for it, exactly when no startup of the run finishes a delayed backtest or restores an
optimizer whose backtest is not the one that its Review passed. -/
theorem independentReview_precedes_gates_iff (config : RunnerConfig) (inputs : List Input) :
    (∀ before input, before ++ [input] <+: inputs →
        (Run.run (Gateway.step config) {} before).ReviewPrecedesGates config input) ↔
      Run.Guarded (Gateway.step config) Gateway.StartsReviewed {} inputs := by
  have hprefix := @Run.guarded_iff_forall_prefix _ _ (Gateway.step config)
    (fun g input => g.ReviewPrecedesGates config input) {} inputs
  rw [← hprefix]
  apply Run.guarded_iff_of_invariant fun g => g.Vetted (BacktestPassed g.history.turns)
  · intro g input h hguard
    exact backtestPassed_step h hguard
  · intro g input h
    constructor
    · intro hprecedes
      by_contra hguard
      exact not_precedes_of_not_reviewed hguard hprecedes
    · intro hguard
      exact reviewPrecedesGates_of_vetted h.evidenced (backtestPassed_step h hguard)
  · exact vetted_initial _

theorem not_precedes_of_any_delayed {config : RunnerConfig} {g : Gateway} {outside : Outside}
    (hstarting : g.worker = .starting)
    (h : g.durable.store.workOrders.entries.any (·.delayedBacktest outside) = true) :
    ¬ g.ReviewPrecedesGates config { event := .recover, outside := outside } := by
  obtain ⟨order, horder, hdelayed⟩ := List.any_eq_true.mp h
  exact not_precedes_of_delayed (x := ⟨order, g.durable.artifacts.find order.id⟩) rfl hstarting
    ⟨horder, rfl⟩ hdelayed

theorem not_precedes_of_any_stale {config : RunnerConfig} {g : Gateway} {outside : Outside}
    (hstarting : g.worker = .starting)
    (h : (g.durable.resumed.store.workOrders.entries.any fun order =>
      decide order.optimizerRegression && order.results.backtest.any fun handoff =>
        g.history.turns.all (·.turn != .review .reviewBacktest handoff)) = true) :
    ¬ g.ReviewPrecedesGates config { event := .recover, outside := outside } := by
  obtain ⟨order, horder, hstale⟩ := List.any_eq_true.mp h
  obtain ⟨hreg, hstale⟩ := Bool.and_eq_true_iff.mp hstale
  obtain ⟨handoff, hhandoff, hstale⟩ := (Option.any_eq_true _ _).mp hstale
  refine not_precedes_of_regression
    (x := ⟨order, g.durable.resumed.artifacts.find order.id⟩) rfl hstarting ⟨horder, rfl⟩
    (of_decide_eq_true hreg) ?_
  rintro ⟨handoff', report, hh, _, _, hturn⟩
  obtain rfl : handoff = handoff' := Option.some.inj (hhandoff.symm.trans hh)
  simpa using List.all_eq_true.mp hstale _ hturn

def quotaExhausted : List Event :=
  optimizerRemediation.take 12 ++ [.raise (runtimeError "usage limit reached"), .close]

def alphaRepaired : ManifestFile :=
  { alphaManifest with
    path := "strategies/implemented/alpha/1.1.0.toml"
    stem := "1.1.0"
    version := some "1.1.0" }

def staleVerdict : List Input :=
  inputsOf { manifests := [alphaManifest] }
    (optimizerRemediation.take 37 ++ [.claim, .begin, .reply "implemented again",
      .reply (completeReport "PASS" .reviewImplementation), .close,
      .approve "strategy-1" .implementation true "ok", .claim, .begin, .reply "backtested again",
      .raise .timeout, .close] ++ sixTimeouts.drop 4) ++
  inputsOf { manifests := [alphaManifest, alphaRepaired] }
    (.retry "strategy-1" "alpha" "1.1.0" "repaired" :: sixTimeouts)

/-- One startup sends the strategy to the optimizer with local evidence that no Review has seen,
another one with a backtest that the stored PASS was not given for. -/
theorem startup_bypasses_review :
    ¬ (Run.run (Gateway.step defaultRunner) {}
        (inputsOf { manifests := [alphaManifest] } (quotaExhausted ++ [.crash, .start]))
      ).ReviewPrecedesGates defaultRunner
        { event := .recover, outside := { localBacktestEvidence := fun _ _ => some "metrics" } } ∧
    ¬ (Run.run (Gateway.step defaultRunner) {}
        (staleVerdict ++ inputsOf {} [.crash, .start])).ReviewPrecedesGates defaultRunner
        { event := .recover, outside := {} } := by
  constructor
  · apply not_precedes_of_any_delayed
    · simp only [inputsOf, List.map_append, Run.run_append]
      rfl
    · decide +kernel
  · apply not_precedes_of_any_stale
    · rw [Run.run_append]
      rfl
    · decide +kernel

end ChainQuantStudio.Studio
