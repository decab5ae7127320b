import ChainQuantStudio.Studio.ImplementationEvidence
import ChainQuantStudio.Studio.WorkerLoop

/-!
# Failures behind the implementation gate

An order that fails, is dead-lettered or waits for its user at the backtest stages should keep what
the stages before checkpointed, so that a retry resumes it at Backtest. Review outcomes and timeouts
do; the handler of any other exception replaces the results, and a failed acquisition moves the
order to a stage that a retry does not resume.
-/

namespace ChainQuantStudio.Studio

open Relation (ReflTransGen)

namespace WorkOrder

variable (order : WorkOrder)

def atBacktest : Bool := order.stage == some .backtest || order.stage == some .reviewBacktest

end WorkOrder

def Results.Keeps (before after : Results) : Prop :=
  after = { before with reviewBacktest := after.reviewBacktest }

/-- The results of the earlier stages are kept, and a retry with the same artifact resumes the
order at Backtest with its implementation approval. -/
structure KeptForRetry (before after : WorkOrder) : Prop where
  results : before.results.Keeps after.results
  resumes : ∀ artifactId artifactVersion reason,
    before.artifact = (some artifactId, some artifactVersion) →
      (after.retried artifactId artifactVersion reason).status = .queued ∧
        (after.retried artifactId artifactVersion reason).stage = some .backtest ∧
        (after.retried artifactId artifactVersion reason).implementationApproval =
          before.implementationApproval

/-- The order still waits to be retried. -/
def Gateway.Waits (identifier : String) (g : Gateway) : Prop :=
  ∀ x ∈ g.durable, x.order.id = identifier → Gateway.retryable x.order.status = true

/-- The step fails an order behind its implementation gate, at one of the backtest stages. -/
structure FailsAtBacktest (order next : WorkOrder) : Prop where
  id : next.id = order.id
  strategy : order.agent = .strategy
  approved : order.implementationApproved = true
  before : Gateway.retryable order.status = false
  after : Gateway.retryable next.status = true
  stage : order.atBacktest = true ∨ next.atBacktest = true

/-- The failure goes through a requeue that leaves the order at its stage: a startup recovery, a
timeout, or a Review that did not pass. -/
def Gateway.FailsSoftly (g : Gateway) (input : Input) (order : WorkOrder) : Prop :=
  match input.event, g.worker with
  | .recover, _ | .raise .timeout, _ => True
  | .acquisitionFailed _, _ => order.artifactId = none ∨ order.artifactVersion = none
  | .reply text, .running _ (.turn (.review .reviewBacktest _)) =>
    reviewOutcome text .reviewBacktest ≠ .pass ∨
      artifactRecord input.outside order = .error .timeout
  | _, _ => False

theorem failsSoftly_of_timeout {g : Gateway} {input : Input} {order : WorkOrder}
    (h : input.event = .raise .timeout) : g.FailsSoftly input order := by
  simp [Gateway.FailsSoftly, h]

structure Stands (before after : WorkOrder) : Prop where
  agent : after.agent = .strategy
  approved : before.implementationApproved = true
  waits : Gateway.retryable after.status = true
  approval : after.implementationApproval = before.implementationApproval
  artifact : after.artifact = before.artifact
  keeps : before.results.Keeps after.results
  implemented : after.results.Implemented
  stage : after.atBacktest = true ∨ after.stage = some .dataset
  bound : ∀ artifactId artifactVersion,
    before.artifact = (some artifactId, some artifactVersion) → after.atBacktest = true
  lastError : after.lastError ≠ some WorkOrder.misreadReview

section Order

variable {before after next : WorkOrder}

theorem Results.Keeps.refl (r : Results) : r.Keeps r := rfl

theorem Results.Keeps.setReview (r : Results) (report : String) :
    r.Keeps (r.setReview report .reviewBacktest) := rfl

theorem WorkOrder.atBacktest_iff (order : WorkOrder) :
    order.atBacktest = true ↔ order.stage = some .backtest ∨ order.stage = some .reviewBacktest := by
  simp [atBacktest]

theorem Stands.kept (h : Stands before after) : KeptForRetry before after := by
  refine ⟨h.keeps, fun artifactId artifactVersion reason hartifact => ?_⟩
  have hbound := (after.atBacktest_iff).mp (h.bound _ _ hartifact)
  obtain ⟨hid, hversion⟩ := Prod.mk.inj (h.artifact.trans hartifact)
  have happroved : after.implementationApproval.any (·.approved) = true := by
    rw [h.approval]
    exact h.approved
  have hp : after.preservesImplementation artifactId artifactVersion :=
    ⟨h.agent, hbound, happroved, hid, hversion, h.implemented.strategy, h.implemented.review⟩
  refine ⟨rfl, by simp [WorkOrder.retried, hp], ?_⟩
  rw [← h.approval]
  simp only [WorkOrder.retried, if_pos hp, WorkOrder.implementationApproval]
  cases after.approvals <;> rfl

theorem retried_stage_of_not_atBacktest (h : after.atBacktest = false)
    (hagent : after.agent = .strategy) (artifactId artifactVersion reason : String) :
    (after.retried artifactId artifactVersion reason).stage = some .strategy := by
  have hp : ¬ after.preservesImplementation artifactId artifactVersion := by
    intro hp
    rw [(after.atBacktest_iff).mpr hp.2.1] at h
    cases h
  simp [WorkOrder.retried, hp, hagent, Agent.stage]

theorem Stands.of_same (h : Stands before after) (hagent : next.agent = after.agent)
    (hstatus : next.status = after.status)
    (happroval : next.implementationApproval = after.implementationApproval)
    (hartifact : next.artifact = after.artifact) (hresults : next.results = after.results)
    (hstage : next.stage = after.stage) (herror : next.lastError = after.lastError) :
    Stands before next := by
  have hat : next.atBacktest = after.atBacktest := by
    simp only [WorkOrder.atBacktest, hstage]
  refine ⟨hagent.trans h.agent, h.approved, ?_, happroval.trans h.approval,
    hartifact.trans h.artifact, ?_, ?_, ?_, ?_, ?_⟩
  · rw [hstatus]
    exact h.waits
  · rw [hresults]
    exact h.keeps
  · rw [hresults]
    exact h.implemented
  · rw [hat, hstage]
    exact h.stage
  · rw [hat]
    exact h.bound
  · rw [herror]
    exact h.lastError

theorem implementationApproval_migrateOptimization (order : WorkOrder) :
    order.migrateOptimization.implementationApproval = order.implementationApproval := by
  unfold WorkOrder.migrateOptimization
  split
  · rfl
  · unfold WorkOrder.implementationApproval
    cases order.approvals <;> rfl

theorem Stands.migrated (h : Stands before after) : Stands before after.migrateOptimization := by
  have happroval := implementationApproval_migrateOptimization after
  unfold WorkOrder.migrateOptimization at happroval ⊢
  split
  · exact h
  · rename_i hcond
    rw [if_neg hcond] at happroval
    exact h.of_same rfl rfl happroval rfl rfl rfl rfl

theorem Stands.cleared (h : Stands before after) : Stands before after.clearTerminalRetry := by
  unfold WorkOrder.clearTerminalRetry
  split
  · exact h
  · exact h.of_same rfl rfl rfl rfl rfl rfl rfl

theorem Stands.not_working (h : Stands before after) : after.status ≠ .working := by
  intro hs
  have hwaits := h.waits
  rw [hs] at hwaits
  cases hwaits

theorem Stands.not_queued (h : Stands before after) : after.status ≠ .queued := by
  intro hs
  have hwaits := h.waits
  rw [hs] at hwaits
  cases hwaits

theorem Stands.stage_ne (h : Stands before after) : after.stage ≠ some .strategy := by
  intro hs
  rcases h.stage with hat | hd
  · rw [after.atBacktest_iff, hs] at hat
    rcases hat with hat | hat <;> cases hat
  · rw [hs] at hd
    cases hd

theorem failedReview_of_retryable (h : Gateway.retryable after.status = true) :
    after.failedReview = none := by
  have hopen : after.openedBy = none := by
    unfold WorkOrder.openedBy
    split
    · rename_i hs
      rw [hs] at h
      cases h
    · rename_i hs
      rw [hs] at h
      cases h
    · rfl
  unfold WorkOrder.failedReview
  rw [hopen]
  rfl

theorem not_retryable_of_expected {gate : ApprovalGate} (h : after.status = gate.expected) :
    Gateway.retryable after.status = false := by
  rw [h]
  cases gate <;> rfl

end Order

theorem Stands.recovery {config : RunnerConfig} {outside : Outside} {allowed : Entry → Prop}
    {before : WorkOrder} {y z : Entry} (h : Stands before y.order)
    (hr : Recovery config outside allowed y z) : Stands before z.order := by
  cases hr with
  | migrated => exact h.migrated
  | interrupted =>
    dsimp only
    unfold WorkOrder.recoverInterrupted
    rw [if_neg h.not_working]
    exact h
  | optimizerStage hreg => exact absurd hreg.2.2.1 h.stage_ne
  | passedReview =>
    dsimp only
    rw [WorkOrder.recoverPassedReview,
      if_neg (not_passedReviewDeadLetter_of_lastError h.lastError)]
    exact h
  | failedReview =>
    dsimp only
    rw [recoverFailedReview_of_none config (failedReview_of_retryable h.waits)]
    exact h
  | completedOptimize results hc => exact absurd (completedBacktest_eq_some hc).1 h.not_queued
  | completedGate results record hc _ =>
    exact absurd (completedBacktest_eq_some hc).1 h.not_queued
  | cleared => exact h.cleared

theorem Stands.moved {config : RunnerConfig} {input : Input} {turns : List AgentTurn}
    {allowed : Entry → Prop} {before : WorkOrder} {y z : Entry} (h : Stands before y.order)
    (hwaits : Gateway.retryable z.order.status = true)
    (hm : Moved config input turns allowed y z) : Stands before z.order := by
  cases hm with
  | worked hw => exact absurd hw.working h.not_working
  | claimed hqueued => exact absurd hqueued h.not_queued
  | cancelled => cases hwaits
  | quotaResumed =>
    dsimp only
    unfold WorkOrder.quotaResumed
    rw [if_neg (fun hc => h.not_queued hc.1)]
    exact h
  | decided _ ha =>
    have hnot := not_retryable_of_expected (y.order.approval_eq_ok ha).1
    rw [h.waits] at hnot
    cases hnot
  | retried => cases hwaits
  | recovered _ hchain =>
    clear hwaits
    induction hchain with
    | refl => exact h
    | tail _ hr ih => exact ih.recovery hr

theorem stands_run {config : RunnerConfig} {before : WorkOrder} {identifier : String}
    {g : Gateway} (hT : g.Tracks) {x : Entry} (hx : x ∈ g.durable)
    (hid : x.order.id = identifier) (h : Stands before x.order) (later : List Input)
    (hwaits : ∀ initial, initial <+: later →
      (Run.run (Gateway.step config) g initial).Waits identifier) :
    ∀ y ∈ (Run.run (Gateway.step config) g later).durable, y.order.id = identifier →
      Stands before y.order := by
  induction later generalizing g x with
  | nil =>
    intro y hy hyid
    rw [Durable.eq_of_mem hy hx (hyid.trans hid.symm)]
    exact h
  | cons input later ih =>
    have hall : g.RestoresOnly (fun _ => True) input := fun _ _ _ _ _ => trivial
    obtain ⟨hev, hT'⟩ := @step_evolves config input (fun _ => True) g hall hT
    obtain ⟨x', hx', hid'⟩ := hev.forth x hx
    have hw : (g.step config input).Waits identifier := hwaits [input] (by simp)
    have hwx := hw x' hx' (hid'.trans hid)
    have hstands : Stands before x'.order := by
      rcases hev.back x' hx' with hsame | ⟨_, _, _, _, hfresh⟩ | ⟨w, hwm, hwid, hm⟩
      · rw [Durable.eq_of_mem hsame hx hid']
        exact h
      · rw [hid', Durable.find_mem hx] at hfresh
        cases hfresh
      · rw [Durable.eq_of_mem hwm hx (hwid.symm.trans hid')] at hm
        exact h.moved hwx hm
    refine ih hT' hx' (hid'.trans hid) hstands fun initial hi => ?_
    exact hwaits (input :: initial) ((List.prefix_cons_inj input).mpr hi)

end ChainQuantStudio.Studio
