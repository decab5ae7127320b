import ChainQuantStudio.Studio.IndependentReview
import ChainQuantStudio.Studio.Prompt
import ChainQuantStudio.Studio.ReviewReports

/-!
# Review blockers and their authors

A docket notes, beside the gateway, the report with which a Review sent an order back, until a newer
report of the stage replaces it or the user rejects or restarts the work. The author's next turns
get it as long as no approved optimization proposal and no native verdict of a startup takes the
place of the report.
-/

namespace ChainQuantStudio.Studio

open Relation (ReflTransGen)

def Await.Reads (s : Stage) (r : Results) (e : Execution) : Await → Prop
  | .turn (.strategy prior) => s = .strategy ∧
      prior = if truthy r.optimization then r.optimization else r.reviewImplementation
  | .turn (.backtest _) => e.order.results = e.results
  | _ => True

def Segment.Reads (identifier : String) (s : Stage) (r : Results) : Segment → Prop
  | .awaiting _ e on => e.order.id = identifier ∧ r.SameReports e.results ∧ on.Reads s r e
  | _ => True

section Reading

variable {config : RunnerConfig} {outside : Outside} {r : Results} {d : Durable} {e : Execution}
  {s : Stage}

theorem Results.SameReports.trans {r₁ r₂ : Results} (h : r.SameReports r₁)
    (h' : r₁.SameReports r₂) : r.SameReports r₂ :=
  ⟨h'.implementation.trans h.implementation, h'.backtest.trans h.backtest⟩

theorem Segment.Reads.of_ne {seg : Segment} {identifier : String} {s' : Stage} {r' : Results}
    (h : seg.Reads identifier s' r') (hne : s' ≠ .strategy) (hr : r.SameReports r') :
    seg.Reads identifier s r := by
  cases seg with
  | awaiting d e on =>
    obtain ⟨hid, hr', hon⟩ := h
    refine ⟨hid, hr.trans hr', ?_⟩
    unfold Await.Reads at hon ⊢
    split
    · exact absurd hon.1 hne
    · exact hon
    · trivial
  | returned => trivial
  | raised => trivial

theorem ofWrite_reads (identifier : String) (w : Durable × Option Failure) :
    (Segment.ofWrite e w).Reads identifier s r := by
  obtain ⟨d, _ | failure⟩ := w <;> trivial

theorem runOptimization_reads (hr : r.SameReports e.results) :
    (Execution.runOptimization d e).Reads e.order.id s r := by
  unfold Execution.runOptimization
  split
  · exact ⟨rfl, hr, trivial⟩
  · trivial

theorem dispatch_reads (h : e.order.results = e.results) :
    (Execution.dispatch d e).Reads e.order.id e.stage e.results := by
  unfold Execution.dispatch
  split
  case h_1 hs => exact ⟨rfl, .refl _, hs, rfl⟩
  case h_2 =>
    split
    · trivial
    · exact ⟨rfl, .refl _, trivial⟩
  case h_3 =>
    split
    · trivial
    · exact ⟨rfl, .refl _, h⟩
  case h_4 =>
    split
    · trivial
    · exact ⟨rfl, .refl _, trivial⟩
  case h_5 => exact runOptimization_reads (.refl _)
  case h_6 => trivial

theorem datasetReady_reads (hr : r.SameReports e.results) :
    (e.datasetReady outside d).Reads e.order.id s r := by
  unfold Execution.datasetReady
  split
  · trivial
  · rename_i d' _
    have h : (Execution.dispatch d' (e.withStage .backtest)).Reads e.order.id .backtest e.results :=
      dispatch_reads rfl
    exact h.of_ne (by decide) hr

theorem begin_reads (h : e.order.results = e.results) :
    (e.begin outside d).Reads e.order.id e.stage e.results := by
  unfold Execution.begin
  split
  · exact ⟨rfl, .refl _, trivial⟩
  · split
    · exact ⟨rfl, .refl _, trivial⟩
    · split
      · exact datasetReady_reads (.refl _)
      · exact dispatch_reads h

theorem completeReview_reads {stage : ReviewStage} {report : String} :
    (Execution.completeReview config outside stage report d e).Reads e.order.id s e.results := by
  unfold Execution.completeReview
  split
  case h_1 => exact ofWrite_reads _ _
  case h_2 =>
    split
    · trivial
    · split
      · split
        · trivial
        · rename_i d' _
          have h : (Execution.runOptimization d' { e with stage := .optimize }).Reads e.order.id s
              e.results := runOptimization_reads (.refl _)
          exact h
      · exact ofWrite_reads _ _
  case h_3 => exact ofWrite_reads _ _
  case h_4 => exact ofWrite_reads _ _

theorem resume_reads {on : Await} {text : String} (hr : r.SameReports e.results)
    (hon : ∀ stage handoff, on ≠ .turn (.review stage handoff)) :
    (e.resume config outside on text d).Reads e.order.id s r := by
  cases on with
  | dataset =>
    have h : (Execution.datasetReady outside d
        { e with results := { e.results with dataset := some text } }).Reads e.order.id s r :=
      datasetReady_reads ⟨hr.implementation, hr.backtest⟩
    exact h
  | turn turn =>
    cases turn with
    | review stage handoff => exact absurd rfl (hon stage handoff)
    | strategy prior =>
      simp only [Execution.resume, bindArtifactIdentity_id]
      split
      · trivial
      · exact ⟨bindArtifactIdentity_id _ _ _, ⟨hr.implementation, hr.backtest⟩, trivial⟩
    | backtest handoff =>
      simp only [Execution.resume]
      split
      · trivial
      · exact ⟨rfl, ⟨hr.implementation, hr.backtest⟩, trivial⟩
    | optimize handoff =>
      simp only [Execution.resume]
      split <;> exact ofWrite_reads _ _
    | maintenance => trivial

end Reading

abbrev Pending := String → ReviewStage → Option String

structure Docket where
  gateway : Gateway := {}
  pending : Pending := fun _ _ => none

namespace Pending

def note (pending : Pending) (identifier : String) (stage : ReviewStage) (report : String) :
    Pending := fun k s =>
  if k = identifier ∧ s = stage then
    match reviewOutcome report stage with
    | .fail | .blocked => some report
    | _ => none
  else pending k s

def reset (pending : Pending) (before after : Gateway) (identifier : String) : Pending :=
  fun k s =>
    if k = identifier ∧ after.durable.find k ≠ before.durable.find k then none else pending k s

end Pending

namespace Docket

variable (config : RunnerConfig) (d : Docket) (input : Input)

def filed (after : Gateway) : Pending :=
  match input.event, d.gateway.worker with
  | .reply text, .running e (.turn (.review stage _)) => d.pending.note e.order.id stage text
  | .approve identifier _ false _, _ => d.pending.reset d.gateway after identifier
  | .retry identifier _ _ _, _ => d.pending.reset d.gateway after identifier
  | _, _ => d.pending

def step : Docket :=
  { gateway := d.gateway.step config input
    pending := d.filed input (d.gateway.step config input) }

/-- The stage whose Review reports a turn is to answer. -/
def answers : Turn → Option ReviewStage
  | .strategy _ => some .reviewImplementation
  | .backtest _ => some .reviewBacktest
  | _ => none

def BlockersReach : Prop :=
  ∀ e turn stage report, d.gateway.worker = .running e (.turn turn) →
    answers turn = some stage → d.pending e.order.id stage = some report →
      ∀ instruction text, e.prompt instruction turn = .ok text → Mentions text report

def hides : Bool :=
  match input.event, d.gateway.worker with
  | .begin, .claimed order =>
    order.stage == some .strategy && (d.pending order.id .reviewImplementation).isSome &&
      truthy order.results.optimization
  | _, _ => false

def supersedes : Bool :=
  match input.event with
  | .recover =>
    d.gateway.durable.store.workOrders.entries.any fun order =>
      (d.pending order.id .reviewBacktest).isSome && order.delayedBacktest input.outside
  | _ => false

end Docket

theorem docket_gateway (config : RunnerConfig) (inputs : List Input) (d : Docket) :
    (Run.run (Docket.step config) d inputs).gateway =
      Run.run (Gateway.step config) d.gateway inputs := by
  induction inputs generalizing d with
  | nil => rfl
  | cons input inputs ih => exact ih _

structure WorkOrder.Holds (pending : ReviewStage → Option String) (order : WorkOrder) : Prop where
  implementation : ∀ report, pending .reviewImplementation = some report →
    order.results.reviewImplementation = some report ∨
      (truthy order.results.optimization = true ∧ order.stage = some .strategy)
  backtest : ∀ report, pending .reviewBacktest = some report →
    order.results.reviewBacktest = some report

def WorkOrder.Filed (pending : ReviewStage → Option String) (order : WorkOrder) : Prop :=
  order.status = .failed ∨ order.status = .cancelled ∨ order.Holds pending

def Worker.Holds (pending : Pending) : Worker → Prop
  | .running e on =>
    (∀ stage report, pending e.order.id stage = some report →
      e.results.review stage = some report) ∧
    (∀ prior, on = .turn (.strategy prior) → ∀ report,
      pending e.order.id .reviewImplementation = some report → prior = some report) ∧
    ∀ handoff, on = .turn (.backtest handoff) → e.order.results = e.results
  | _ => True

structure Docket.Sound (d : Docket) : Prop where
  vetted : d.gateway.Vetted HoldsPass
  filed : ∀ x ∈ d.gateway.durable, x.order.Filed (d.pending x.order.id)
  known : ∀ identifier stage report, d.pending identifier stage = some report →
    (d.gateway.durable.find identifier).isSome = true
  blocking : ∀ identifier stage report, d.pending identifier stage = some report →
    reviewOutcome report stage = .fail ∨ reviewOutcome report stage = .blocked
  holds : d.gateway.worker.Holds d.pending

theorem not_blank_of_outcome {report : String} {stage : ReviewStage}
    (h : reviewOutcome report stage = .fail ∨ reviewOutcome report stage = .blocked) :
    PythonText.isBlank report.toList = false := by
  rw [← Bool.not_eq_true]
  intro hblank
  have hscopes : PythonText.findAll matchScope report.toList = [] := by
    refine PythonText.findAll_eq_nil ?_ hblank
    intro c cs hc
    have hne : PythonText.sameLetter 'r' c = false := by
      have hr : c ≠ 'r' := by
        rintro rfl
        exact absurd hc (by decide)
      simp [PythonText.sameLetter, PythonText.toLower_of_isSpace hc, hr.symm]
    have hword : PythonText.afterWord "review_stage:".toList (c :: cs) = none := by
      have hletters : "review_stage:".toList = 'r' :: "eview_stage:".toList := by decide
      rw [hletters, PythonText.afterWord, hne]
      rfl
    rw [matchScope, hword]
    rfl
  have hincomplete : reviewOutcome report stage = .incomplete := by
    unfold reviewOutcome
    dsimp only
    split
    · rfl
    · rw [hscopes]
      rfl
  rw [hincomplete] at h
  rcases h with h | h <;> cases h

theorem Docket.Sound.blockersReach {d : Docket} (h : d.Sound) : d.BlockersReach := by
  intro e turn stage report hw hturn hpending instruction text hprompt
  have hblank := not_blank_of_outcome (h.blocking _ _ _ hpending)
  have hholds := h.holds
  simp only [hw, Worker.Holds] at hholds
  obtain ⟨hreports, hprior, hresults⟩ := hholds
  cases turn with
  | strategy prior =>
    cases hturn
    have hp := hprior prior rfl report hpending
    have hne : report ≠ "" := by
      rintro rfl
      cases hblank
    rw [hp] at hprompt
    rw [← Except.ok.inj hprompt]
    exact strategyPrompt_mentions instruction e.order hne
  | backtest handoff =>
    cases hturn
    refine backtestPrompt_mentions ?_ hblank hprompt
    rw [hresults handoff rfl]
    exact hreports _ _ hpending
  | review => cases hturn
  | optimize => cases hturn
  | maintenance => cases hturn

namespace WorkOrder

variable {order next : WorkOrder} {p p' : ReviewStage → Option String}

theorem Filed.mono (h : order.Filed p)
    (hp : ∀ stage report, p' stage = some report → p stage = some report) : order.Filed p' :=
  h.imp_right (·.imp_right fun h =>
    ⟨fun report hr => h.implementation report (hp _ _ hr),
      fun report hr => h.backtest report (hp _ _ hr)⟩)

theorem Filed.of_results (h : order.Filed p) (hresults : next.results = order.results)
    (hfailed : order.status = .failed → next.status = .failed)
    (hcancelled : order.status = .cancelled → next.status = .cancelled)
    (hstage : order.stage = some .strategy → next.stage = some .strategy) : next.Filed p := by
  rcases h with h | h | h
  · exact .inl (hfailed h)
  · exact .inr (.inl (hcancelled h))
  · refine .inr (.inr ⟨fun report hr => ?_, fun report hr => ?_⟩)
    · rw [hresults]
      exact (h.implementation report hr).imp_right fun ⟨ht, hs⟩ => ⟨ht, hstage hs⟩
    · rw [hresults]
      exact h.backtest report hr

theorem Filed.of_unhidden (h : order.Filed p) (hresults : next.results = order.results)
    (hlive : order.status ≠ .failed ∧ order.status ≠ .cancelled)
    (hunhidden : ¬ (truthy order.results.optimization = true ∧ order.stage = some .strategy)) :
    next.Filed p := by
  rcases h with h | h | h
  · exact absurd h hlive.1
  · exact absurd h hlive.2
  · refine .inr (.inr ⟨fun report hr => .inl ?_, fun report hr => ?_⟩)
    · rw [hresults]
      exact (h.implementation report hr).resolve_right hunhidden
    · rw [hresults]
      exact h.backtest report hr

theorem resumeStage_of_strategy (h : order.stage = some .strategy) :
    order.resumeStage = .strategy := by
  simp [resumeStage, h, Stage.executable]

theorem stage_ne_of_gate (he : Evidenced order) (gate : ApprovalGate)
    (h : order.status = gate.expected) : order.stage ≠ some .strategy := by
  have hfits := he.fits
  rw [h] at hfits
  intro hs
  cases gate <;> (rw [hs] at hfits; cases hfits)

end WorkOrder

section Startup

variable {config : RunnerConfig} {outside : Outside} {allowed : Entry → Prop} {x x' : Entry}
  {p : ReviewStage → Option String}

theorem WorkOrder.Filed.failedReview (config : RunnerConfig) {order : WorkOrder}
    (h : order.Filed p) (he : Evidenced order) : (order.recoverFailedReview config).Filed p := by
  cases hf : order.failedReview with
  | none =>
    rw [recoverFailedReview_of_none config hf]
    exact h
  | some failed =>
    obtain ⟨stage, review⟩ := failed
    obtain ⟨_, _, hresults, _⟩ := recoverFailedReview_spec config hf
    have hopen := (failedReview_eq_some hf).1
    unfold WorkOrder.openedBy at hopen
    split at hopen
    · rename_i hs
      refine h.of_unhidden hresults (by simp [hs]) fun hhidden => ?_
      exact WorkOrder.stage_ne_of_gate he .implementation hs hhidden.2
    · rename_i hs
      refine h.of_unhidden hresults (by simp [hs]) fun hhidden => ?_
      exact WorkOrder.stage_ne_of_gate he .backtest hs hhidden.2
    · cases hopen

theorem WorkOrder.Filed.completed {order next : WorkOrder} {results : Results}
    (h : order.Filed p) (hnone : p .reviewBacktest = none)
    (hc : order.completedBacktest outside = some results) (hresults : next.results = results) :
    next.Filed p := by
  obtain ⟨hqueued, hstage, evidence, _, rfl⟩ := completedBacktest_eq_some hc
  rcases h with h | h | h
  · rw [hqueued] at h
    cases h
  · rw [hqueued] at h
    cases h
  · refine .inr (.inr ⟨fun report hr => .inl ?_, fun report hr => ?_⟩)
    · rw [hresults]
      refine (h.implementation report hr).resolve_right fun hhidden => ?_
      rw [hstage] at hhidden
      cases hhidden.2
    · rw [hnone] at hr
      cases hr

theorem WorkOrder.Filed.recovery (he : Evidenced x.order) (h : x.order.Filed p)
    (hnone : x.order.delayedBacktest outside = true → p .reviewBacktest = none)
    (hr : Recovery config outside allowed x x') : x'.order.Filed p := by
  cases hr with
  | migrated =>
    dsimp only
    unfold WorkOrder.migrateOptimization
    split
    · exact h
    · exact h.of_results rfl (fun h => h) (fun h => h) fun h => h
  | interrupted =>
    dsimp only
    unfold WorkOrder.recoverInterrupted
    split
    · rename_i hworking
      refine h.of_results rfl (by simp [hworking]) (by simp [hworking]) fun hs => ?_
      exact congrArg some (resumeStage_of_strategy hs)
    · exact h
  | optimizerStage hreg =>
    have hresults : (x.order.recoverOptimizerStage config).results = x.order.results := by
      simp [recoverOptimizerStage, hreg]
    refine h.of_unhidden hresults (by simp [hreg.1]) fun hhidden => ?_
    rw [hreg.2.2.2.2.1] at hhidden
    cases hhidden.1
  | passedReview =>
    dsimp only
    rw [WorkOrder.recoverPassedReview,
      if_neg (not_passedReviewDeadLetter_of_lastError he.lastError)]
    exact h
  | failedReview => exact h.failedReview config he
  | completedOptimize results hc =>
    exact h.completed (hnone (delayedBacktest_of_completed hc)) hc rfl
  | completedGate results record hc _ =>
    exact h.completed (hnone (delayedBacktest_of_completed hc)) hc rfl
  | cleared =>
    dsimp only
    unfold WorkOrder.clearTerminalRetry
    split
    · exact h
    · exact h.of_results rfl (fun h => h) (fun h => h) fun h => h

theorem WorkOrder.Filed.recovered (he : Evidenced x.order) (h : x.order.Filed p)
    (hnone : x.order.delayedBacktest outside = true → p .reviewBacktest = none)
    (hchain : ReflTransGen (Recovery config outside allowed) x x') : x'.order.Filed p := by
  induction hchain using ReflTransGen.head_induction_on with
  | refl => exact h
  | head hr _ ih =>
    exact ih (he.recovery hr) (h.recovery he hnone hr) fun hdelayed =>
      hnone (delayedBacktest_of_recovery hr hdelayed)

end Startup

end ChainQuantStudio.Studio
