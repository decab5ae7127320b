import ChainQuantStudio.Studio.UserGates

/-!
# The implementation evidence of an order

An order that is past its implementation Review, or holds a backtest Review, has the Strategy
handoff and the implementation Review in its results, whatever the recoveries made of its stage.
-/

namespace ChainQuantStudio.Studio

open Relation (ReflTransGen)

def Stage.pastReview (s : Stage) : Bool :=
  s.afterImplementation || s == .implementationApproval

structure Results.Implemented (results : Results) : Prop where
  strategy : results.strategy.isSome = true
  review : results.reviewImplementation.isSome = true

structure Evidenced (order : WorkOrder) : Prop where
  fits : order.status.Fits order.stage
  lastError : order.lastError ≠ some WorkOrder.misreadReview
  reviewed : order.status ≠ .cancelled → order.results.reviewBacktest.isSome = true →
    order.results.Implemented
  staged : order.status ≠ .cancelled → ∀ s, order.stage = some s → s.pastReview = true →
    order.results.Implemented

section Order

variable {order next : WorkOrder} {results : Results}

theorem Passed.implemented {turns : List AgentTurn} {identifier : String} {results : Results}
    (h : Passed turns identifier .reviewImplementation results) : results.Implemented := by
  obtain ⟨handoff, report, hs, hr, _⟩ := h
  have hs' : results.strategy = some handoff := hs
  have hr' : results.reviewImplementation = some report := hr
  exact ⟨by rw [hs']; rfl, by rw [hr']; rfl⟩

theorem Results.Implemented.of_eq {next : Results} (h : results.Implemented)
    (hs : next.strategy = results.strategy)
    (hr : next.reviewImplementation = results.reviewImplementation) : next.Implemented :=
  ⟨by rw [hs]; exact h.strategy, by rw [hr]; exact h.review⟩

theorem Results.Implemented.setReview (h : results.Implemented) (report : String)
    (s : ReviewStage) : (results.setReview report s).Implemented := by
  cases s with
  | reviewImplementation => exact ⟨h.strategy, rfl⟩
  | reviewBacktest => exact ⟨h.strategy, h.review⟩

structure Carries (s s' : Stage) (r r' : Results) : Prop where
  reviewed : (r.reviewBacktest.isSome = true → r.Implemented) →
    (s.pastReview = true → r.Implemented) → r'.reviewBacktest.isSome = true → r'.Implemented
  staged : (s.pastReview = true → r.Implemented) → s'.pastReview = true → r'.Implemented

theorem SentBack.carries {s s' : Stage} {r r' : Results} (h : SentBack s r s' r') :
    Carries s s' r r' := by
  cases h with
  | same => exact ⟨fun hr _ => hr, fun hs => hs⟩
  | maintenance => exact ⟨fun hr _ => hr, fun _ => nofun⟩
  | dataset _ hs =>
    refine ⟨fun hr _ => hr, fun h _ => h ?_⟩
    rcases hs with rfl | rfl <;> rfl
  | prepared _ data hs =>
    refine ⟨fun hr _ h => (hr h).of_eq rfl rfl, fun h _ => ?_⟩
    have hp : r.Implemented := by
      apply h
      rcases hs with rfl | rfl <;> rfl
    exact hp.of_eq rfl rfl
  | implemented => exact ⟨fun hr _ h => ⟨rfl, (hr h).review⟩, fun _ => nofun⟩
  | unreviewed stage _ report =>
    cases stage with
    | reviewImplementation => exact ⟨fun hr _ h => (hr h).setReview report _, fun _ => nofun⟩
    | reviewBacktest =>
      exact ⟨fun _ hs _ => (hs rfl).setReview report _, fun hs _ => (hs rfl).setReview report _⟩
  | rejected stage _ report =>
    cases stage with
    | reviewImplementation => exact ⟨fun hr _ h => (hr h).setReview report _, fun _ => nofun⟩
    | reviewBacktest =>
      exact ⟨fun _ hs _ => (hs rfl).setReview report _, fun hs _ => (hs rfl).setReview report _⟩
  | optimized =>
    exact ⟨fun hr _ h => (hr h).of_eq rfl rfl, fun hs h => (hs h).of_eq rfl rfl⟩

theorem Outcome.carries {turns : List AgentTurn} {identifier : String} {s s' : Stage}
    {r r' : Results} {status : Status} (h : Outcome turns identifier s r status s' r')
    (hstatus : status ≠ .cancelled) : Carries s s' r r' := by
  cases h with
  | prepared _ _ hs => exact (SentBack.prepared _ _ hs).carries
  | implemented => exact ⟨fun hr _ h => ⟨rfl, (hr h).review⟩, fun _ => nofun⟩
  | backtested =>
    exact ⟨fun hr _ h => (hr h).of_eq rfl rfl, fun hs _ => (hs rfl).of_eq rfl rfl⟩
  | optimizing _ report _ =>
    exact ⟨fun _ hs _ => (hs rfl).setReview report _, fun hs _ => (hs rfl).setReview report _⟩
  | implementationGate _ report hp =>
    exact ⟨fun _ _ _ => hp.implemented, fun _ _ => hp.implemented⟩
  | backtestGate _ report _ =>
    exact ⟨fun _ hs _ => (hs rfl).setReview report _, fun hs _ => (hs rfl).setReview report _⟩
  | optimizationGate =>
    exact ⟨fun hr _ h => (hr h).of_eq rfl rfl, fun hs _ => (hs rfl).of_eq rfl rfl⟩
  | sentBack _ _ hback => exact hback.carries
  | failed => exact ⟨fun _ _ => nofun, fun _ => nofun⟩
  | cancelled => exact absurd rfl hstatus

theorem Evidenced.worked {turns : List AgentTurn} {x x' : Entry} (h : Evidenced x.order)
    (hw : Worked turns x x') : Evidenced x'.order := by
  obtain ⟨s, s', hs, hs', hout⟩ := hw.outcome
  have hlive : x.order.status ≠ .cancelled := by
    rw [hw.working]
    decide
  refine ⟨?_, hw.lastError h.lastError, fun hne => ?_, fun hne t ht => ?_⟩
  · rw [hs']
    exact hout.stages.1
  · exact (hout.carries hne).reviewed (h.reviewed hlive) (h.staged hlive s hs)
  · rw [hs'] at ht
    obtain rfl := Option.some.inj ht
    exact (hout.carries hne).staged (h.staged hlive s hs)

theorem Evidenced.of_results (h : Evidenced order) (hlive : order.status ≠ .cancelled)
    (hresults : next.results = order.results) (hfits : next.status.Fits next.stage)
    (herror : next.lastError ≠ some WorkOrder.misreadReview)
    (hstage : ∀ s, next.stage = some s → s.pastReview = true → order.results.Implemented) :
    Evidenced next := by
  refine ⟨hfits, herror, fun _ hb => ?_, fun _ s hs hpast => ?_⟩
  · rw [hresults] at hb ⊢
    exact h.reviewed hlive hb
  · rw [hresults]
    exact hstage s hs hpast

theorem Evidenced.of_same (h : Evidenced order) (hstatus : next.status = order.status)
    (hstage : next.stage = order.stage) (hresults : next.results = order.results)
    (herror : next.lastError = order.lastError ∨ next.lastError = none) : Evidenced next := by
  refine ⟨?_, ?_, ?_, ?_⟩
  · rw [hstatus, hstage]
    exact h.fits
  · rcases herror with he | he <;> rw [he]
    · exact h.lastError
    · nofun
  · rw [hstatus, hresults]
    exact h.reviewed
  · rw [hstatus, hresults, hstage]
    exact h.staged

theorem Evidenced.resumed (h : Evidenced order) (hlive : order.status ≠ .cancelled) {s : Stage}
    (hs : order.resumeStage = s) (hpast : s.pastReview = true) : order.results.Implemented := by
  rcases resumeStage_cases order with hsame | hagent
  · exact h.staged hlive s (by rw [hsame, hs]) hpast
  · rw [← hs, hagent] at hpast
    cases ha : order.agent <;> (rw [ha] at hpast; cases hpast)

theorem Evidenced.claimed (h : Evidenced order) (hqueued : order.status = .queued) :
    Evidenced order.claimed := by
  have hlive : order.status ≠ .cancelled := by
    rw [hqueued]
    decide
  exact h.of_results hlive rfl trivial nofun fun s hs => h.resumed hlive (Option.some.inj hs)

theorem Evidenced.cancelledIdle (h : Evidenced order) : Evidenced order.cancelledIdle :=
  ⟨trivial, h.lastError, fun hne => absurd rfl hne, fun hne => absurd rfl hne⟩

theorem Evidenced.atGate (h : Evidenced order) (gate : ApprovalGate)
    (hstatus : order.status = gate.expected) : order.results.Implemented := by
  have hfits := h.fits
  have hlive : order.status ≠ .cancelled := by
    rw [hstatus]
    cases gate <;> decide
  rw [hstatus] at hfits
  cases gate with
  | implementation => exact h.staged hlive .implementationApproval hfits rfl
  | optimization => exact h.staged hlive .optimizationApproval hfits rfl
  | backtest => exact h.staged hlive .backtestApproval hfits rfl
  | live => exact h.staged hlive .liveApproval hfits rfl

theorem Evidenced.of_implemented (hfits : next.status.Fits next.stage)
    (herror : next.lastError ≠ some WorkOrder.misreadReview) (hr : next.results.Implemented) :
    Evidenced next :=
  ⟨hfits, herror, fun _ _ => hr, fun _ _ _ _ => hr⟩

theorem Evidenced.of_restarted (hfits : next.status.Fits next.stage)
    (herror : next.lastError ≠ some WorkOrder.misreadReview)
    (hstage : next.stage = some .strategy) (hr : next.results.reviewBacktest = none) :
    Evidenced next := by
  refine ⟨hfits, herror, fun _ hb => ?_, fun _ s hs hpast => ?_⟩
  · rw [hr] at hb
    cases hb
  · rw [hstage] at hs
    obtain rfl := Option.some.inj hs
    cases hpast

theorem Evidenced.decided {gate : ApprovalGate} {approved : Bool} {note : String}
    (h : Evidenced order) (ha : order.approval gate approved note = .ok next) :
    Evidenced next := by
  obtain ⟨hstatus, moved, hmoved, rfl⟩ := order.approval_eq_ok ha
  have hr := h.atGate gate hstatus
  suffices hm : Evidenced moved from hm.of_same rfl rfl rfl (.inl rfl)
  unfold WorkOrder.decided at hmoved
  cases gate with
  | implementation =>
    cases approved with
    | false =>
      obtain rfl := Except.ok.inj hmoved
      exact .of_restarted trivial h.lastError rfl rfl
    | true =>
      dsimp only at hmoved
      split at hmoved
      · obtain rfl := Except.ok.inj hmoved
        exact .of_implemented trivial h.lastError hr
      · obtain rfl := Except.ok.inj hmoved
        exact .of_implemented rfl h.lastError hr
  | optimization =>
    dsimp only at hmoved
    split at hmoved
    · cases hmoved
    · split at hmoved
      · cases hmoved
      · split at hmoved
        · obtain rfl := Except.ok.inj hmoved
          exact .of_restarted trivial h.lastError rfl rfl
        · obtain rfl := Except.ok.inj hmoved
          exact .of_implemented rfl h.lastError hr
  | backtest =>
    cases approved with
    | false =>
      obtain rfl := Except.ok.inj hmoved
      exact .of_implemented trivial h.lastError (hr.of_eq rfl rfl)
    | true =>
      obtain rfl := Except.ok.inj hmoved
      exact .of_implemented rfl h.lastError hr
  | live =>
    cases approved with
    | false =>
      obtain rfl := Except.ok.inj hmoved
      exact .of_implemented rfl h.lastError hr
    | true =>
      obtain rfl := Except.ok.inj hmoved
      refine .of_implemented ?_ h.lastError hr
      dsimp only [Status.Fits]
      split <;> simp

theorem Evidenced.retried (h : Evidenced order) (hretry : Gateway.retryable order.status = true)
    (artifactId artifactVersion reason : String) :
    Evidenced (order.retried artifactId artifactVersion reason) := by
  have hlive : order.status ≠ .cancelled := by
    intro hc
    rw [hc] at hretry
    cases hretry
  by_cases hp : order.preservesImplementation artifactId artifactVersion
  · apply Evidenced.of_implemented
    · trivial
    · nofun
    · obtain ⟨_, _, _, _, _, hs, hr⟩ := hp
      simp only [WorkOrder.retried]
      split
      · exact ⟨hs, hr⟩
      · exact ⟨hs, hr⟩
  · refine ⟨trivial, nofun, fun _ hb => ?_, fun _ s hs hpast => ?_⟩
    · simp only [WorkOrder.retried, if_neg hp] at hb ⊢
      exact h.reviewed hlive hb
    · simp only [WorkOrder.retried, if_neg hp] at hs
      obtain rfl := Option.some.inj hs
      cases ha : order.agent <;> (rw [ha] at hpast; cases hpast)

end Order

section Startup

variable {config : RunnerConfig} {outside : Outside} {allowed : Entry → Prop} {order : WorkOrder}

theorem not_passedReviewDeadLetter_of_lastError (h : order.lastError ≠ some WorkOrder.misreadReview) :
    ¬ order.passedReviewDeadLetter := fun hp => h hp.2.1

theorem Evidenced.optimizerStage (h : Evidenced order) (hreg : order.optimizerRegression) :
    Evidenced (order.recoverOptimizerStage config) := by
  have hlive : order.status ≠ .cancelled := by
    rw [hreg.1]
    decide
  have hr : order.results.Implemented := by
    apply h.reviewed hlive
    have hpass := hreg.2.2.2.2.2.1
    cases hb : order.results.reviewBacktest with
    | none =>
      rw [hb] at hpass
      cases hpass
    | some report => rfl
  unfold WorkOrder.recoverOptimizerStage
  rw [if_pos hreg]
  exact .of_implemented trivial nofun hr

theorem Evidenced.failedReview (config : RunnerConfig) (h : Evidenced order) :
    Evidenced (order.recoverFailedReview config) := by
  cases hf : order.failedReview with
  | none =>
    rw [recoverFailedReview_of_none config hf]
    exact h
  | some failed =>
    obtain ⟨stage, review⟩ := failed
    obtain ⟨_, _, hresults, _, herror, hstatus⟩ := recoverFailedReview_spec config hf
    have hopen := (failedReview_eq_some hf).1
    have hr : order.results.Implemented := by
      unfold WorkOrder.openedBy at hopen
      split at hopen
      · rename_i hs
        exact h.atGate .implementation hs
      · rename_i hs
        exact h.atGate .backtest hs
      · cases hopen
    apply Evidenced.of_implemented
    · rcases hstatus with hs | hs | hs <;> (rw [hs]; trivial)
    · rw [herror]
      exact fun he => verdictReason_ne .fail stage (Option.some.inj he)
    · rw [hresults]
      exact hr

theorem Evidenced.recovery {x x' : Entry} (h : Evidenced x.order)
    (hr : Recovery config outside allowed x x') : Evidenced x'.order := by
  cases hr with
  | migrated =>
    dsimp only
    unfold WorkOrder.migrateOptimization
    split
    · exact h
    · exact h.of_same rfl rfl rfl (.inl rfl)
  | interrupted =>
    dsimp only
    unfold WorkOrder.recoverInterrupted
    split
    · rename_i hworking
      have hlive : x.order.status ≠ .cancelled := by
        rw [hworking]
        decide
      exact h.of_results hlive rfl trivial h.lastError fun s hs =>
        h.resumed hlive (Option.some.inj hs)
    · exact h
  | optimizerStage hreg => exact h.optimizerStage hreg
  | passedReview =>
    dsimp only
    rw [WorkOrder.recoverPassedReview,
      if_neg (not_passedReviewDeadLetter_of_lastError h.lastError)]
    exact h
  | failedReview => exact h.failedReview config
  | completedOptimize results hc =>
    obtain ⟨hqueued, hstage, evidence, _, rfl⟩ := completedBacktest_eq_some hc
    have hr := h.staged (by rw [hqueued]; decide) .backtest hstage rfl
    exact .of_implemented trivial h.lastError (hr.of_eq rfl rfl)
  | completedGate results record hc _ =>
    obtain ⟨hqueued, hstage, evidence, _, rfl⟩ := completedBacktest_eq_some hc
    have hr := h.staged (by rw [hqueued]; decide) .backtest hstage rfl
    exact .of_implemented rfl (fun h => by cases h) (hr.of_eq rfl rfl)
  | cleared =>
    dsimp only
    unfold WorkOrder.clearTerminalRetry
    split
    · exact h
    · exact h.of_same rfl rfl rfl (.inl rfl)

end Startup

theorem Evidenced.moved {config : RunnerConfig} {input : Input} {turns : List AgentTurn}
    {allowed : Entry → Prop} {x x' : Entry} (h : Evidenced x.order)
    (hm : Moved config input turns allowed x x') : Evidenced x'.order := by
  cases hm with
  | worked hw => exact h.worked hw
  | claimed hqueued => exact h.claimed hqueued
  | cancelled => exact h.cancelledIdle
  | quotaResumed =>
    dsimp only
    unfold WorkOrder.quotaResumed
    split
    · exact h.of_same rfl rfl rfl (.inl rfl)
    · exact h
  | decided _ ha => exact h.decided ha
  | retried artifactId artifactVersion reason hretry =>
    exact h.retried hretry artifactId artifactVersion reason
  | recovered _ hchain =>
    induction hchain with
    | refl => exact h
    | tail _ hr ih => exact ih.recovery hr

theorem Evidenced.created {work : NewWork} {stamp : String} {store : Store} {order : WorkOrder}
    (h : work.order stamp store = some order) : Evidenced order := by
  obtain ⟨hqueued, hstage, herror, _, _⟩ := NewWork.order_spec h
  have hresults : order.results.reviewBacktest = none := by
    cases work with
    | maintenance => rw [← Option.some.inj h]; rfl
    | research =>
      simp only [NewWork.order] at h
      split at h
      · cases h
      · rw [← Option.some.inj h]; rfl
    | adoption =>
      simp only [NewWork.order] at h
      split at h
      · cases h
      · rw [← Option.some.inj h]; rfl
  refine ⟨?_, ?_, fun _ hb => ?_, fun _ s hs hpast => ?_⟩
  · rw [hqueued]
    trivial
  · rw [herror]
    exact fun h => by cases h
  · rw [hresults] at hb
    cases hb
  · rcases hstage with hn | hn
    · rw [hn] at hs
      cases hs
    · rw [hn] at hs
      obtain rfl := Option.some.inj hs
      cases hpast

structure Gateway.Evidenced (g : Gateway) : Prop where
  tracks : g.Tracks
  orders : ∀ x ∈ g.durable, Studio.Evidenced x.order

theorem evidenced_step (config : RunnerConfig) (input : Input) {g : Gateway} (h : g.Evidenced) :
    (g.step config input).Evidenced := by
  have hall : g.RestoresOnly (fun _ => True) input := fun _ _ _ _ _ => trivial
  obtain ⟨hev, hT⟩ := @step_evolves config input (fun _ => True) g hall h.tracks
  refine ⟨hT, hev.forall_mem h.orders (fun _ _ he => he) ?_ fun x _ x' he hm => he.moved hm⟩
  rintro x ⟨work, stamp, _, horder, _⟩
  exact .created horder

theorem evidenced_run (config : RunnerConfig) (inputs : List Input) :
    (Run.run (Gateway.step config) {} inputs).Evidenced := by
  have hstart : ({} : Gateway).Evidenced := by
    refine ⟨trivial, fun x hx => ?_⟩
    exact absurd hx.1 (Keyed.not_mem_empty _)
  exact Run.run_invariant Gateway.Evidenced (fun g input h => evidenced_step config input h)
    hstart inputs

end ChainQuantStudio.Studio
