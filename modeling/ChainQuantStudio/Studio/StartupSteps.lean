import ChainQuantStudio.Studio.Segments

/-!
# The startup recoveries, order by order

Each recovery rewrites orders one by one, so a whole startup takes every entry through a chain of
recoveries of that entry.
-/

namespace ChainQuantStudio.Studio

open Relation (ReflTransGen)

/-- Every entry of the second state comes from the entry with its identifier in the first by a
chain of `R`, and no entry is lost. -/
structure Linked (R : Entry → Entry → Prop) (d d' : Durable) : Prop where
  back : ∀ y ∈ d', ∃ x ∈ d, y.order.id = x.order.id ∧ ReflTransGen R x y
  forth : ∀ x ∈ d, ∃ y ∈ d', y.order.id = x.order.id

namespace Linked

variable {R : Entry → Entry → Prop} {d d₁ d₂ : Durable}

theorem refl (d : Durable) : Linked R d d :=
  ⟨fun y hy => ⟨y, hy, rfl, .refl⟩, fun x hx => ⟨x, hx, rfl⟩⟩

theorem trans (h : Linked R d d₁) (h' : Linked R d₁ d₂) : Linked R d d₂ := by
  constructor
  · intro z hz
    obtain ⟨y, hy, hzy, hchain⟩ := h'.back z hz
    obtain ⟨x, hx, hyx, hchain'⟩ := h.back y hy
    exact ⟨x, hx, hzy.trans hyx, hchain'.trans hchain⟩
  · intro x hx
    obtain ⟨y, hy, hyx⟩ := h.forth x hx
    obtain ⟨z, hz, hzy⟩ := h'.forth y hy
    exact ⟨z, hz, hzy.trans hyx⟩

theorem congr (h : Linked R d d₁) (ho : d₂.store.workOrders = d₁.store.workOrders)
    (ha : d₂.artifacts = d₁.artifacts) : Linked R d d₂ := by
  have hmem : ∀ y, y ∈ d₂ ↔ y ∈ d₁ := by
    intro y
    rw [Durable.mem_def, Durable.mem_def, ho, ha]
  constructor
  · intro y hy
    exact h.back y ((hmem y).mp hy)
  · intro x hx
    obtain ⟨y, hy, hyx⟩ := h.forth x hx
    exact ⟨y, (hmem y).mpr hy, hyx⟩

theorem of_rewritten {x x' : Entry} (hr : Rewritten d d₁ x') (hx : x ∈ d)
    (hid : x'.order.id = x.order.id) (hmove : R x x') : Linked R d d₁ := by
  constructor
  · intro y hy
    rcases (hr y).mp hy with rfl | ⟨hy, -⟩
    · exact ⟨x, hx, hid, .single hmove⟩
    · exact ⟨y, hy, rfl, .refl⟩
  · intro y hy
    by_cases h : y.order.id = x'.order.id
    · exact ⟨x', hr.mem, h.symm⟩
    · exact ⟨y, hr.mem_of_ne hy h, rfl⟩

end Linked

theorem Durable.mem_mapOrders {d : Durable} {f : WorkOrder → WorkOrder}
    {hf : ∀ order, (f order).id = order.id} {y : Entry} :
    y ∈ d.onStore (·.mapOrders f hf) ↔ ∃ x ∈ d, y = ⟨f x.order, x.record⟩ := by
  obtain ⟨o, r⟩ := y
  constructor
  · rintro ⟨ho, hr⟩
    have hmem : o ∈ d.store.workOrders.mapEntries f hf := ho
    obtain ⟨o', ho', rfl⟩ := Keyed.mem_mapEntries.mp hmem
    dsimp only at hr
    rw [hf] at hr
    exact ⟨⟨o', r⟩, ⟨ho', hr⟩, rfl⟩
  · rintro ⟨x, hx, he⟩
    obtain ⟨rfl, rfl⟩ := Entry.mk.inj he
    have hmem : f x.order ∈ d.store.workOrders.mapEntries f hf :=
      Keyed.mem_mapEntries.mpr ⟨x.order, hx.1, rfl⟩
    refine ⟨hmem, ?_⟩
    dsimp only
    rw [hf]
    exact hx.2

theorem Linked.mapOrders {R : Entry → Entry → Prop} {d : Durable} {f : WorkOrder → WorkOrder}
    {hf : ∀ order, (f order).id = order.id}
    (h : ∀ x ∈ d, f x.order = x.order ∨ R x ⟨f x.order, x.record⟩) :
    Linked R d (d.onStore (·.mapOrders f hf)) := by
  constructor
  · intro y hy
    obtain ⟨x, hx, rfl⟩ := Durable.mem_mapOrders.mp hy
    refine ⟨x, hx, hf _, ?_⟩
    rcases h x hx with he | hmove
    · rw [he]
    · exact .single hmove
  · intro x hx
    exact ⟨⟨f x.order, x.record⟩, Durable.mem_mapOrders.mpr ⟨x, hx, rfl⟩, hf _⟩

variable {config : RunnerConfig} {outside : Outside} {allowed : Entry → Prop}

/-- The durable state that `_recover_optimizer_stage_regressions` of a startup sees. -/
def Durable.resumed (d : Durable) : Durable :=
  (d.onStore (·.mapOrders (·.migrateOptimization) WorkOrder.migrateOptimization_id)).onStore
    (·.mapOrders (·.recoverInterrupted) WorkOrder.recoverInterrupted_id)

theorem resumed_linked (d : Durable) : Linked (Recovery config outside allowed) d d.resumed :=
  (Linked.mapOrders fun x _ => .inr (.migrated x)).trans
    (Linked.mapOrders fun x _ => .inr (.interrupted x))

theorem recoverOptimizerStages_linked {d : Durable}
    (h : ∀ x ∈ d, x.order.optimizerRegression → allowed x) :
    Linked (Recovery config outside allowed) d
      (d.onStore (·.recoverOptimizerStages config)) := by
  have hmap : Linked (Recovery config outside allowed) d
      (d.onStore (·.mapOrders (·.recoverOptimizerStage config) (by simp))) := by
    apply Linked.mapOrders
    intro x hx
    by_cases hreg : x.order.optimizerRegression
    · exact .inr (.optimizerStage x hreg (h x hx hreg))
    · left
      simp [WorkOrder.recoverOptimizerStage, hreg]
  exact hmap.congr rfl rfl

theorem recoverPassedReviews_linked (d : Durable) :
    Linked (Recovery config outside allowed) d (d.onStore (·.recoverPassedReviews)) := by
  have hmap : Linked (Recovery config outside allowed) d
      (d.onStore (·.mapOrders (·.recoverPassedReview) (by simp))) :=
    Linked.mapOrders fun x _ => .inr (.passedReview x)
  exact hmap.congr rfl rfl

theorem recoverFailedReviews_linked (d : Durable) :
    Linked (Recovery config outside allowed) d (d.onStore (·.recoverFailedReviews config)) := by
  have hmap : Linked (Recovery config outside allowed) d
      (d.onStore (·.mapOrders (·.recoverFailedReview config) (by simp))) :=
    Linked.mapOrders fun x _ => .inr (.failedReview x)
  exact hmap.congr rfl rfl

theorem completeBacktest_rewritten (outside : Outside) {d : Durable} {x : Entry} (hx : x ∈ d)
    (results : Results) :
    ∃ x', Rewritten d (d.completeBacktest outside x.order results).1 x' ∧
      (x' = ⟨{ x.order.checkpointed .optimize results none none with status := .queued },
          x.record⟩ ∨
        ∃ record,
          x' = ⟨x.order.finished .awaitingBacktestApproval .backtestApproval results, record⟩ ∧
          KeepsRecord x x') := by
  unfold Durable.completeBacktest
  split
  case isTrue =>
    obtain ⟨record, hr, _, hsame, _⟩ := checkpoint_spec outside hx .optimize results none none
    obtain ⟨rfl, hnone⟩ := hsame (by decide)
    have hpair : d.checkpoint outside x.order.id .optimize results none none =
        ((d.checkpoint outside x.order.id .optimize results none none).1, none) :=
      Prod.ext rfl hnone
    rw [hpair]
    have hmod := Rewritten.modify hr.mem ({ · with status := .queued }) (by simp)
    exact ⟨_, hr.trans hmod rfl, .inl rfl⟩
  case isFalse =>
    obtain ⟨record, hr, hkeep⟩ := finish_spec outside hx .awaitingBacktestApproval
      .backtestApproval results
    exact ⟨_, hr, .inr ⟨record, rfl, hkeep⟩⟩

theorem completeBacktest_spec (config : RunnerConfig) (allowed : Entry → Prop) {d : Durable}
    {x : Entry} {results : Results} (hx : x ∈ d)
    (hc : x.order.completedBacktest outside = some results) :
    ∃ x', Rewritten d (d.completeBacktest outside x.order results).1 x' ∧
      x'.order.id = x.order.id ∧ Recovery config outside allowed x x' := by
  obtain ⟨x', hr, rfl | ⟨record, rfl, hkeep⟩⟩ := completeBacktest_rewritten outside hx results
  · exact ⟨_, hr, rfl, .completedOptimize x results hc⟩
  · exact ⟨_, hr, rfl, .completedGate x results record hc hkeep⟩

theorem completedBacktest_eq_some {order : WorkOrder} {results : Results}
    (h : order.completedBacktest outside = some results) :
    order.status = .queued ∧ order.stage = some .backtest ∧
      ∃ evidence, outside.localBacktestEvidence order.id order.artifactKind = some evidence ∧
        results = { order.results with
          backtest := some evidence, reviewBacktest := some WorkOrder.nativeReview } := by
  unfold WorkOrder.completedBacktest at h
  split at h
  case isTrue hc =>
    obtain ⟨evidence, he, rfl⟩ := Option.map_eq_some_iff.mp h
    exact ⟨hc.2.1, hc.2.2.1, evidence, he, rfl⟩
  case isFalse => cases h

theorem failedReview_eq_some {order : WorkOrder} {stage : ReviewStage} {review : String}
    (h : order.failedReview = some (stage, review)) :
    order.openedBy = some stage ∧ order.results.review stage = some review ∧
      reviewPassed review = false := by
  unfold WorkOrder.failedReview at h
  obtain ⟨s, hs, h⟩ := Option.bind_eq_some_iff.mp h
  obtain ⟨r, hr, h⟩ := Option.bind_eq_some_iff.mp h
  split at h
  · cases h
  · rename_i hpassed
    cases h
    exact ⟨hs, hr, by simpa using hpassed⟩

theorem recoverFailedReview_spec (config : RunnerConfig) {order : WorkOrder} {stage : ReviewStage}
    {review : String} (h : order.failedReview = some (stage, review)) :
    Frame order (order.recoverFailedReview config) ∧
      (order.recoverFailedReview config).stage = some (WorkOrder.returnStage stage) ∧
      (order.recoverFailedReview config).results = order.results ∧
      (order.recoverFailedReview config).artifact = order.artifact ∧
      (order.recoverFailedReview config).lastError =
        some ("Review Agent returned FAIL for " ++ stage.value) ∧
      ((order.recoverFailedReview config).status = .queued ∨
        (order.recoverFailedReview config).status = .awaitingUserInput ∨
        (order.recoverFailedReview config).status = .deadLetter) := by
  unfold WorkOrder.recoverFailedReview
  rw [h]
  dsimp only
  split
  · exact ⟨⟨rfl, rfl, rfl, rfl, rfl, rfl⟩, rfl, rfl, rfl, rfl, .inr (.inr rfl)⟩
  · refine ⟨⟨rfl, rfl, rfl, rfl, rfl, rfl⟩, rfl, rfl, rfl, rfl, ?_⟩
    dsimp only
    split
    · exact .inl rfl
    · exact .inr (.inl rfl)

theorem recoverFailedReview_of_none (config : RunnerConfig) {order : WorkOrder}
    (h : order.failedReview = none) : order.recoverFailedReview config = order := by
  unfold WorkOrder.recoverFailedReview
  rw [h]

section Delayed

variable {x x' : Entry}

theorem WorkOrder.not_delayedBacktest {order : WorkOrder}
    (h : order.status ≠ .queued ∧ order.status ≠ .working ∨
      order.status ≠ .working ∧ order.stage ≠ some .backtest) :
    order.delayedBacktest outside = false := by
  have hworking : order.status ≠ .working := h.elim And.right And.left
  unfold delayedBacktest recoverInterrupted completedBacktest
  rw [if_neg hworking, if_neg]
  · rfl
  · rintro ⟨-, hqueued, hstage, -⟩
    exact h.elim (fun h => h.1 hqueued) fun h => h.2 hstage

theorem WorkOrder.not_delayedBacktest_of_failed {order : WorkOrder} {stage : ReviewStage}
    (hworking : order.status ≠ .working)
    (herror : order.lastError = some ("Review Agent returned FAIL for " ++ stage.value)) :
    order.delayedBacktest outside = false := by
  have hfinal : isRetryableCodexError ("RuntimeError: " ++
      ("Review Agent returned FAIL for " ++ stage.value)) = false := by
    cases stage <;> decide +kernel
  unfold delayedBacktest recoverInterrupted completedBacktest
  rw [if_neg hworking, if_neg]
  · rfl
  · rintro ⟨-, -, -, -, -, hretryable⟩
    rw [herror, Option.getD_some, hfinal] at hretryable
    cases hretryable

theorem WorkOrder.isSome_completedBacktest {order : WorkOrder} :
    (order.completedBacktest outside).isSome = true ↔
      (order.agent = .strategy ∧ order.status = .queued ∧ order.stage = some .backtest ∧
        order.needsBacktest = true ∧ truthy order.results.strategy = true ∧
        isRetryableCodexError ("RuntimeError: " ++ order.lastError.getD "") = true) ∧
      (outside.localBacktestEvidence order.id order.artifactKind).isSome = true := by
  unfold completedBacktest
  split
  · rename_i hdelayed
    simp [hdelayed]
  · rename_i hdelayed
    exact iff_of_false (by simp) fun h => hdelayed h.1

theorem WorkOrder.delayedBacktest_congr {order next : WorkOrder} (hid : next.id = order.id)
    (hkind : next.artifactKind = order.artifactKind) (hagent : next.agent = order.agent)
    (hstatus : next.status = order.status) (hstage : next.stage = order.stage)
    (hrequired : next.backtestRequired = order.backtestRequired)
    (hresults : next.results = order.results) (herror : next.lastError = order.lastError) :
    next.delayedBacktest outside = true ↔ order.delayedBacktest outside = true := by
  unfold delayedBacktest recoverInterrupted
  rw [isSome_completedBacktest, isSome_completedBacktest]
  by_cases hworking : order.status = .working
  · rw [if_pos (hstatus.trans hworking), if_pos hworking]
    simp only [resumeStage, needsBacktest, hid, hkind, hagent, hstage, hrequired, hresults, herror]
  · have hworking' : next.status ≠ .working := fun h => hworking (hstatus.symm.trans h)
    rw [if_neg hworking', if_neg hworking]
    simp only [needsBacktest, hid, hkind, hagent, hstatus, hstage, hrequired, hresults, herror]

theorem WorkOrder.delayedBacktest_of_recovery (hr : Recovery config outside allowed x x')
    (h : x'.order.delayedBacktest outside = true) : x.order.delayedBacktest outside = true := by
  have habsent : x'.order.delayedBacktest outside = false →
      x.order.delayedBacktest outside = true := fun hf => by
    rw [hf] at h
    cases h
  cases hr with
  | migrated =>
    refine (delayedBacktest_congr ?_ ?_ ?_ ?_ ?_ ?_ ?_ ?_).mp h <;>
      (dsimp only; unfold migrateOptimization; split <;> rfl)
  | interrupted =>
    have hidem : x.order.recoverInterrupted.recoverInterrupted = x.order.recoverInterrupted := by
      unfold recoverInterrupted
      by_cases hworking : x.order.status = .working
      · simp [hworking]
      · simp [hworking]
    dsimp only at h
    unfold delayedBacktest at h ⊢
    rwa [hidem] at h
  | optimizerStage hreg =>
    refine habsent (not_delayedBacktest (.inr ?_))
    simp [recoverOptimizerStage, hreg]
  | passedReview =>
    by_cases hp : x.order.passedReviewDeadLetter
    · refine habsent (not_delayedBacktest (.inl ?_))
      simp [recoverPassedReview, hp]
    · simpa [recoverPassedReview, hp] using h
  | failedReview =>
    cases hf : x.order.failedReview with
    | none =>
      dsimp only at h
      rwa [recoverFailedReview_of_none config hf] at h
    | some failed =>
      obtain ⟨_, _, _, _, herror, hstatus⟩ := recoverFailedReview_spec config hf
      refine habsent (not_delayedBacktest_of_failed ?_ herror)
      rcases hstatus with hs | hs | hs <;> simp [hs]
  | completedOptimize =>
    refine habsent (not_delayedBacktest (.inr ?_))
    simp [checkpointed]
  | completedGate =>
    refine habsent (not_delayedBacktest (.inl ?_))
    simp [finished]
  | cleared =>
    refine (delayedBacktest_congr ?_ ?_ ?_ ?_ ?_ ?_ ?_ ?_).mp h <;>
      (dsimp only; unfold clearTerminalRetry; split <;> rfl)

theorem WorkOrder.delayedBacktest_of_completed {order : WorkOrder} {results : Results}
    (h : order.completedBacktest outside = some results) :
    order.delayedBacktest outside = true := by
  have hqueued := (completedBacktest_eq_some h).1
  unfold delayedBacktest recoverInterrupted
  rw [if_neg (by simp [hqueued]), h]
  rfl

theorem WorkOrder.delayedBacktest_of_recoveries
    (hchain : ReflTransGen (Recovery config outside allowed) x x')
    (h : x'.order.delayedBacktest outside = true) : x.order.delayedBacktest outside = true := by
  induction hchain with
  | refl => exact h
  | tail _ hr ih => exact ih (delayedBacktest_of_recovery hr h)

theorem resumeStage_cases (order : WorkOrder) :
    order.stage = some order.resumeStage ∨ order.resumeStage = order.agent.stage := by
  unfold WorkOrder.resumeStage
  cases order.stage with
  | none => simp
  | some s =>
    dsimp only [Option.getD_some]
    split
    · exact .inl rfl
    · exact .inr rfl

theorem WorkOrder.stage_of_delayedBacktest {order : WorkOrder}
    (h : order.delayedBacktest outside = true) :
    (order.status = .queued ∨ order.status = .working) ∧ order.stage = some .backtest := by
  unfold delayedBacktest recoverInterrupted at h
  obtain ⟨⟨_, hqueued, hstage, _⟩, _⟩ := isSome_completedBacktest.mp h
  split at hstage
  · rename_i hworking
    refine ⟨.inr hworking, ?_⟩
    have hresume : order.resumeStage = .backtest := Option.some.inj hstage
    rcases resumeStage_cases order with hsame | hagent
    · rw [hsame, hresume]
    · rw [hresume] at hagent
      cases ha : order.agent <;> (rw [ha] at hagent; cases hagent)
  · rename_i hworking
    rw [if_neg hworking] at hqueued
    exact ⟨.inl hqueued, hstage⟩

end Delayed

theorem completeBacktests_linked {picked : List (WorkOrder × Results)} {d : Durable}
    (hdistinct : picked.Pairwise fun p q => p.1.id ≠ q.1.id)
    (hpicked : ∀ p ∈ picked, ∃ x ∈ d, x.order = p.1 ∧
      x.order.completedBacktest outside = some p.2) :
    Linked (Recovery config outside allowed) d (Durable.completeBacktests outside picked d).1 := by
  induction picked generalizing d with
  | nil => exact .refl d
  | cons p rest ih =>
    obtain ⟨hne, hrest⟩ := List.pairwise_cons.mp hdistinct
    obtain ⟨x, hx, hxp, hc⟩ := hpicked p (by simp)
    obtain ⟨x', hr, hid, hmove⟩ := completeBacktest_spec config allowed hx hc
    have hlink := Linked.of_rewritten hr hx hid hmove
    rw [hxp] at hlink hr
    simp only [Durable.completeBacktests]
    split
    case h_1 d₁ failure hd =>
      rw [hd] at hlink
      exact hlink
    case h_2 d₁ hd =>
      rw [hd] at hlink hr
      refine hlink.trans (ih hrest ?_)
      intro q hq
      obtain ⟨y, hy, hyq, hcq⟩ := hpicked q (by simp [hq])
      refine ⟨y, hr.mem_of_ne hy ?_, hyq, hcq⟩
      rw [hyq, hid, hxp]
      exact (hne q hq).symm

theorem completeBacktests_kept {picked : List (WorkOrder × Results)} {d : Durable}
    (hdistinct : picked.Pairwise fun p q => p.1.id ≠ q.1.id)
    (hpicked : ∀ p ∈ picked, ∃ x ∈ d, x.order = p.1 ∧
      x.order.completedBacktest outside = some p.2)
    {y : Entry} (hy : y ∈ d) (hother : ∀ p ∈ picked, y.order.id ≠ p.1.id) :
    y ∈ (Durable.completeBacktests outside picked d).1 := by
  induction picked generalizing d with
  | nil => exact hy
  | cons p rest ih =>
    obtain ⟨hne, hrest⟩ := List.pairwise_cons.mp hdistinct
    obtain ⟨x, hx, hxp, hc⟩ := hpicked p (by simp)
    obtain ⟨x', hr, hx'⟩ := completeBacktest_rewritten outside hx p.2
    have hid : x'.order.id = p.1.id := by
      rw [← hxp]
      rcases hx' with rfl | ⟨_, rfl, _⟩ <;> rfl
    rw [hxp] at hr
    have hkept := hr.mem_of_ne hy (by rw [hid]; exact hother p (by simp))
    simp only [Durable.completeBacktests]
    split
    case h_1 d₁ failure hd =>
      rw [hd] at hkept
      exact hkept
    case h_2 d₁ hd =>
      rw [hd] at hr hkept
      refine ih hrest ?_ hkept fun q hq => hother q (by simp [hq])
      intro q hq
      obtain ⟨z, hz, hzq, hcq⟩ := hpicked q (by simp [hq])
      refine ⟨z, hr.mem_of_ne hz ?_, hzq, hcq⟩
      rw [hzq, hid]
      exact (hne q hq).symm

theorem completeBacktests_head {p : WorkOrder × Results} {rest : List (WorkOrder × Results)}
    {d : Durable} (hdistinct : (p :: rest).Pairwise fun p q => p.1.id ≠ q.1.id)
    (hpicked : ∀ q ∈ p :: rest, ∃ x ∈ d, x.order = q.1 ∧
      x.order.completedBacktest outside = some q.2) :
    ∃ y ∈ (Durable.completeBacktests outside (p :: rest) d).1, y.order.id = p.1.id ∧
      (y.order.stage = some .optimize ∨ y.order.status = .awaitingBacktestApproval) ∧
      y.order.results = p.2 := by
  obtain ⟨hne, hrest⟩ := List.pairwise_cons.mp hdistinct
  obtain ⟨x, hx, hxp, _⟩ := hpicked p (by simp)
  obtain ⟨y, hr, hy⟩ := completeBacktest_rewritten outside hx p.2
  rw [hxp] at hr
  have hid : y.order.id = p.1.id := by
    rw [← hxp]
    rcases hy with rfl | ⟨_, rfl, _⟩ <;> rfl
  have hplace : y.order.stage = some .optimize ∨ y.order.status = .awaitingBacktestApproval := by
    rcases hy with rfl | ⟨_, rfl, _⟩
    · exact .inl rfl
    · exact .inr rfl
  have hresults : y.order.results = p.2 := by
    rcases hy with rfl | ⟨_, rfl, _⟩ <;> rfl
  refine ⟨y, ?_, hid, hplace, hresults⟩
  have hmem := hr.mem
  simp only [Durable.completeBacktests]
  split
  case h_1 d₁ failure hd =>
    rw [hd] at hmem
    exact hmem
  case h_2 d₁ hd =>
    rw [hd] at hr hmem
    refine completeBacktests_kept hrest ?_ hmem fun q hq => ?_
    · intro q hq
      obtain ⟨z, hz, hzq, hcq⟩ := hpicked q (by simp [hq])
      refine ⟨z, hr.mem_of_ne hz ?_, hzq, hcq⟩
      rw [hzq, hid]
      exact (hne q hq).symm
    · rw [hid]
      exact hne q hq

theorem pickedBacktests_spec (outside : Outside) (d : Durable) :
    (d.store.workOrders.entries.filterMap fun order =>
      (order.completedBacktest outside).map fun results => (order, results)).Pairwise
        (fun p q => p.1.id ≠ q.1.id) ∧
    ∀ p ∈ d.store.workOrders.entries.filterMap (fun order =>
        (order.completedBacktest outside).map fun results => (order, results)),
      ∃ x ∈ d, x.order = p.1 ∧ x.order.completedBacktest outside = some p.2 := by
  constructor
  · rw [List.pairwise_filterMap]
    have hnodup := List.pairwise_map.mp d.store.workOrders.unique
    refine hnodup.imp ?_
    intro a b hne p hp q hq
    obtain ⟨r, _, rfl⟩ := Option.map_eq_some_iff.mp hp
    obtain ⟨r', _, rfl⟩ := Option.map_eq_some_iff.mp hq
    exact hne
  · intro p hp
    obtain ⟨order, horder, hpick⟩ := List.mem_filterMap.mp hp
    obtain ⟨results, hc, rfl⟩ := Option.map_eq_some_iff.mp hpick
    exact ⟨⟨order, d.artifacts.find order.id⟩, ⟨horder, rfl⟩, rfl, hc⟩

theorem recoverCompletedBacktests_linked (d : Durable) :
    Linked (Recovery config outside allowed) d (d.recoverCompletedBacktests outside).1 := by
  obtain ⟨hdistinct, hpicked⟩ := pickedBacktests_spec outside d
  exact completeBacktests_linked hdistinct hpicked

theorem recoverCompletedBacktests_kept (outside : Outside) {d : Durable} {y : Entry} (hy : y ∈ d)
    (hstage : y.order.stage ≠ some .backtest) :
    y ∈ (d.recoverCompletedBacktests outside).1 := by
  obtain ⟨hdistinct, hpicked⟩ := pickedBacktests_spec outside d
  apply completeBacktests_kept hdistinct hpicked hy
  intro p hp hid
  obtain ⟨x, hx, hxp, hc⟩ := hpicked p hp
  have hyx : y = x := Durable.eq_of_mem hy hx (by rw [hid, hxp])
  rw [hyx] at hstage
  exact hstage (completedBacktest_eq_some hc).2.1

theorem Durable.mem_mapOrders_of_eq {d : Durable} {y : Entry} {f : WorkOrder → WorkOrder}
    (hf : ∀ order, (f order).id = order.id) (hy : y ∈ d) (heq : f y.order = y.order) :
    y ∈ d.onStore (·.mapOrders f hf) :=
  Durable.mem_mapOrders.mpr ⟨y, hy, by rw [heq]⟩

theorem reviewRecoveries_kept (config : RunnerConfig) {d : Durable} {y : Entry} (hy : y ∈ d)
    (hstatus : y.order.status = .queued) :
    y ∈ (d.onStore (·.recoverPassedReviews)).onStore (·.recoverFailedReviews config) := by
  have hpassed : y ∈ d.onStore (·.recoverPassedReviews) :=
    Durable.mem_mapOrders_of_eq (f := (·.recoverPassedReview)) (by simp) hy (by
      simp [WorkOrder.recoverPassedReview, WorkOrder.passedReviewDeadLetter, hstatus])
  exact Durable.mem_mapOrders_of_eq (f := (·.recoverFailedReview config)) (by simp) hpassed (by
    simp [WorkOrder.recoverFailedReview, WorkOrder.failedReview, WorkOrder.openedBy, hstatus])

/-- The durable state that `_recover_completed_backtest_orders` of a startup sees. -/
def Durable.restored (config : RunnerConfig) (d : Durable) : Durable :=
  ((d.resumed.onStore (·.recoverOptimizerStages config)).onStore
    (·.recoverPassedReviews)).onStore (·.recoverFailedReviews config)

theorem recover_completed {d : Durable} {y : Entry}
    (hy : y ∈ ((d.restored config).recoverCompletedBacktests outside).1) :
    y ∈ (d.recover config outside).1 ∨
      ⟨y.order.clearTerminalRetry, y.record⟩ ∈ (d.recover config outside).1 := by
  have hmem {d' : Durable} {failure : Option Failure}
      (hd : (d.restored config).recoverCompletedBacktests outside = (d', failure)) : y ∈ d' := by
    rwa [hd] at hy
  unfold Durable.recover
  dsimp only
  split
  case h_1 d' failure hd => exact .inl (hmem hd)
  case h_2 d' hd => exact .inr (Durable.mem_mapOrders.mpr ⟨y, hmem hd, rfl⟩)

theorem recover_restored {d : Durable} {x : Entry} (hx : x ∈ d.resumed)
    (hreg : x.order.optimizerRegression) :
    ⟨x.order.recoverOptimizerStage config, x.record⟩ ∈ (d.recover config outside).1 := by
  have hstatus : (x.order.recoverOptimizerStage config).status = .queued := by
    simp [WorkOrder.recoverOptimizerStage, hreg]
  have hstage : (x.order.recoverOptimizerStage config).stage = some .optimize := by
    simp [WorkOrder.recoverOptimizerStage, hreg]
  have hrestored : (⟨x.order.recoverOptimizerStage config, x.record⟩ : Entry) ∈
      d.resumed.onStore (·.recoverOptimizerStages config) := by
    have hmap : (⟨x.order.recoverOptimizerStage config, x.record⟩ : Entry) ∈
        d.resumed.onStore (·.mapOrders (·.recoverOptimizerStage config) (by simp)) :=
      Durable.mem_mapOrders.mpr ⟨x, hx, rfl⟩
    exact hmap
  have hkept := recoverCompletedBacktests_kept outside
    (reviewRecoveries_kept config hrestored hstatus) (by simp [hstage])
  have hclear : (x.order.recoverOptimizerStage config).clearTerminalRetry =
      x.order.recoverOptimizerStage config := by
    simp [WorkOrder.clearTerminalRetry, hstatus]
  rcases (recover_completed hkept : _ ∈ (d.recover config outside).1 ∨ _) with hmem | hmem
  · exact hmem
  · rwa [hclear] at hmem

theorem restored_linked {d : Durable}
    (h : ∀ x ∈ d.resumed, x.order.optimizerRegression → allowed x) :
    Linked (Recovery config outside allowed) d.resumed (d.restored config) :=
  ((recoverOptimizerStages_linked h).trans (recoverPassedReviews_linked _)).trans
    (recoverFailedReviews_linked _)

theorem resumed_recover_linked {d : Durable}
    (h : ∀ x ∈ d.resumed, x.order.optimizerRegression → allowed x) :
    Linked (Recovery config outside allowed) d.resumed (d.recover config outside).1 := by
  have hall : Linked (Recovery config outside allowed) d.resumed
      ((d.restored config).recoverCompletedBacktests outside).1 :=
    (restored_linked h).trans (recoverCompletedBacktests_linked (d.restored config))
  unfold Durable.recover
  dsimp only
  split
  case h_1 d' failure hd =>
    rw [show d' = _ from (congrArg Prod.fst hd).symm]
    exact hall
  case h_2 d' hd =>
    rw [show d' = _ from (congrArg Prod.fst hd).symm]
    exact hall.trans (Linked.mapOrders fun x _ => .inr (.cleared x))

theorem recover_linked {d : Durable}
    (h : ∀ x ∈ d.resumed, x.order.optimizerRegression → allowed x) :
    Linked (Recovery config outside allowed) d (d.recover config outside).1 :=
  (resumed_linked d).trans (resumed_recover_linked h)

theorem restored_delayed (config : RunnerConfig) {d : Durable} {x : Entry} (hx : x ∈ d)
    (hdelayed : x.order.delayedBacktest outside = true) :
    ∃ y ∈ d.restored config, (y.order.completedBacktest outside).isSome = true := by
  have hresumed : (⟨x.order.migrateOptimization.recoverInterrupted, x.record⟩ : Entry) ∈
      d.resumed :=
    Durable.mem_mapOrders.mpr ⟨_, Durable.mem_mapOrders.mpr ⟨x, hx, rfl⟩, rfl⟩
  have hsome : x.order.migrateOptimization.delayedBacktest outside = true := by
    refine (WorkOrder.delayedBacktest_congr ?_ ?_ ?_ ?_ ?_ ?_ ?_ ?_).mpr hdelayed <;>
      (unfold WorkOrder.migrateOptimization; split <;> rfl)
  unfold WorkOrder.delayedBacktest at hsome
  have hqueued := (WorkOrder.isSome_completedBacktest.mp hsome).1.2.1
  have hkept : (⟨x.order.migrateOptimization.recoverInterrupted, x.record⟩ : Entry) ∈
      d.resumed.onStore (·.recoverOptimizerStages config) :=
    Durable.mem_mapOrders_of_eq (f := (·.recoverOptimizerStage config)) (by simp) hresumed (by
      simp [WorkOrder.recoverOptimizerStage, WorkOrder.optimizerRegression, hqueued])
  exact ⟨_, reviewRecoveries_kept config hkept hqueued, hsome⟩

theorem recoverCompletedBacktests_finished {d : Durable} {x : Entry} (hx : x ∈ d)
    (hc : (x.order.completedBacktest outside).isSome = true) :
    ∃ x₁ ∈ d, (x₁.order.completedBacktest outside).isSome = true ∧
      ∃ y ∈ (d.recoverCompletedBacktests outside).1, y.order.id = x₁.order.id ∧
        (y.order.stage = some .optimize ∨ y.order.status = .awaitingBacktestApproval) ∧
        y.order.results.reviewBacktest = some WorkOrder.nativeReview := by
  obtain ⟨results, hresults⟩ := Option.isSome_iff_exists.mp hc
  obtain ⟨hdistinct, hpicked⟩ := pickedBacktests_spec outside d
  have hmem : (x.order, results) ∈ d.store.workOrders.entries.filterMap fun order =>
      (order.completedBacktest outside).map fun results => (order, results) :=
    List.mem_filterMap.mpr ⟨x.order, hx.1, by rw [hresults]; rfl⟩
  unfold Durable.recoverCompletedBacktests
  generalize d.store.workOrders.entries.filterMap (fun order =>
    (order.completedBacktest outside).map fun results => (order, results)) = picked at *
  cases picked with
  | nil => cases hmem
  | cons p rest =>
    obtain ⟨x₁, hx₁, hxp, hc₁⟩ := hpicked p (by simp)
    obtain ⟨y, hy, hid, hplace, hy'⟩ := completeBacktests_head hdistinct hpicked
    refine ⟨x₁, hx₁, by rw [hc₁]; rfl, y, hy, by rw [hid, hxp], hplace, ?_⟩
    obtain ⟨_, _, _, _, hnative⟩ := completedBacktest_eq_some hc₁
    rw [hy', hnative]

theorem recover_delayed (config : RunnerConfig) {d : Durable} {x : Entry} (hx : x ∈ d)
    (hdelayed : x.order.delayedBacktest outside = true) :
    ∃ x₀ ∈ d, x₀.order.delayedBacktest outside = true ∧
      ∃ y ∈ (d.recover config outside).1, y.order.id = x₀.order.id ∧
        (y.order.stage = some .optimize ∨ y.order.status = .awaitingBacktestApproval) ∧
        y.order.results.reviewBacktest = some WorkOrder.nativeReview := by
  obtain ⟨x', hx', hc⟩ := restored_delayed config hx hdelayed
  obtain ⟨x₁, hx₁, hc₁, y, hy, hid, hplace, hnative⟩ := recoverCompletedBacktests_finished hx' hc
  have hlinked : Linked (Recovery config outside fun _ => True) d (d.restored config) :=
    (resumed_linked d).trans (restored_linked fun _ _ _ => trivial)
  obtain ⟨x₀, hx₀, hid₀, hchain⟩ := hlinked.back x₁ hx₁
  obtain ⟨results, hresults⟩ := Option.isSome_iff_exists.mp hc₁
  refine ⟨x₀, hx₀, WorkOrder.delayedBacktest_of_recoveries hchain
    (WorkOrder.delayedBacktest_of_completed hresults), ?_⟩
  rcases recover_completed hy with hmem | hmem
  · exact ⟨y, hmem, by rw [hid, hid₀], hplace, hnative⟩
  · refine ⟨_, hmem, ?_, ?_, ?_⟩
    · rw [y.order.clearTerminalRetry_id, hid, hid₀]
    · rwa [y.order.clearTerminalRetry_status, y.order.clearTerminalRetry_stage]
    · rwa [y.order.clearTerminalRetry_results]

theorem resumed_not_working {d : Durable} {y : Entry} (hy : y ∈ d.resumed) :
    y.order.status ≠ .working := by
  obtain ⟨x, _, rfl⟩ := Durable.mem_mapOrders.mp hy
  dsimp only
  unfold WorkOrder.recoverInterrupted
  split
  · simp
  · assumption

theorem Recovery.not_working {x y : Entry} (h : Recovery config outside allowed x y)
    (hx : x.order.status ≠ .working) : y.order.status ≠ .working := by
  cases h with
  | migrated =>
    dsimp only
    unfold WorkOrder.migrateOptimization
    split <;> exact hx
  | interrupted =>
    dsimp only
    unfold WorkOrder.recoverInterrupted
    split
    · simp
    · exact hx
  | optimizerStage hreg =>
    dsimp only
    simp [WorkOrder.recoverOptimizerStage, hreg]
  | passedReview =>
    dsimp only
    unfold WorkOrder.recoverPassedReview
    split
    · simp
    · exact hx
  | failedReview =>
    dsimp only
    cases hf : x.order.failedReview with
    | none =>
      rw [recoverFailedReview_of_none config hf]
      exact hx
    | some failed =>
      obtain ⟨_, _, _, _, _, hstatus⟩ := recoverFailedReview_spec config hf
      rcases hstatus with h | h | h <;> simp [h]
  | completedOptimize => simp
  | completedGate => simp [WorkOrder.finished]
  | cleared =>
    dsimp only
    unfold WorkOrder.clearTerminalRetry
    split <;> exact hx

theorem recover_not_working {d : Durable} {y : Entry} (hy : y ∈ (d.recover config outside).1) :
    y.order.status ≠ .working := by
  have hlinked : Linked (Recovery config outside fun _ => True) d.resumed
      (d.recover config outside).1 := resumed_recover_linked fun _ _ _ => trivial
  obtain ⟨x, hx, hid, hchain⟩ := hlinked.back y hy
  have hresumed := resumed_not_working hx
  clear hx hy hid
  induction hchain with
  | refl => exact hresumed
  | tail _ hr ih => exact hr.not_working ih

end ChainQuantStudio.Studio
