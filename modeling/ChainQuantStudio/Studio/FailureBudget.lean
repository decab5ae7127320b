import ChainQuantStudio.Studio.WorkerLoop

/-!
# The failure budget and the dead letters

An order that may still run has attempts left and no issue over the limit; one that has used up
either is a dead letter, and the list of dead letters has exactly these orders. The optimizer-stage
recovery gives a dead letter its last failure back, which is enough to put it within the budget.
-/

namespace ChainQuantStudio.Studio

namespace IssueCounts

variable {counts : IssueCounts} {key other : String} {entry : String × ℕ} {limit : ℕ}

theorem keys_increment (counts : IssueCounts) (key : String) :
    (counts.increment key).map Prod.fst =
      if key ∈ counts.map Prod.fst then counts.map Prod.fst else counts.map Prod.fst ++ [key] := by
  have hany : (counts.any (·.1 == key) = true) ↔ key ∈ counts.map Prod.fst := by
    simp
  unfold increment
  by_cases hk : key ∈ counts.map Prod.fst
  · rw [if_pos (hany.mpr hk), if_pos hk, List.map_map]
    apply List.map_congr_left
    intro entry _
    dsimp only [Function.comp_apply]
    split <;> rfl
  · rw [if_neg (mt hany.mp hk), if_neg hk]
    simp

theorem nodup_increment (h : (counts.map Prod.fst).Nodup) (key : String) :
    ((counts.increment key).map Prod.fst).Nodup := by
  rw [keys_increment]
  split
  · exact h
  · rename_i hk
    rw [List.nodup_append]
    refine ⟨h, by simp, ?_⟩
    intro a ha b hb
    rw [List.mem_singleton.mp hb]
    rintro rfl
    exact hk ha

theorem mem_of_mem_increment (h : entry ∈ counts.increment key) (hne : entry.1 ≠ key) :
    entry ∈ counts := by
  unfold increment at h
  split at h
  · obtain ⟨old, hold, heq⟩ := List.mem_map.mp h
    split at heq
    · rename_i hkey
      rw [← heq] at hne
      exact absurd (beq_iff_eq.mp hkey) hne
    · rw [← heq]
      exact hold
  · rcases List.mem_append.mp h with h | h
    · exact h
    · rw [List.mem_singleton.mp h] at hne
      exact absurd rfl hne

theorem count_of_mem (h : (counts.map Prod.fst).Nodup) (hmem : entry ∈ counts) :
    counts.count entry.1 = entry.2 := by
  unfold count
  induction counts with
  | nil => cases hmem
  | cons head tail ih =>
    obtain ⟨k, n⟩ := head
    rw [List.map_cons, List.nodup_cons] at h
    rcases List.mem_cons.mp hmem with rfl | htail
    · simp
    · have hne : entry.1 ≠ k := by
        intro heq
        have hin : entry.1 ∈ tail.map Prod.fst := List.mem_map_of_mem htail
        rw [heq] at hin
        exact h.1 hin
      rw [List.lookup_cons, beq_false_of_ne hne]
      exact ih h.2 htail

theorem count_increment_pos (h : (counts.map Prod.fst).Nodup) (key : String) :
    0 < (counts.increment key).count key := by
  have hmem : ∃ n, (key, n + 1) ∈ counts.increment key := by
    unfold increment
    split
    case isTrue hany =>
      obtain ⟨entry, hentry, hkey⟩ := List.any_eq_true.mp hany
      obtain rfl := beq_iff_eq.mp hkey
      exact ⟨entry.2, List.mem_map.mpr ⟨entry, hentry, if_pos (beq_self_eq_true _)⟩⟩
    case isFalse => exact ⟨0, List.mem_append_right _ (List.mem_singleton_self _)⟩
  obtain ⟨n, hn⟩ := hmem
  rw [count_of_mem (nodup_increment h key) hn]
  exact Nat.succ_pos n

def countAll (counts : IssueCounts) (keys : List String) : IssueCounts :=
  keys.foldl increment counts

theorem nodup_countAll (h : (counts.map Prod.fst).Nodup) (keys : List String) :
    ((counts.countAll keys).map Prod.fst).Nodup := by
  induction keys generalizing counts with
  | nil => exact h
  | cons key keys ih => exact ih (nodup_increment h key)

theorem mem_of_mem_countAll {keys : List String} (h : entry ∈ counts.countAll keys)
    (hne : entry.1 ∉ keys) : entry ∈ counts := by
  induction keys generalizing counts with
  | nil => exact h
  | cons key keys ih =>
    rw [List.mem_cons, not_or] at hne
    exact mem_of_mem_increment (ih h hne.2) hne.1

theorem countAll_le {keys : List String} (hnodup : (counts.map Prod.fst).Nodup)
    (h : ∀ entry ∈ counts, entry.2 ≤ limit)
    (hkeys : ∀ key ∈ keys, (counts.countAll keys).count key ≤ limit) :
    ∀ entry ∈ counts.countAll keys, entry.2 ≤ limit := by
  intro entry hentry
  by_cases hk : entry.1 ∈ keys
  · rw [← count_of_mem (nodup_countAll hnodup keys) hentry]
    exact hkeys _ hk
  · exact h entry (mem_of_mem_countAll hentry hk)

theorem nodup_pop (h : (counts.map Prod.fst).Nodup) (key : String) :
    ((counts.pop key).map Prod.fst).Nodup :=
  (List.filter_sublist.map Prod.fst).nodup h

end IssueCounts

/-- The statuses of an order that may still run. -/
def Status.live : Status → Bool
  | .queued | .working | .awaitingImplementationApproval | .awaitingOptimizationApproval
  | .awaitingBacktestApproval | .awaitingLiveApproval | .awaitingUserInput => true
  | _ => false

/-- An order that may still run has attempts left, and no issue was counted too often. -/
def WorkOrder.WithinBudget (config : RunnerConfig) (order : WorkOrder) : Prop :=
  order.status.live = true →
    order.attempts < config.maxAttempts ∧
      ∀ entry ∈ order.issueCounts, entry.2 ≤ config.sameIssueLimit

def timedOut (error : String) : Bool :=
  "Codex strategy turn exceeded ".toList.isPrefixOf error.toList

structure Budgeted (config : RunnerConfig) (order : WorkOrder) : Prop where
  within : order.WithinBudget config
  keys : (order.issueCounts.map Prod.fst).Nodup
  spent : order.status = .deadLetter → order.stage = some .strategy →
    ∀ error, order.lastError = some error → timedOut error = true →
      order.attempts ≤ config.maxAttempts ∧
        0 < order.issueCounts.count (issueKey config.fingerprint "strategy" error) ∧
        ∀ entry ∈ order.issueCounts,
          entry.1 ≠ issueKey config.fingerprint "strategy" error →
            entry.2 ≤ config.sameIssueLimit
  lastError : order.lastError ≠ some WorkOrder.misreadReview

section Order

variable {config : RunnerConfig} {order next : WorkOrder}

theorem Budgeted.of_same (h : Budgeted config order) (hlive : order.status.live = true)
    (hattempts : next.attempts = order.attempts) (hcounts : next.issueCounts = order.issueCounts)
    (hdead : next.status ≠ .deadLetter)
    (herror : next.lastError = order.lastError ∨ next.lastError = none) :
    Budgeted config next := by
  obtain ⟨ha, hc⟩ := h.within hlive
  refine ⟨fun _ => ?_, ?_, fun hd => absurd hd hdead, ?_⟩
  · rw [hattempts, hcounts]
    exact ⟨ha, hc⟩
  · rw [hcounts]
    exact h.keys
  · rcases herror with he | he
    · rw [he]
      exact h.lastError
    · rw [he]
      nofun

theorem Budgeted.of_cleared (hattempts : next.attempts = 0) (hcounts : next.issueCounts = [])
    (hdead : next.status ≠ .deadLetter) (herror : next.lastError ≠ some WorkOrder.misreadReview) :
    Budgeted config next := by
  refine ⟨fun _ => ?_, ?_, fun hd => absurd hd hdead, herror⟩
  · rw [hattempts, hcounts]
    exact ⟨config.maxAttempts_pos, by simp⟩
  · rw [hcounts]
    exact List.nodup_nil

structure Requeue.Plain (r : Requeue) : Prop where
  notMisread : r.reason ≠ WorkOrder.misreadReview
  keys : timedOut r.reason = true → r.issueKeys = []

theorem Requeue.counts_eq (config : RunnerConfig) (r : Requeue) (order : WorkOrder)
    (h : r.countAttempt = true) :
    r.counts config order = order.issueCounts.countAll (r.keys config) := by
  simp [Requeue.counts, h, IssueCounts.countAll]

theorem Requeue.attempts_counted (r : Requeue) (order : WorkOrder) (h : r.countAttempt = true) :
    r.attempts order = order.attempts + 1 := by
  simp [Requeue.attempts, h]

theorem Requeue.apply_uncounted (config : RunnerConfig) (r : Requeue) (order : WorkOrder)
    (h : r.countAttempt = false) :
    (r.apply config order).attempts = order.attempts ∧
      (r.apply config order).issueCounts = order.issueCounts ∧
      (r.apply config order).status ≠ .deadLetter := by
  have hex : ¬ r.exhausted config order := by
    rintro ⟨hcount, -⟩
    rw [h] at hcount
    cases hcount
  unfold Requeue.apply
  rw [if_neg hex]
  refine ⟨by simp [Requeue.attempts, h], by simp [Requeue.counts, h], ?_⟩
  dsimp only
  split <;> decide

theorem Budgeted.exhausted (h : Budgeted config order) (hlive : order.status.live = true)
    {r : Requeue} (hr : r.Plain) (hex : r.exhausted config order) :
    Budgeted config (r.apply config order) := by
  obtain ⟨ha, hc⟩ := h.within hlive
  have hcounts := r.counts_eq config order hex.1
  have hattempts := r.attempts_counted order hex.1
  unfold Requeue.apply
  rw [if_pos hex]
  refine ⟨nofun, ?_, ?_, ?_⟩
  · dsimp only
    rw [hcounts]
    exact IssueCounts.nodup_countAll h.keys _
  · dsimp only
    intro _ hstage error herror htimed
    obtain rfl := Option.some.inj herror
    have hkeys : r.keys config = [issueKey config.fingerprint "strategy" r.reason] := by
      unfold Requeue.keys
      rw [if_pos (hr.keys htimed), Option.some.inj hstage]
      rfl
    rw [hcounts, hkeys, hattempts]
    refine ⟨ha, IssueCounts.count_increment_pos h.keys _, ?_⟩
    intro entry hentry hne
    exact hc entry (IssueCounts.mem_of_mem_increment hentry hne)
  · intro herror
    exact hr.notMisread (Option.some.inj herror)

theorem Budgeted.requeued (h : Budgeted config order) (hlive : order.status.live = true)
    {r : Requeue} (hr : r.Plain) : Budgeted config (r.apply config order) := by
  obtain ⟨ha, hc⟩ := h.within hlive
  by_cases hex : r.exhausted config order
  · exact h.exhausted hlive hr hex
  have hstatus : (r.apply config order).status ≠ .deadLetter := by
    unfold Requeue.apply
    rw [if_neg hex]
    dsimp only
    split <;> decide
  have herror : (r.apply config order).lastError ≠ some WorkOrder.misreadReview := by
    rw [Requeue.apply_lastError]
    exact fun he => hr.notMisread (Option.some.inj he)
  by_cases hcount : r.countAttempt = true
  · have hcounts := r.counts_eq config order hcount
    have hattempts := r.attempts_counted order hcount
    have hnot : ¬ (config.maxAttempts ≤ r.attempts order ∨ r.recurring config order ≠ []) :=
      fun hor => hex ⟨hcount, hor⟩
    rw [not_or, not_not] at hnot
    have happly : (r.apply config order).attempts = r.attempts order ∧
        (r.apply config order).issueCounts = r.counts config order := by
      unfold Requeue.apply
      rw [if_neg hex]
      exact ⟨rfl, rfl⟩
    refine ⟨fun _ => ⟨?_, ?_⟩, ?_, fun hd => absurd hd hstatus, herror⟩
    · rw [happly.1]
      omega
    · rw [happly.2, hcounts]
      apply IssueCounts.countAll_le h.keys hc
      intro key hkey
      rw [← hcounts]
      have hfilter := List.filter_eq_nil_iff.mp hnot.2 key hkey
      simpa using hfilter
    · rw [happly.2, hcounts]
      exact IssueCounts.nodup_countAll h.keys _
  · obtain ⟨hattempts, hcounts, -⟩ :=
      r.apply_uncounted config order (Bool.eq_false_iff.mpr hcount)
    refine ⟨fun _ => ?_, ?_, fun hd => absurd hd hstatus, herror⟩
    · rw [hattempts, hcounts]
      exact ⟨ha, hc⟩
    · rw [hcounts]
      exact h.keys

theorem Budgeted.of_fields (h : Budgeted config order) (hstatus : next.status = order.status)
    (hstage : next.stage = order.stage) (hattempts : next.attempts = order.attempts)
    (hcounts : next.issueCounts = order.issueCounts) (herror : next.lastError = order.lastError) :
    Budgeted config next := by
  refine ⟨?_, ?_, ?_, ?_⟩
  · unfold WorkOrder.WithinBudget
    rw [hstatus, hattempts, hcounts]
    exact h.within
  · rw [hcounts]
    exact h.keys
  · rw [hstatus, hstage, hattempts, hcounts, herror]
    exact h.spent
  · rw [herror]
    exact h.lastError

theorem Budgeted.migrated (h : Budgeted config order) : Budgeted config order.migrateOptimization := by
  unfold WorkOrder.migrateOptimization
  split
  · exact h
  · exact h.of_fields rfl rfl rfl rfl rfl

theorem Budgeted.interrupted (h : Budgeted config order) :
    Budgeted config order.recoverInterrupted := by
  unfold WorkOrder.recoverInterrupted
  split
  · rename_i hworking
    exact h.of_same (by rw [hworking]; rfl) rfl rfl (by simp) (.inl rfl)
  · exact h

theorem Budgeted.cleared (h : Budgeted config order) : Budgeted config order.clearTerminalRetry := by
  unfold WorkOrder.clearTerminalRetry
  split
  · exact h
  · exact h.of_fields rfl rfl rfl rfl rfl

theorem Budgeted.optimizerRestored (h : Budgeted config order) (hreg : order.optimizerRegression) :
    Budgeted config (order.recoverOptimizerStage config) := by
  have hparts := hreg
  obtain ⟨hdead, _, hstage, _, _, _, _, htimed⟩ := hparts
  have hsome : ∃ error, order.lastError = some error := by
    cases he : order.lastError with
    | none =>
      rw [he] at htimed
      exact absurd htimed (by decide)
    | some error => exact ⟨error, rfl⟩
  obtain ⟨error, herror⟩ := hsome
  rw [herror] at htimed
  obtain ⟨ha, hpos, hc⟩ := h.spent hdead hstage error herror htimed
  have hmax := config.maxAttempts_pos
  unfold WorkOrder.recoverOptimizerStage
  rw [if_pos hreg, herror]
  refine ⟨fun _ => ⟨?_, ?_⟩, IssueCounts.nodup_pop h.keys _, nofun, nofun⟩
  · dsimp only [Option.getD_some]
    omega
  · intro entry hentry
    obtain ⟨hmem, hne⟩ := List.mem_filter.mp hentry
    exact hc entry hmem (by simpa using hne)

theorem not_passedReviewDeadLetter (h : Budgeted config order) : ¬ order.passedReviewDeadLetter :=
  fun hp => h.lastError hp.2.1

theorem failedReviewReason_ne (stage : ReviewStage) :
    "Review Agent returned FAIL for " ++ stage.value ≠ WorkOrder.misreadReview :=
  verdictReason_ne .fail stage

theorem failedReviewReason_not_timedOut (stage : ReviewStage) :
    timedOut ("Review Agent returned FAIL for " ++ stage.value) = false := by
  cases stage <;> decide

theorem openedBy_live {stage : ReviewStage} (h : order.openedBy = some stage) :
    order.status.live = true := by
  unfold WorkOrder.openedBy at h
  split at h
  · rename_i hs
    rw [hs]
    rfl
  · rename_i hs
    rw [hs]
    rfl
  · cases h

theorem Budgeted.failedReview (h : Budgeted config order) :
    Budgeted config (order.recoverFailedReview config) := by
  cases hf : order.failedReview with
  | none =>
    rw [recoverFailedReview_of_none config hf]
    exact h
  | some failed =>
    obtain ⟨stage, review⟩ := failed
    obtain ⟨_, _, _, _, herror, _⟩ := recoverFailedReview_spec config hf
    obtain ⟨ha, hc⟩ := h.within (openedBy_live (failedReview_eq_some hf).1)
    have hnot : (order.recoverFailedReview config).lastError ≠ some WorkOrder.misreadReview := by
      rw [herror]
      exact fun he => failedReviewReason_ne stage (Option.some.inj he)
    have hkeys : ((order.recoverFailedReview config).issueCounts.map Prod.fst).Nodup := by
      unfold WorkOrder.recoverFailedReview
      rw [hf]
      dsimp only
      split <;> exact IssueCounts.nodup_countAll h.keys _
    refine ⟨?_, hkeys, ?_, hnot⟩
    · unfold WorkOrder.recoverFailedReview
      rw [hf]
      dsimp only
      split
      case isTrue => exact nofun
      case isFalse hex =>
        rw [not_or, Nat.not_le, not_not] at hex
        refine fun _ => ⟨hex.1, ?_⟩
        apply IssueCounts.countAll_le h.keys hc
        intro key hkey
        have hfilter := List.filter_eq_nil_iff.mp hex.2 key hkey
        have hle : (order.failedReviewCounts config stage review).count key ≤
            config.sameIssueLimit := by simpa using hfilter
        exact hle
    · intro _ _ error he htimed
      rw [herror] at he
      rw [← Option.some.inj he, failedReviewReason_not_timedOut] at htimed
      cases htimed

theorem ApprovalGate.expected_live (gate : ApprovalGate) : gate.expected.live = true := by
  cases gate <;> rfl

theorem Budgeted.approved {gate : ApprovalGate} {approved : Bool} {note : String}
    (h : Budgeted config order) (ha : order.approval gate approved note = .ok next) :
    Budgeted config next := by
  obtain ⟨hstatus, moved, hmoved, rfl⟩ := order.approval_eq_ok ha
  have hlive : order.status.live = true := by
    rw [hstatus]
    exact gate.expected_live
  suffices hb : Budgeted config moved from hb.of_fields rfl rfl rfl rfl rfl
  unfold WorkOrder.decided at hmoved
  cases gate with
  | implementation =>
    cases approved with
    | false =>
      rw [← Except.ok.inj hmoved]
      exact h.of_same hlive rfl rfl (by simp) (.inl rfl)
    | true =>
      dsimp only at hmoved
      split at hmoved <;>
      · rw [← Except.ok.inj hmoved]
        exact h.of_same hlive rfl rfl (by simp) (.inl rfl)
  | optimization =>
    dsimp only at hmoved
    split at hmoved
    · cases hmoved
    · split at hmoved
      · cases hmoved
      · split at hmoved
        · rw [← Except.ok.inj hmoved]
          exact .of_cleared rfl rfl (by simp) h.lastError
        · rw [← Except.ok.inj hmoved]
          exact h.of_same hlive rfl rfl (by simp) (.inl rfl)
  | backtest =>
    cases approved <;>
    · rw [← Except.ok.inj hmoved]
      exact h.of_same hlive rfl rfl (by simp) (.inl rfl)
  | live =>
    cases approved <;>
    · rw [← Except.ok.inj hmoved]
      exact h.of_same hlive rfl rfl (by simp) (.inl rfl)

end Order

/-- Each dead letter is on the list once, and nothing else is. -/
structure Durable.ListsDeadLetters (d : Durable) : Prop where
  nodup : (d.store.deadLetters.map (·.id)).Nodup
  mem_iff : ∀ identifier, identifier ∈ d.store.deadLetters.map (·.id) ↔
    ∃ x ∈ d, x.order.id = identifier ∧ x.order.status = .deadLetter

structure Durable.Budgeted (config : RunnerConfig) (d : Durable) : Prop where
  orders : ∀ x ∈ d, Studio.Budgeted config x.order
  lists : d.ListsDeadLetters

section Store

variable {config : RunnerConfig} {outside : Outside} {d d' : Durable} {x x' : Entry}

theorem Durable.ListsDeadLetters.congr (h : d.ListsDeadLetters)
    (ho : d'.store.workOrders = d.store.workOrders) (ha : d'.artifacts = d.artifacts)
    (hl : d'.store.deadLetters = d.store.deadLetters) : d'.ListsDeadLetters := by
  have hmem : ∀ y, y ∈ d' ↔ y ∈ d := by
    intro y
    rw [Durable.mem_def, Durable.mem_def, ho, ha]
  refine ⟨hl ▸ h.nodup, fun identifier => ?_⟩
  rw [hl, h.mem_iff]
  simp only [hmem]

theorem Durable.Budgeted.congr (h : d.Budgeted config)
    (ho : d'.store.workOrders = d.store.workOrders) (ha : d'.artifacts = d.artifacts)
    (hl : d'.store.deadLetters = d.store.deadLetters) : d'.Budgeted config := by
  refine ⟨fun y hy => ?_, h.lists.congr ho ha hl⟩
  rw [Durable.mem_def, ho, ha] at hy
  exact h.orders y hy

theorem Durable.Budgeted.orders_rewritten (h : d.Budgeted config) (hr : Rewritten d d' x')
    (hb : Studio.Budgeted config x'.order) : ∀ y ∈ d', Studio.Budgeted config y.order := by
  intro y hy
  rcases (hr y).mp hy with rfl | ⟨hy, -⟩
  · exact hb
  · exact h.orders y hy

theorem Durable.ListsDeadLetters.rewritten (h : d.ListsDeadLetters) (hx : x ∈ d)
    (hr : Rewritten d d' x') (hid : x'.order.id = x.order.id)
    (hl : d'.store.deadLetters = d.store.deadLetters)
    (hdead : x'.order.status = .deadLetter ↔ x.order.status = .deadLetter) :
    d'.ListsDeadLetters := by
  refine ⟨hl ▸ h.nodup, fun identifier => ?_⟩
  rw [hl, h.mem_iff]
  constructor
  · rintro ⟨y, hy, rfl, hyd⟩
    by_cases hyx : y.order.id = x'.order.id
    · have heq : y = x := Durable.eq_of_mem hy hx (hyx.trans hid)
      rw [heq] at hyd ⊢
      exact ⟨x', hr.mem, hid, hdead.mpr hyd⟩
    · exact ⟨y, hr.mem_of_ne hy hyx, rfl, hyd⟩
  · rintro ⟨y, hy, rfl, hyd⟩
    rcases (hr y).mp hy with rfl | ⟨hy, -⟩
    · exact ⟨x, hx, hid.symm, hdead.mp hyd⟩
    · exact ⟨y, hy, rfl, hyd⟩

theorem Durable.ListsDeadLetters.listed (h : d.ListsDeadLetters) (hx : x ∈ d)
    (hr : Rewritten d d' x') (hid : x'.order.id = x.order.id) {item : DeadLetter}
    (hl : d'.store.deadLetters = d.store.deadLetters ++ [item]) (hitem : item.id = x.order.id)
    (hbefore : x.order.status ≠ .deadLetter) (hdead : x'.order.status = .deadLetter) :
    d'.ListsDeadLetters := by
  have hnew : x.order.id ∉ d.store.deadLetters.map (·.id) := by
    rw [h.mem_iff]
    rintro ⟨y, hy, hyx, hyd⟩
    rw [Durable.eq_of_mem hy hx hyx] at hyd
    exact hbefore hyd
  constructor
  · rw [hl, List.map_append, List.nodup_append]
    refine ⟨h.nodup, by simp, ?_⟩
    intro a ha b hb
    rw [List.map_singleton, List.mem_singleton] at hb
    rw [hb, hitem]
    rintro rfl
    exact hnew ha
  · intro identifier
    rw [hl, List.map_append, List.mem_append, h.mem_iff, List.map_singleton, List.mem_singleton,
      hitem]
    constructor
    · rintro (⟨y, hy, rfl, hyd⟩ | rfl)
      · have hne : y.order.id ≠ x'.order.id := by
          intro hyx
          rw [Durable.eq_of_mem hy hx (hyx.trans hid)] at hyd
          exact hbefore hyd
        exact ⟨y, hr.mem_of_ne hy hne, rfl, hyd⟩
      · exact ⟨x', hr.mem, hid, hdead⟩
    · rintro ⟨y, hy, rfl, hyd⟩
      rcases (hr y).mp hy with rfl | ⟨hy, -⟩
      · exact .inr hid
      · exact .inl ⟨y, hy, rfl, hyd⟩

theorem Durable.ListsDeadLetters.unlisted (h : d.ListsDeadLetters)
    (hr : Rewritten d d' x') (hid : x'.order.id = x.order.id)
    (hl : d'.store.deadLetters = d.store.deadLetters.filter (·.id != x.order.id))
    (hdead : x'.order.status ≠ .deadLetter) : d'.ListsDeadLetters := by
  have hmap : d'.store.deadLetters.map (·.id) =
      (d.store.deadLetters.map (·.id)).filter (· != x.order.id) := by
    rw [hl, List.filter_map]
    rfl
  constructor
  · rw [hmap]
    exact h.nodup.filter _
  · intro identifier
    rw [hmap, List.mem_filter, h.mem_iff, bne_iff_ne]
    constructor
    · rintro ⟨⟨y, hy, rfl, hyd⟩, hne⟩
      exact ⟨y, hr.mem_of_ne hy (hid ▸ hne), rfl, hyd⟩
    · rintro ⟨y, hy, rfl, hyd⟩
      rcases (hr y).mp hy with rfl | ⟨hy, hne⟩
      · exact absurd hyd hdead
      · exact ⟨⟨y, hy, rfl, hyd⟩, hid ▸ hne⟩

end Store

end ChainQuantStudio.Studio
