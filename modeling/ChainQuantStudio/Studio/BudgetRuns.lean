import ChainQuantStudio.Studio.DeadLetters

/-!
# The failure budget over whole runs

The startup recoveries and the decisions of users keep the budget too, so it holds in every state a
gateway reaches, whatever the order of the events.
-/

namespace ChainQuantStudio.Studio

section Startup

variable {config : RunnerConfig} {outside : Outside} {d d' : Durable}
  {f : WorkOrder → WorkOrder} {hf : ∀ order, (f order).id = order.id}

theorem Durable.exists_entry (d : Durable) (P : WorkOrder → Prop) :
    (∃ x ∈ d, P x.order) ↔ ∃ order ∈ d.store.workOrders, P order := by
  constructor
  · rintro ⟨x, hx, hP⟩
    exact ⟨x.order, hx.1, hP⟩
  · rintro ⟨order, horder, hP⟩
    exact ⟨⟨order, d.artifacts.find order.id⟩, ⟨horder, rfl⟩, hP⟩

theorem Durable.Budgeted.order (h : d.Budgeted config) {order : WorkOrder}
    (horder : order ∈ d.store.workOrders) : Studio.Budgeted config order :=
  h.orders ⟨order, d.artifacts.find order.id⟩ ⟨horder, rfl⟩

theorem Durable.Budgeted.mapped (h : d.Budgeted config)
    (hf : ∀ order, (f order).id = order.id)
    (ho : d'.store.workOrders = d.store.workOrders.mapEntries f hf)
    (hb : ∀ order, Studio.Budgeted config order → Studio.Budgeted config (f order))
    (hnodup : (d'.store.deadLetters.map (·.id)).Nodup)
    (hlist : ∀ identifier, identifier ∈ d'.store.deadLetters.map (·.id) ↔
      ∃ order ∈ d.store.workOrders, order.id = identifier ∧ (f order).status = .deadLetter) :
    d'.Budgeted config := by
  refine ⟨?_, hnodup, ?_⟩
  · intro y hy
    have hmem := hy.1
    rw [ho] at hmem
    obtain ⟨order, horder, heq⟩ := Keyed.mem_mapEntries.mp hmem
    rw [← heq]
    exact hb order (h.order horder)
  · intro identifier
    rw [hlist, d'.exists_entry fun order => order.id = identifier ∧ order.status = .deadLetter, ho]
    constructor
    · rintro ⟨order, horder, hid, hdead⟩
      exact ⟨f order, Keyed.mem_mapEntries.mpr ⟨order, horder, rfl⟩, (hf order).trans hid, hdead⟩
    · rintro ⟨next, hnext, hid, hdead⟩
      obtain ⟨order, horder, rfl⟩ := Keyed.mem_mapEntries.mp hnext
      exact ⟨order, horder, (hf order).symm.trans hid, hdead⟩

theorem Durable.Budgeted.mem_deadLetters (h : d.Budgeted config) (identifier : String) :
    identifier ∈ d.store.deadLetters.map (·.id) ↔
      ∃ order ∈ d.store.workOrders, order.id = identifier ∧ order.status = .deadLetter := by
  rw [h.lists.mem_iff,
    d.exists_entry fun order => order.id = identifier ∧ order.status = .deadLetter]

theorem Durable.Budgeted.mapOrders (h : d.Budgeted config)
    (hb : ∀ order, Studio.Budgeted config order → Studio.Budgeted config (f order))
    (hdead : ∀ order, (f order).status = .deadLetter ↔ order.status = .deadLetter) :
    (d.onStore (·.mapOrders f hf)).Budgeted config := by
  refine h.mapped hf rfl hb h.lists.nodup fun identifier => ?_
  simp only [hdead]
  exact h.mem_deadLetters identifier

theorem Durable.Budgeted.restored (h : d.Budgeted config) {restored : WorkOrder → Bool}
    (hb : ∀ order, Studio.Budgeted config order → Studio.Budgeted config (f order))
    (hdead : ∀ order ∈ d.store.workOrders,
      (f order).status = .deadLetter ↔ order.status = .deadLetter ∧ restored order = false) :
    (d.onStore fun s => (s.mapOrders f hf).withoutDeadLetters restored s).Budgeted config := by
  have hmap : (d.onStore fun s =>
      (s.mapOrders f hf).withoutDeadLetters restored s).store.deadLetters.map (·.id) =
        (d.store.deadLetters.map (·.id)).filter fun identifier =>
          !d.store.workOrders.entries.any fun order => restored order && order.id == identifier := by
    rw [List.filter_map]
    rfl
  refine h.mapped hf rfl hb ?_ fun identifier => ?_
  · rw [hmap]
    exact h.lists.nodup.filter _
  · rw [hmap, List.mem_filter, h.mem_deadLetters]
    simp only [Bool.not_eq_true', List.any_eq_false, Bool.and_eq_true, beq_iff_eq, not_and]
    constructor
    · rintro ⟨⟨order, horder, hid, hd⟩, hnone⟩
      have hnot : restored order = false :=
        Bool.eq_false_iff.mpr fun hr => hnone order horder hr hid
      exact ⟨order, horder, hid, (hdead order horder).mpr ⟨hd, hnot⟩⟩
    · rintro ⟨order, horder, hid, hd⟩
      obtain ⟨hd, hnot⟩ := (hdead order horder).mp hd
      refine ⟨⟨order, horder, hid, hd⟩, fun other hother hr hoid => ?_⟩
      rw [Keyed.eq_of_mem hother horder (hoid.trans hid.symm), hnot] at hr
      cases hr

theorem WorkOrder.recoverInterrupted_deadLetter (order : WorkOrder) :
    order.recoverInterrupted.status = .deadLetter ↔ order.status = .deadLetter := by
  unfold recoverInterrupted
  split
  · rename_i hworking
    simp [hworking]
  · rfl

theorem resumed_budgeted (h : d.Budgeted config) : d.resumed.Budgeted config :=
  (h.mapOrders (fun _ hb => hb.migrated) fun order => by
    rw [order.migrateOptimization_status]).mapOrders (fun _ hb => hb.interrupted)
      WorkOrder.recoverInterrupted_deadLetter

theorem recoverOptimizerStages_budgeted (h : d.Budgeted config) :
    (d.onStore (·.recoverOptimizerStages config)).Budgeted config := by
  refine h.restored (fun order hb => ?_) fun order _ => ?_
  · by_cases hreg : order.optimizerRegression
    · exact hb.optimizerRestored hreg
    · simpa [WorkOrder.recoverOptimizerStage, hreg] using hb
  · by_cases hreg : order.optimizerRegression <;> simp [WorkOrder.recoverOptimizerStage, hreg]

theorem recoverPassedReviews_budgeted (h : d.Budgeted config) :
    (d.onStore (·.recoverPassedReviews)).Budgeted config := by
  refine h.restored (fun order hb => ?_) fun order horder => ?_
  · simpa [WorkOrder.recoverPassedReview, not_passedReviewDeadLetter hb] using hb
  · have hnot := not_passedReviewDeadLetter (h.order horder)
    simp [WorkOrder.recoverPassedReview, hnot]

theorem recoverFailedReview_deadLetter (order : WorkOrder) :
    (order.recoverFailedReview config).status = .deadLetter ↔
      order.status = .deadLetter ∨
        (order.failedReview.isSome = true ∧
          (order.recoverFailedReview config).status = .deadLetter) := by
  cases hf : order.failedReview with
  | none => simp [recoverFailedReview_of_none config hf]
  | some failed =>
    obtain ⟨stage, review⟩ := failed
    have hlive := openedBy_live (failedReview_eq_some hf).1
    have hnot := Status.ne_deadLetter_of_live hlive
    simp [hnot]

theorem mem_newDeadLetters (identifier : String) (entries : List WorkOrder) :
    identifier ∈ ((entries.filterMap fun order =>
        order.failedReview.map fun (stage, review) => (order, stage, review)).filter
          fun (order, _) => decide ((order.recoverFailedReview config).status = .deadLetter)).map
            (·.1.id) ↔
      ∃ order ∈ entries, order.id = identifier ∧ order.failedReview.isSome = true ∧
        (order.recoverFailedReview config).status = .deadLetter := by
  simp only [List.mem_map, List.mem_filter, List.mem_filterMap, decide_eq_true_eq]
  constructor
  · rintro ⟨p, ⟨⟨order, horder, hp⟩, hdead⟩, hid⟩
    obtain ⟨failed, hf, rfl⟩ := Option.map_eq_some_iff.mp hp
    exact ⟨order, horder, hid, by rw [hf]; rfl, hdead⟩
  · rintro ⟨order, horder, hid, hsome, hdead⟩
    obtain ⟨failed, hf⟩ := Option.isSome_iff_exists.mp hsome
    exact ⟨(order, failed), ⟨⟨order, horder, by rw [hf]; rfl⟩, hdead⟩, hid⟩

theorem nodup_newDeadLetters {entries : List WorkOrder}
    (h : (entries.map WorkOrder.id).Nodup) :
    (((entries.filterMap fun order =>
        order.failedReview.map fun (stage, review) => (order, stage, review)).filter
          fun (order, _) => decide ((order.recoverFailedReview config).status = .deadLetter)).map
            (·.1.id)).Nodup := by
  apply List.Nodup.sublist (List.filter_sublist.map _)
  apply List.pairwise_map.mpr
  rw [List.pairwise_filterMap]
  refine (List.pairwise_map.mp h).imp ?_
  intro a b hne p hp q hq
  obtain ⟨_, _, rfl⟩ := Option.map_eq_some_iff.mp hp
  obtain ⟨_, _, rfl⟩ := Option.map_eq_some_iff.mp hq
  exact hne

theorem recoverFailedReviews_budgeted (h : d.Budgeted config) :
    (d.onStore (·.recoverFailedReviews config)).Budgeted config := by
  have hmap : (d.onStore (·.recoverFailedReviews config)).store.deadLetters.map (·.id) =
      d.store.deadLetters.map (·.id) ++
        ((d.store.workOrders.entries.filterMap fun order =>
          order.failedReview.map fun (stage, review) => (order, stage, review)).filter
            fun (order, _) =>
              decide ((order.recoverFailedReview config).status = .deadLetter)).map (·.1.id) := by
    simp [Durable.onStore, Store.recoverFailedReviews, Store.mapOrders]
  refine h.mapped (by simp) rfl (fun _ hb => hb.failedReview) ?_ fun identifier => ?_
  · rw [hmap, List.nodup_append]
    refine ⟨h.lists.nodup, nodup_newDeadLetters d.store.workOrders.unique, ?_⟩
    intro a ha b hb
    obtain ⟨order, horder, hid, hdead⟩ := (h.mem_deadLetters a).mp ha
    obtain ⟨other, hother, hoid, hsome, -⟩ := (mem_newDeadLetters b _).mp hb
    rintro rfl
    rw [Keyed.eq_of_mem (Keyed.mem_def.mpr hother) horder (hoid.trans hid.symm)] at hsome
    obtain ⟨failed, hf⟩ := Option.isSome_iff_exists.mp hsome
    exact Status.ne_deadLetter_of_live (openedBy_live (failedReview_eq_some hf).1) hdead
  · rw [hmap, List.mem_append, h.mem_deadLetters, mem_newDeadLetters]
    constructor
    · rintro (⟨order, horder, hid, hdead⟩ | ⟨order, horder, hid, hnew⟩)
      · exact ⟨order, horder, hid, (recoverFailedReview_deadLetter order).mpr (.inl hdead)⟩
      · exact ⟨order, horder, hid, hnew.2⟩
    · rintro ⟨order, horder, hid, hdead⟩
      rcases (recoverFailedReview_deadLetter order).mp hdead with hdead | hnew
      · exact .inl ⟨order, horder, hid, hdead⟩
      · exact .inr ⟨order, horder, hid, hnew⟩

theorem completeBacktest_budgeted {x : Entry} {results : Results} (h : d.Budgeted config)
    (hx : x ∈ d) (hc : x.order.completedBacktest outside = some results) :
    (d.completeBacktest outside x.order results).1.Budgeted config := by
  have hready : d.Ready config x.order.id := by
    refine ⟨h, x, hx, rfl, ?_⟩
    rw [(completedBacktest_eq_some hc).1]
    rfl
  unfold Durable.completeBacktest
  split
  case isTrue =>
    have hchecked := hready.checkpoint outside .optimize results none none
    split
    case h_1 d₁ failure hd =>
      rw [hd] at hchecked
      exact hchecked.budgeted
    case h_2 d₁ hd =>
      rw [hd] at hchecked
      obtain ⟨y, hy, hid, hlive⟩ := hchecked.live
      have hb : Studio.Budgeted config { y.order with status := .queued } :=
        (hchecked.budgeted.orders y hy).of_same hlive rfl rfl (by simp) (.inl rfl)
      have hr : Rewritten d₁ (d₁.modify x.order.id ({ · with status := .queued }) (by simp))
          ⟨{ y.order with status := .queued }, y.record⟩ := by
        rw [← hid]
        exact Rewritten.modify hy ({ · with status := .queued }) (by simp)
      refine ⟨hchecked.budgeted.orders_rewritten hr hb, ?_⟩
      exact hchecked.budgeted.lists.rewritten hy hr rfl rfl
        (iff_of_false (by simp) (Status.ne_deadLetter_of_live hlive))
  case isFalse => exact (hready.finish outside (by decide) _ _).1

theorem completeBacktests_budgeted {picked : List (WorkOrder × Results)} (h : d.Budgeted config)
    (hdistinct : picked.Pairwise fun p q => p.1.id ≠ q.1.id)
    (hpicked : ∀ p ∈ picked, ∃ x ∈ d, x.order = p.1 ∧
      x.order.completedBacktest outside = some p.2) :
    (Durable.completeBacktests outside picked d).1.Budgeted config := by
  induction picked generalizing d with
  | nil => exact h
  | cons p rest ih =>
    obtain ⟨hne, hrest⟩ := List.pairwise_cons.mp hdistinct
    obtain ⟨x, hx, hxp, hc⟩ := hpicked p (by simp)
    obtain ⟨x', hr, hid, _⟩ := completeBacktest_spec config (fun _ => True) hx hc
    have hb := completeBacktest_budgeted h hx hc
    rw [hxp] at hr hb
    simp only [Durable.completeBacktests]
    split
    case h_1 d₁ failure hd =>
      rw [hd] at hb
      exact hb
    case h_2 d₁ hd =>
      rw [hd] at hr hb
      refine ih hb hrest ?_
      intro q hq
      obtain ⟨y, hy, hyq, hcq⟩ := hpicked q (by simp [hq])
      refine ⟨y, hr.mem_of_ne hy ?_, hyq, hcq⟩
      rw [hyq, hid, hxp]
      exact (hne q hq).symm

theorem recover_budgeted (h : d.Budgeted config) :
    (d.recover config outside).1.Budgeted config := by
  have hpure := recoverFailedReviews_budgeted (recoverPassedReviews_budgeted
    (recoverOptimizerStages_budgeted (resumed_budgeted h)))
  have hall : ((((d.resumed.onStore (·.recoverOptimizerStages config)).onStore
      (·.recoverPassedReviews)).onStore
        (·.recoverFailedReviews config)).recoverCompletedBacktests outside).1.Budgeted config := by
    obtain ⟨hdistinct, hpicked⟩ := pickedBacktests_spec outside _
    exact completeBacktests_budgeted hpure hdistinct hpicked
  unfold Durable.recover
  dsimp only
  split
  case h_1 d' failure hd =>
    rw [show d' = _ from (congrArg Prod.fst hd).symm]
    exact hall
  case h_2 d' hd =>
    rw [show d' = _ from (congrArg Prod.fst hd).symm]
    exact hall.mapOrders (fun _ hb => hb.cleared) fun order => by
      rw [order.clearTerminalRetry_status]

end Startup

section Steps

variable {config : RunnerConfig} {outside : Outside} {g : Gateway}

theorem Follows.ready (h : g.durable.Budgeted config) {e : Execution} {x : Entry}
    (hx : x ∈ g.durable) (hf : Follows e x.order) : g.durable.Ready config e.order.id := by
  refine ⟨h, x, hx, hf.id.symm, ?_⟩
  rw [hf.working]
  rfl

theorem proceed_budgeted {identifier : String} {seg : Segment} (h : seg.Budgeted config) :
    (g.proceed config outside identifier seg).durable.Budgeted config := by
  cases seg with
  | awaiting d e on => exact h
  | returned d => exact h
  | raised d e failure => exact handle_budgeted config outside failure h

theorem begin_step_budgeted (hT : g.Tracks) (h : g.durable.Budgeted config) :
    (g.begin config outside).durable.Budgeted config := by
  unfold Gateway.begin
  split
  case h_1 order hw =>
    simp only [Gateway.Tracks, hw] at hT
    obtain ⟨x, hx, rfl, hworking, _⟩ := hT
    apply proceed_budgeted
    apply begin_budgeted
    refine ⟨h, x, hx, rfl, ?_⟩
    rw [hworking]
    rfl
  case h_2 => exact h

theorem reply_budgeted (text : String) (hT : g.Tracks) (h : g.durable.Budgeted config) :
    (g.reply config outside text).durable.Budgeted config := by
  unfold Gateway.reply
  split
  case h_1 e on hw =>
    simp only [Gateway.Tracks, hw] at hT
    obtain ⟨x, hx, hf, _⟩ := hT
    have hb : (g.proceed config outside e.order.id
        (e.resume config outside on text g.durable)).durable.Budgeted config :=
      proceed_budgeted (resume_budgeted on text (hf.ready h hx))
    exact hb
  case h_2 => exact h

theorem raise_budgeted (failure : Failure) (hT : g.Tracks) (h : g.durable.Budgeted config) :
    (g.raise config outside failure).durable.Budgeted config := by
  unfold Gateway.raise
  split
  case h_1 e on hw =>
    simp only [Gateway.Tracks, hw] at hT
    obtain ⟨x, hx, hf, _⟩ := hT
    exact handle_budgeted config outside failure (hf.ready h hx)
  case h_2 => exact h

theorem acquisitionFailed_step_budgeted (detail : String) (hT : g.Tracks)
    (h : g.durable.Budgeted config) :
    (g.acquisitionFailed config outside detail).durable.Budgeted config := by
  unfold Gateway.acquisitionFailed
  split
  case h_1 e hw =>
    simp only [Gateway.Tracks, hw] at hT
    obtain ⟨x, hx, hf, _⟩ := hT
    exact acquisitionFailed_budgeted config outside detail (hf.ready h hx)
  case h_2 => exact h

theorem cancelWorker_budgeted (hT : g.Tracks) (h : g.durable.Budgeted config) :
    (g.cancelWorker config outside).durable.Budgeted config := by
  unfold Gateway.cancelWorker
  split
  case h_1 e on hw =>
    simp only [Gateway.Tracks, hw] at hT
    obtain ⟨x, hx, hf, _⟩ := hT
    exact cancelled_budgeted config outside _ (hf.ready h hx)
  case h_2 => exact h
  case h_3 => exact h

theorem claim_budgeted (now : ℤ) (h : g.durable.Budgeted config) :
    (g.claim now).durable.Budgeted config := by
  unfold Gateway.claim
  split
  case h_1 =>
    split
    · exact h
    · dsimp only
      split
      · exact h.congr rfl rfl rfl
      · rename_i order hdue
        have hmem : order ∈ g.durable.store.workOrders := List.mem_of_find?_eq_some hdue
        have hqueued : order.status = .queued := by
          have hd := List.find?_some hdue
          simp only [WorkOrder.due, Bool.and_eq_true, beq_iff_eq] at hd
          exact hd.1
        have hlive : order.status.live = true := by
          rw [hqueued]
          rfl
        have hx : (⟨order, g.durable.artifacts.find order.id⟩ : Entry) ∈ g.durable := ⟨hmem, rfl⟩
        have hb : Budgeted config order.claimed :=
          (h.orders _ hx).of_same hlive rfl rfl (by simp [WorkOrder.claimed]) (.inr rfl)
        have hr := Rewritten.modify hx (·.claimed) fun _ => rfl
        have hlists := h.lists.rewritten hx hr rfl rfl
          (iff_of_false (by simp [WorkOrder.claimed]) (Status.ne_deadLetter_of_live hlive))
        have hall : (g.durable.modify order.id (·.claimed) fun _ => rfl).Budgeted config :=
          ⟨h.orders_rewritten hr hb, hlists⟩
        exact hall.congr rfl rfl rfl
  case h_2 => exact h

theorem deadLetters_cancel (identifier : Option String)
    (hw : ∀ selected, g.cancelCandidates identifier = [selected] →
      g.worker.activeId ≠ some selected.id) :
    (g.cancel config outside identifier).durable.store.deadLetters =
      g.durable.store.deadLetters := by
  unfold Gateway.cancel
  split
  case h_1 selected hsel =>
    rw [if_neg (hw selected hsel)]
    rfl
  case h_2 => rfl

theorem cancelCandidates_live {identifier : Option String} {order : WorkOrder}
    (h : order ∈ g.cancelCandidates identifier) : order.status.live = true := by
  have hstatus := (List.mem_filter.mp h).2
  simp only [Bool.and_eq_true, Bool.or_eq_true, beq_iff_eq] at hstatus
  rcases hstatus.1 with hs | hs <;> (rw [hs]; rfl)

theorem cancel_budgeted (identifier : Option String) (hT : g.Tracks)
    (h : g.durable.Budgeted config) :
    (g.cancel config outside identifier).durable.Budgeted config := by
  rcases cancel_cases config outside g identifier with
    heq | ⟨x, hx, hsel, ⟨_, heq⟩ | ⟨hactive, _, hr⟩⟩
  · rw [heq]
    exact h
  · rw [heq]
    have hT' : ({ g with cancelRequested := x.order.id :: g.cancelRequested } : Gateway).Tracks :=
      hT
    exact cancelWorker_budgeted hT' h
  · have hlive : x.order.status.live = true :=
      cancelCandidates_live (by rw [hsel]; exact List.mem_singleton_self _)
    have hb : Budgeted config x.order.cancelledIdle :=
      (h.orders x hx).of_same hlive rfl rfl (by simp [WorkOrder.cancelledIdle]) (.inl rfl)
    have hletters : (g.cancel config outside identifier).durable.store.deadLetters =
        g.durable.store.deadLetters := by
      apply deadLetters_cancel
      intro selected hselected
      rw [hsel] at hselected
      rw [← List.singleton_inj.mp hselected]
      exact hactive
    refine ⟨h.orders_rewritten hr hb, h.lists.rewritten hx hr rfl hletters ?_⟩
    exact iff_of_false (by simp [WorkOrder.cancelledIdle]) (Status.ne_deadLetter_of_live hlive)

theorem stop_budgeted (hT : g.Tracks) (h : g.durable.Budgeted config) :
    (g.stop config outside).durable.Budgeted config := by
  unfold Gateway.stop
  split
  · exact h
  · exact h
  · exact h
  · exact cancelWorker_budgeted hT h

theorem WorkOrder.quotaResumed_budgeted (identifier : Option String) {order : WorkOrder}
    (h : Budgeted config order) : Budgeted config (order.quotaResumed identifier) := by
  unfold WorkOrder.quotaResumed
  split
  · exact h.of_fields rfl rfl rfl rfl rfl
  · exact h

theorem resumeQuota_budgeted (identifier : Option String) (h : g.durable.Budgeted config) :
    (g.resumeQuota identifier).durable.Budgeted config := by
  unfold Gateway.resumeQuota
  split
  · exact h
  · have hmap : (g.durable.onStore
        (·.mapOrders (·.quotaResumed identifier) (by simp))).Budgeted config :=
      h.mapOrders (fun _ hb => WorkOrder.quotaResumed_budgeted identifier hb) fun order => by
        rw [order.quotaResumed_status]
    exact hmap.congr rfl rfl rfl

theorem recover_step_budgeted (h : g.durable.Budgeted config) :
    (g.recover config outside).durable.Budgeted config := by
  unfold Gateway.recover
  split
  · exact recover_budgeted h
  · exact h

theorem deadLetters_create (work : NewWork) (stamp : String) :
    (g.create work stamp).durable.store.deadLetters = g.durable.store.deadLetters := by
  unfold Gateway.create
  split
  · rfl
  · split <;> rfl

theorem create_budgeted (work : NewWork) (stamp : String) (h : g.durable.Budgeted config) :
    (g.create work stamp).durable.Budgeted config := by
  refine ⟨fun y hy => ?_, ?_, fun identifier => ?_⟩
  · rcases create_back hy with hy | ⟨horder, _⟩
    · exact h.orders y hy
    · obtain ⟨hqueued, _, herror, hattempts, hcounts⟩ := NewWork.order_spec horder
      exact .of_cleared hattempts hcounts (by simp [hqueued]) (by simp [herror])
  · rw [deadLetters_create]
    exact h.lists.nodup
  · rw [deadLetters_create, h.lists.mem_iff]
    constructor
    · rintro ⟨x, hx, hid, hdead⟩
      exact ⟨x, create_kept g work stamp hx, hid, hdead⟩
    · rintro ⟨y, hy, hid, hdead⟩
      rcases create_back hy with hy | ⟨horder, _⟩
      · exact ⟨y, hy, hid, hdead⟩
      · rw [(NewWork.order_spec horder).1] at hdead
        cases hdead

theorem deadLetters_approve (identifier : String) (gate : ApprovalGate) (approved : Bool)
    (note : String) :
    (g.approve identifier gate approved note).durable.store.deadLetters =
      g.durable.store.deadLetters := by
  unfold Gateway.approve
  split
  · rfl
  · split
    · rfl
    · split <;> rfl

theorem WorkOrder.approval_not_deadLetter {order next : WorkOrder} {gate : ApprovalGate}
    {approved : Bool} {note : String} (h : order.approval gate approved note = .ok next) :
    next.status ≠ .deadLetter := by
  rcases order.approval_status h with hs | hs | hs | hs | hs <;> simp [hs]

theorem approve_budgeted (identifier : String) (gate : ApprovalGate) (approved : Bool)
    (note : String) (h : g.durable.Budgeted config) :
    (g.approve identifier gate approved note).durable.Budgeted config := by
  rcases approve_rewritten g identifier gate approved note with
    heq | ⟨x, hx, rfl, next, hnext, hr⟩
  · rw [heq]
    exact h
  · have hlive : x.order.status.live = true := by
      rw [(x.order.approval_eq_ok hnext).1]
      exact gate.expected_live
    refine ⟨h.orders_rewritten hr ((h.orders x hx).approved hnext), ?_⟩
    apply h.lists.rewritten hx hr (x.order.approval_id hnext) (deadLetters_approve _ _ _ _)
    exact iff_of_false (WorkOrder.approval_not_deadLetter hnext) (Status.ne_deadLetter_of_live hlive)

theorem deadLetters_retry (g : Gateway) (outside : Outside)
    (identifier artifactId artifactVersion reason : String) :
    g.retry outside identifier artifactId artifactVersion reason = g ∨
      (g.retry outside identifier artifactId artifactVersion reason).durable.store.deadLetters =
        g.durable.store.deadLetters.filter (·.id != identifier) := by
  unfold Gateway.retry
  split
  · exact .inl rfl
  · split
    · exact .inl rfl
    · split
      · exact .inl rfl
      · split
        · exact .inr rfl
        · exact .inl rfl

theorem retry_budgeted (identifier artifactId artifactVersion reason : String)
    (h : g.durable.Budgeted config) :
    (g.retry outside identifier artifactId artifactVersion reason).durable.Budgeted config := by
  rcases deadLetters_retry g outside identifier artifactId artifactVersion reason with
    heq | hletters
  · rw [heq]
    exact h
  rcases retry_rewritten g outside identifier artifactId artifactVersion reason with
    heq | ⟨x, hx, rfl, _, hr⟩
  · rw [heq]
    exact h
  · have hb : Budgeted config (x.order.retried artifactId artifactVersion reason) :=
      .of_cleared rfl rfl (by simp [WorkOrder.retried]) (by simp [WorkOrder.retried])
    exact ⟨h.orders_rewritten hr hb, h.lists.unlisted hr rfl hletters (by simp [WorkOrder.retried])⟩

theorem budgeted_step (input : Input) (hT : g.Tracks) (h : g.durable.Budgeted config) :
    (g.step config input).durable.Budgeted config := by
  unfold Gateway.step
  cases input.event with
  | create work stamp => exact create_budgeted work stamp h
  | start =>
    dsimp only
    unfold Gateway.start
    split <;> exact h
  | recover => exact recover_step_budgeted h
  | claim => exact claim_budgeted _ h
  | begin => exact begin_step_budgeted hT h
  | reply text => exact reply_budgeted text hT h
  | acquisitionFailed detail => exact acquisitionFailed_step_budgeted detail hT h
  | raise failure => exact raise_budgeted failure hT h
  | close =>
    dsimp only
    unfold Gateway.close
    split <;> exact h
  | cancel identifier => exact cancel_budgeted identifier hT h
  | stop => exact stop_budgeted hT h
  | crash => exact h
  | resumeQuota identifier => exact resumeQuota_budgeted identifier h
  | approve identifier gate approved note => exact approve_budgeted identifier gate approved note h
  | retry identifier artifactId artifactVersion reason =>
    exact retry_budgeted identifier artifactId artifactVersion reason h

end Steps

theorem budgeted_initial (config : RunnerConfig) : ({} : Durable).Budgeted config := by
  refine ⟨?_, List.nodup_nil, ?_⟩
  · rintro x ⟨hx, -⟩
    exact absurd hx (Keyed.not_mem_empty _)
  · intro identifier
    simp only [List.map_nil, List.not_mem_nil, false_iff, not_exists, not_and]
    rintro x ⟨hx, -⟩
    exact absurd hx (Keyed.not_mem_empty _)

theorem budgeted_run (config : RunnerConfig) (inputs : List Input) :
    (Run.run (Gateway.step config) {} inputs).durable.Budgeted config := by
  have hstart : ({} : Gateway).Tracks ∧ ({} : Gateway).durable.Budgeted config :=
    ⟨trivial, budgeted_initial config⟩
  have hinv := Run.run_invariant (fun g : Gateway => g.Tracks ∧ g.durable.Budgeted config)
    (fun g input h => ⟨tracks_step config input h.1, budgeted_step input h.1 h.2⟩) hstart inputs
  exact hinv.2

/-- In every reachable state the orders that may run are within the budget and the list has exactly
the dead letters; a requeue that does not count leaves attempts and counters alone. -/
theorem failureBudget_consistent (config : RunnerConfig) (inputs : List Input) :
    (∀ x ∈ (Run.run (Gateway.step config) {} inputs).durable, x.order.WithinBudget config) ∧
      (Run.run (Gateway.step config) {} inputs).durable.ListsDeadLetters ∧
      ∀ d : Durable, ∀ x ∈ d, ∀ r : Requeue, r.countAttempt = false →
        ∃ next, (d.requeue config x.order.id r).1.find x.order.id = some next ∧
          next.attempts = x.order.attempts ∧ next.issueCounts = x.order.issueCounts := by
  have h := budgeted_run config inputs
  refine ⟨fun x hx => (h.orders x hx).within, h.lists, ?_⟩
  intro d x hx r hcount
  obtain ⟨hattempts, hcounts, _⟩ := r.apply_uncounted config x.order hcount
  have hfind := Durable.find_mem (requeue_spec config hx r).1.mem
  dsimp only at hfind
  rw [Requeue.apply_id] at hfind
  exact ⟨r.apply config x.order, hfind, hattempts, hcounts⟩

end ChainQuantStudio.Studio
