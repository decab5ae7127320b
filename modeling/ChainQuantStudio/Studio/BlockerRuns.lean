import ChainQuantStudio.Studio.ReviewBlockers

/-!
# Review blockers over whole runs

Every event keeps the docket sound as long as no Strategy turn begins with an optimization proposal
while a report waits for it, and no startup finishes the delayed backtest of an order that a report
waits for, so in such a run every author is told the blockers.
-/

namespace ChainQuantStudio.Studio

section Steps

variable {config : RunnerConfig} {outside : Outside} {input : Input} {turns : List AgentTurn}
  {g : Gateway} {pending pending' : Pending} {x x' : Entry} {e : Execution} {r : Results}
  {opened : Bool}

def Durable.ChangesOnly (identifier : String) (d d' : Durable) : Prop :=
  ∀ y ∈ d', y ∈ d ∨ y.order.id = identifier

theorem Rewritten.changesOnly {d d' : Durable} {identifier : String} (hr : Rewritten d d' x')
    (hid : x'.order.id = identifier) : d.ChangesOnly identifier d' := by
  intro y hy
  rcases (hr y).mp hy with rfl | ⟨hy, -⟩
  · exact .inr hid
  · exact .inl hy

theorem proceed_changesOnly {seg : Segment} (hseg : seg.Spec turns g.durable x) :
    g.durable.ChangesOnly x.order.id (g.proceed config outside x.order.id seg).durable := by
  cases seg with
  | awaiting d e on =>
    obtain ⟨y, hr, rfl | hw, _⟩ := hseg
    · exact hr.changesOnly rfl
    · exact hr.changesOnly hw.frame.id
  | returned d =>
    obtain ⟨y, hr, rfl | hw⟩ := hseg
    · exact hr.changesOnly rfl
    · exact hr.changesOnly hw.frame.id
  | raised d e failure =>
    obtain ⟨y, hr, hi, hunnamed⟩ := hseg
    obtain ⟨z, hr', hw⟩ := handle_spec config turns hr hi (hunnamed.not_outOfYears outside)
    exact hr'.changesOnly hw.frame.id

theorem filed_executed {d' : Durable} {identifier : String}
    (hfiled : ∀ x ∈ g.durable, x.order.Filed (pending x.order.id))
    (hchanges : g.durable.ChangesOnly identifier d') (hfiles : d'.Files opened r identifier)
    (hothers : ∀ k, k ≠ identifier → pending' k = pending k)
    (hheld : ∀ stage report, pending' identifier stage = some report →
      r.review stage = some report) :
    ∀ y ∈ d', y.order.Filed (pending' y.order.id) := by
  intro y hy
  by_cases hid : y.order.id = identifier
  · rw [hid]
    rcases hfiles y.order (hid ▸ Durable.find_mem hy) with hs | hs | ⟨hr, _⟩
    · exact .inl hs
    · exact .inr (.inl hs)
    · refine .inr (.inr ⟨fun report hp => .inl ?_, fun report hp => ?_⟩)
      · rw [hr.implementation]
        exact hheld _ _ hp
      · rw [hr.backtest]
        exact hheld _ _ hp
  · rw [hothers _ hid]
    exact hfiled y ((hchanges y hy).resolve_right hid)

theorem Gateway.Tracks.running (hT : g.Tracks) {on : Await} (hw : g.worker = .running e on) :
    ∃ x ∈ g.durable, Follows e x.order ∧ on.Fits e := by
  simpa only [Gateway.Tracks, hw] using hT

theorem Results.SameReports.of_eq {r' : Results} (h : r' = r) : r.SameReports r' := by
  rw [h]
  exact .refl r

theorem filed_closing {w : Durable × Option Failure} {on : Await}
    (hfiled : ∀ x ∈ g.durable, x.order.Filed (pending x.order.id))
    (hholds : (Worker.running e on).Holds pending)
    (hspec : ∃ x', Rewritten g.durable w.1 x' ∧ Worked turns x x') (hid : e.order.id = x.order.id)
    (hfiles : w.1.Files false e.results e.order.id) :
    ∀ y ∈ w.1, y.order.Filed (pending y.order.id) := by
  obtain ⟨x', hr, hw⟩ := hspec
  have hchanges : g.durable.ChangesOnly e.order.id w.1 :=
    hr.changesOnly (hw.frame.id.trans hid.symm)
  exact filed_executed hfiled hchanges hfiles (fun _ _ => rfl) hholds.1

theorem raise_filed (failure : Failure) (hT : g.Tracks)
    (hfiled : ∀ x ∈ g.durable, x.order.Filed (pending x.order.id))
    (hholds : g.worker.Holds pending) :
    ∀ y ∈ (g.raise config outside failure).durable, y.order.Filed (pending y.order.id) := by
  unfold Gateway.raise
  split
  case h_1 e on hw =>
    obtain ⟨x, hx, hf, _⟩ := hT.running hw
    rw [hw] at hholds
    by_cases hyears : failure.OutOfYears outside
    · obtain ⟨hkept, _⟩ := handle_outOfYears config hx hf.id hyears
      intro y hy
      rcases (hkept y).mp hy with rfl | ⟨hy, _⟩
      · exact hfiled y hx
      · exact hfiled y hy
    · have hspec := handle_spec config [] (.self hx) hf.interrupted hyears
      exact filed_closing hfiled hholds hspec hf.id (handle_files config hyears (.refl _))
  case h_2 => exact hfiled

theorem acquisitionFailed_filed (detail : String) (hT : g.Tracks)
    (hfiled : ∀ x ∈ g.durable, x.order.Filed (pending x.order.id))
    (hholds : g.worker.Holds pending) :
    ∀ y ∈ (g.acquisitionFailed config outside detail).durable,
      y.order.Filed (pending y.order.id) := by
  unfold Gateway.acquisitionFailed
  split
  case h_1 e hw =>
    obtain ⟨x, hx, hf, hfits⟩ := hT.running hw
    rw [hw] at hholds
    have hspec := acquisitionFailed_spec config outside [] hx hf hfits detail
    exact filed_closing hfiled hholds hspec hf.id
      (acquisitionFailed_files config outside detail (.refl _))
  case h_2 => exact hfiled

theorem cancelWorker_filed (hT : g.Tracks)
    (hfiled : ∀ x ∈ g.durable, x.order.Filed (pending x.order.id))
    (hholds : g.worker.Holds pending) :
    ∀ y ∈ (g.cancelWorker config outside).durable, y.order.Filed (pending y.order.id) := by
  unfold Gateway.cancelWorker
  split
  case h_1 e on hw =>
    obtain ⟨x, hx, hf, _⟩ := hT.running hw
    rw [hw] at hholds
    have hspec := cancelled_spec config outside [] hx hf (e.order.id ∈ g.cancelRequested)
    exact filed_closing hfiled hholds hspec hf.id (cancelled_files config outside _ (.refl _))
  case h_2 => exact hfiled
  case h_3 => exact hfiled

theorem held_of_claimed {order : WorkOrder} (hfiled : order.Filed (pending order.id))
    (hworking : order.status = .working)
    (hshown : order.stage = some .strategy →
      (pending order.id .reviewImplementation).isSome = true →
        truthy order.results.optimization = false) :
    ∀ stage report, pending order.id stage = some report →
      order.results.review stage = some report := by
  intro stage report hp
  rcases hfiled with h | h | h
  · rw [hworking] at h
    cases h
  · rw [hworking] at h
    cases h
  · cases stage with
    | reviewImplementation =>
      refine (h.implementation report hp).resolve_right fun ⟨ht, hs⟩ => ?_
      rw [hshown hs (by rw [hp]; rfl)] at ht
      cases ht
    | reviewBacktest => exact h.backtest report hp

theorem proceed_holds {seg : Segment} {identifier : String} {s : Stage}
    (hreads : seg.Reads identifier s r)
    (hheld : ∀ stage report, pending identifier stage = some report →
      r.review stage = some report)
    (hshown : s = .strategy → (pending identifier .reviewImplementation).isSome = true →
      truthy r.optimization = false) :
    (g.proceed config outside identifier seg).worker.Holds pending := by
  cases seg with
  | returned => trivial
  | raised => trivial
  | awaiting d e on =>
    obtain ⟨hid, hr, hon⟩ := hreads
    refine ⟨fun stage report hp => ?_, ?_, ?_⟩
    · rw [hid] at hp
      cases stage with
      | reviewImplementation => exact hr.implementation.trans (hheld _ _ hp)
      | reviewBacktest => exact hr.backtest.trans (hheld _ _ hp)
    · rintro prior rfl report hp
      obtain ⟨hs, hprior⟩ := hon
      rw [hid] at hp
      have hfalse := hshown hs (by rw [hp]; rfl)
      rw [hprior, hfalse]
      exact hheld _ _ hp
    · rintro handoff rfl
      exact hon

theorem begin_filed (hT : g.Tracks)
    (hfiled : ∀ x ∈ g.durable, x.order.Filed (pending x.order.id))
    (hshown : ∀ order, g.worker = .claimed order → order.stage = some .strategy →
      (pending order.id .reviewImplementation).isSome = true →
        truthy order.results.optimization = false) :
    (∀ y ∈ (g.begin config outside).durable, y.order.Filed (pending y.order.id)) ∧
      ∀ order, g.worker = .claimed order →
        (g.begin config outside).worker.Holds pending := by
  unfold Gateway.begin
  split
  case h_2 hw => exact ⟨hfiled, fun order h => absurd h (hw order)⟩
  case h_1 order hw =>
    simp only [Gateway.Tracks, hw] at hT
    obtain ⟨x, hx, rfl, hworking, hstage⟩ := hT
    obtain ⟨s, hs⟩ := Option.isSome_iff_exists.mp hstage
    have hheld := held_of_claimed (hfiled x hx) hworking (hshown _ hw)
    have hseg : ((Execution.ofClaimed x.order).begin outside g.durable).Spec [] g.durable x :=
      begin_spec hx hworking hstage
    have hfiles : ((Execution.ofClaimed x.order).begin outside g.durable).Files false
        x.order.results x.order.id :=
      begin_files (Durable.works_of_mem hx hworking) (Durable.files_of_mem hx hworking) (.refl _)
    refine ⟨filed_executed hfiled (proceed_changesOnly hseg) (proceed_files hseg hfiles)
      (fun _ _ => rfl) hheld, fun _ _ => ?_⟩
    have hreads : ((Execution.ofClaimed x.order).begin outside g.durable).Reads x.order.id
        (Execution.ofClaimed x.order).stage x.order.results := begin_reads rfl
    refine proceed_holds hreads hheld fun hstrategy hp => hshown _ hw ?_ hp
    rw [hs, ← hstrategy]
    simp [Execution.ofClaimed, hs]

theorem held_of_noted {stage : ReviewStage} {text : String}
    (hheld : ∀ stage report, pending e.order.id stage = some report →
      e.results.review stage = some report) :
    ∀ s report, pending.note e.order.id stage text e.order.id s = some report →
      (e.results.setReview text stage).review s = some report := by
  intro s report hp
  simp only [Pending.note, true_and] at hp
  split at hp
  case isTrue hs =>
    subst hs
    rw [Results.review_setReview]
    split at hp
    · exact hp
    · exact hp
    · cases hp
  case isFalse hs =>
    have hkept : (e.results.setReview text stage).review s = e.results.review s := by
      cases stage <;> cases s <;> first | rfl | exact absurd rfl hs
    rw [hkept]
    exact hheld _ _ hp

theorem filed_eq_pending {d : Docket} {after : Gateway} {on : Await} {text : String}
    (hevent : input.event = .reply text) (hw : d.gateway.worker = .running e on)
    (hon : ∀ stage handoff, on ≠ .turn (.review stage handoff)) :
    d.filed input after = d.pending := by
  unfold Docket.filed
  rw [hevent, hw]
  cases on with
  | dataset => rfl
  | turn turn =>
    cases turn with
    | review stage handoff => exact absurd rfl (hon stage handoff)
    | _ => rfl

theorem filed_review {d : Docket} {after : Gateway} {text : String} {stage : ReviewStage}
    {handoff : String} (hevent : input.event = .reply text)
    (hw : d.gateway.worker = .running e (.turn (.review stage handoff))) :
    d.filed input after = d.pending.note e.order.id stage text := by
  unfold Docket.filed
  rw [hevent, hw]

theorem reply_filed {d : Docket} {text : String} (hevent : input.event = .reply text)
    (hT : d.gateway.Tracks)
    (hfiled : ∀ x ∈ d.gateway.durable, x.order.Filed (d.pending x.order.id))
    (hholds : d.gateway.worker.Holds d.pending) (after : Gateway) :
    (∀ y ∈ (d.gateway.reply config outside text).durable,
        y.order.Filed (d.filed input after y.order.id)) ∧
      ∀ e on, d.gateway.worker = .running e on →
        (d.gateway.reply config outside text).worker.Holds (d.filed input after) := by
  unfold Gateway.reply
  split
  case h_2 hw =>
    have hsame : d.filed input after = d.pending := by
      unfold Docket.filed
      rw [hevent]
      cases hworker : d.gateway.worker with
      | running e on => exact absurd hworker (hw e on)
      | _ => rfl
    rw [hsame]
    exact ⟨hfiled, fun e on h => absurd h (hw e on)⟩
  case h_1 e on hw =>
    obtain ⟨x, hx, hf, hfits⟩ := hT.running hw
    rw [hw] at hholds
    obtain ⟨hheld, _⟩ := hholds
    obtain ⟨turns, hseg⟩ := exists_resume_spec config outside text hx hf hfits
    have hchanges : d.gateway.durable.ChangesOnly e.order.id
        (d.gateway.proceed config outside e.order.id
          (e.resume config outside on text d.gateway.durable)).durable := by
      rw [hf.id]
      exact proceed_changesOnly hseg
    have hworks : d.gateway.durable.Works e.order.id := by
      rw [hf.id]
      exact Durable.works_of_mem hx hf.working
    have hkept : d.gateway.durable.Files false e.results e.order.id := by
      rw [hf.id, hf.results]
      exact Durable.files_of_mem hx hf.working
    by_cases hon : ∃ stage handoff, on = .turn (.review stage handoff)
    · obtain ⟨stage, handoff, rfl⟩ := hon
      rw [filed_review hevent hw]
      have hfiles : (Execution.completeReview config outside stage text d.gateway.durable
          { e with stage := stage.stage, results := e.results.setReview text stage }).Files true
            (e.results.setReview text stage) e.order.id := completeReview_files hworks (.refl _)
      refine ⟨filed_executed hfiled hchanges (proceed_files hseg hfiles) (fun k hk => ?_)
        (held_of_noted hheld), fun _ _ _ => ?_⟩
      · funext s
        simp [Pending.note, hk]
      · have hreads : (Execution.completeReview config outside stage text d.gateway.durable
            { e with stage := stage.stage, results := e.results.setReview text stage }).Reads
              e.order.id .dataset (e.results.setReview text stage) := completeReview_reads
        exact proceed_holds hreads (held_of_noted hheld) nofun
    · have hother : ∀ stage handoff, on ≠ .turn (.review stage handoff) :=
        fun stage handoff h => hon ⟨stage, handoff, h⟩
      rw [filed_eq_pending hevent hw hother]
      have hfiles : (e.resume config outside on text d.gateway.durable).Files false e.results
          e.order.id := resume_files hworks hkept (.refl _) hother
      refine ⟨filed_executed hfiled hchanges (proceed_files hseg hfiles) (fun _ _ => rfl) hheld,
        fun _ _ _ => ?_⟩
      have hreads : (e.resume config outside on text d.gateway.durable).Reads e.order.id .dataset
          e.results := resume_reads (.refl _) hother
      exact proceed_holds hreads hheld nofun

theorem filed_rewritten {d' : Durable} (hr : Rewritten g.durable d' x')
    (hfiled : ∀ x ∈ g.durable, x.order.Filed (pending x.order.id))
    (hle : ∀ k stage report, pending' k stage = some report → pending k stage = some report)
    (hnext : x'.order.Filed (pending' x'.order.id)) :
    ∀ y ∈ d', y.order.Filed (pending' y.order.id) := by
  intro y hy
  rcases (hr y).mp hy with rfl | ⟨hy, -⟩
  · exact hnext
  · exact (hfiled y hy).mono (hle _)

theorem claim_filed (now : ℤ) (hfiled : ∀ x ∈ g.durable, x.order.Filed (pending x.order.id)) :
    ∀ y ∈ (g.claim now).durable, y.order.Filed (pending y.order.id) := by
  unfold Gateway.claim
  split
  case h_1 =>
    split
    · exact hfiled
    · dsimp only
      split
      · exact hfiled
      · rename_i order hdue
        have hmem : order ∈ g.durable.store.workOrders := List.mem_of_find?_eq_some hdue
        have hqueued : order.status = .queued := by
          have hd := List.find?_some hdue
          simp only [WorkOrder.due, Bool.and_eq_true, beq_iff_eq] at hd
          exact hd.1
        have hx : (⟨order, g.durable.artifacts.find order.id⟩ : Entry) ∈ g.durable := ⟨hmem, rfl⟩
        have hr := (Rewritten.modify hx (·.claimed) fun _ => rfl)
        refine filed_rewritten (hr.congr rfl rfl) hfiled (fun _ _ _ h => h) ?_
        refine (hfiled _ hx).of_results rfl (by simp [hqueued]) (by simp [hqueued]) fun hs => ?_
        exact congrArg some (WorkOrder.resumeStage_of_strategy hs)
  case h_2 => exact hfiled

theorem cancel_filed (identifier : Option String) (hT : g.Tracks)
    (hfiled : ∀ x ∈ g.durable, x.order.Filed (pending x.order.id))
    (hholds : g.worker.Holds pending) :
    ∀ y ∈ (g.cancel config outside identifier).durable, y.order.Filed (pending y.order.id) := by
  rcases cancel_cases config outside g identifier with
    heq | ⟨x, hx, _, ⟨_, heq⟩ | ⟨_, _, hr⟩⟩
  · rw [heq]
    exact hfiled
  · rw [heq]
    have hT' : ({ g with cancelRequested := x.order.id :: g.cancelRequested } : Gateway).Tracks :=
      hT
    exact cancelWorker_filed hT' hfiled hholds
  · exact filed_rewritten hr hfiled (fun _ _ _ h => h) (.inr (.inl rfl))

theorem stop_filed (hT : g.Tracks)
    (hfiled : ∀ x ∈ g.durable, x.order.Filed (pending x.order.id))
    (hholds : g.worker.Holds pending) :
    ∀ y ∈ (g.stop config outside).durable, y.order.Filed (pending y.order.id) := by
  unfold Gateway.stop
  split
  · exact hfiled
  · exact hfiled
  · exact hfiled
  · exact cancelWorker_filed hT hfiled hholds

theorem resumeQuota_filed (identifier : Option String)
    (hfiled : ∀ x ∈ g.durable, x.order.Filed (pending x.order.id)) :
    ∀ y ∈ (g.resumeQuota identifier).durable, y.order.Filed (pending y.order.id) := by
  unfold Gateway.resumeQuota
  split
  · exact hfiled
  · intro y hy
    have hy' : y ∈ g.durable.onStore (·.mapOrders (·.quotaResumed identifier) (by simp)) := hy
    obtain ⟨x, hx, rfl⟩ := Durable.mem_mapOrders.mp hy'
    dsimp only
    rw [WorkOrder.quotaResumed_id]
    unfold WorkOrder.quotaResumed
    split
    · exact (hfiled x hx).of_results rfl (fun h => h) (fun h => h) fun h => h
    · exact hfiled x hx

theorem create_filed (work : NewWork) (stamp : String)
    (hfiled : ∀ x ∈ g.durable, x.order.Filed (pending x.order.id))
    (hknown : ∀ identifier stage report, pending identifier stage = some report →
      (g.durable.find identifier).isSome = true) :
    ∀ y ∈ (g.create work stamp).durable, y.order.Filed (pending y.order.id) := by
  intro y hy
  rcases create_back hy with hy | ⟨_, hfresh⟩
  · exact hfiled y hy
  · have hnone : ∀ stage report, pending y.order.id stage ≠ some report := by
      intro stage report hp
      have hsome := hknown _ _ _ hp
      rw [hfresh] at hsome
      cases hsome
    exact .inr (.inr ⟨fun report hp => absurd hp (hnone _ _), fun report hp =>
      absurd hp (hnone _ _)⟩)

theorem reset_le {before after : Gateway} {identifier : String} (k : String) (stage : ReviewStage)
    (report : String) (h : pending.reset before after identifier k stage = some report) :
    pending k stage = some report := by
  unfold Pending.reset at h
  split at h
  · cases h
  · exact h

theorem filed_reset {g' : Gateway} (hx : x ∈ g.durable) (hr : Rewritten g.durable g'.durable x')
    (hid : x'.order.id = x.order.id)
    (hfiled : ∀ x ∈ g.durable, x.order.Filed (pending x.order.id)) :
    ∀ y ∈ g'.durable, y.order.Filed (pending.reset g g' x.order.id y.order.id) := by
  refine filed_rewritten hr hfiled reset_le ?_
  have hafter := Durable.find_mem hr.mem
  rw [hid] at hafter ⊢
  by_cases hsame : g'.durable.find x.order.id = g.durable.find x.order.id
  · have hold : x'.order = x.order := by
      rw [hafter, Durable.find_mem hx] at hsame
      exact Option.some.inj hsame
    rw [hold]
    exact (hfiled x hx).mono (reset_le _)
  · have hnone : ∀ stage, pending.reset g g' x.order.id x.order.id stage = none := by
      intro stage
      simp [Pending.reset, hsame]
    refine .inr (.inr ⟨fun report hp => ?_, fun report hp => ?_⟩) <;>
    · rw [hnone] at hp
      cases hp

theorem HoldsPass.not_blocked {order : WorkOrder} {report : String} (h : HoldsPass order)
    (hreport : order.results.reviewBacktest = some report) :
    ¬ (reviewOutcome report .reviewBacktest = .fail ∨
      reviewOutcome report .reviewBacktest = .blocked) := by
  obtain ⟨report', hr, hpass⟩ := h
  rw [hreport] at hr
  obtain rfl := Option.some.inj hr
  rcases hpass with hpass | rfl
  · simp [hpass]
  · simp [WorkOrder.nativeReview_incomplete]

theorem WorkOrder.Filed.approved {order next : WorkOrder} {p : ReviewStage → Option String}
    {gate : ApprovalGate} {note : String} (h : order.Filed p) (he : Evidenced order)
    (hv : Vetted HoldsPass order)
    (hblocking : ∀ report, p .reviewBacktest = some report →
      reviewOutcome report .reviewBacktest = .fail ∨
        reviewOutcome report .reviewBacktest = .blocked)
    (ha : order.approval gate true note = .ok next) : next.Filed p := by
  obtain ⟨hstatus, moved, hmoved, rfl⟩ := order.approval_eq_ok ha
  have hstage := stage_ne_of_gate he gate hstatus
  have hlive : order.status ≠ .failed ∧ order.status ≠ .cancelled := by
    rw [hstatus]
    cases gate <;> decide
  have hkept : ∀ {next : WorkOrder}, next.results = order.results → next.Filed p :=
    fun hresults => h.of_unhidden hresults hlive fun hhidden => hstage hhidden.2
  suffices hm : moved.Filed p from hm.of_results rfl (fun h => h) (fun h => h) fun h => h
  unfold WorkOrder.decided at hmoved
  cases gate with
  | implementation =>
    dsimp only at hmoved
    split at hmoved
    · obtain rfl := Except.ok.inj hmoved
      exact hkept rfl
    · obtain rfl := Except.ok.inj hmoved
      exact hkept rfl
  | optimization =>
    dsimp only at hmoved
    split at hmoved
    · cases hmoved
    · rename_i proposal hproposal
      split at hmoved
      · cases hmoved
      · rename_i hblank
        rw [if_pos rfl] at hmoved
        obtain rfl := Except.ok.inj hmoved
        have hne : truthy (some proposal) = true := by
          have : proposal ≠ "" := by
            rintro rfl
            exact hblank rfl
          simpa [truthy] using this
        have hfits := he.fits
        rw [hstatus] at hfits
        have hpass := hv .optimizationApproval hfits rfl
        refine .inr (.inr ⟨fun _ _ => .inr ⟨hne, rfl⟩, fun report hp => ?_⟩)
        rcases h with h | h | h
        · exact absurd h hlive.1
        · exact absurd h hlive.2
        · exact absurd (hblocking report hp) (hpass.not_blocked (h.backtest report hp))
  | backtest =>
    obtain rfl := Except.ok.inj hmoved
    exact hkept rfl
  | live =>
    obtain rfl := Except.ok.inj hmoved
    exact hkept rfl

theorem recover_filed (he : g.Evidenced)
    (hfiled : ∀ x ∈ g.durable, x.order.Filed (pending x.order.id))
    (hnone : ∀ x ∈ g.durable, x.order.delayedBacktest outside = true →
      pending x.order.id .reviewBacktest = none) :
    ∀ y ∈ (g.recover config outside).durable, y.order.Filed (pending y.order.id) := by
  intro y hy
  unfold Gateway.recover at hy
  split at hy
  case h_2 => exact hfiled y hy
  case h_1 =>
    have hlinked : Linked (Recovery config outside fun _ => True) g.durable
        (g.durable.recover config outside).1 := recover_linked fun _ _ _ => trivial
    obtain ⟨x, hx, hid, hchain⟩ := hlinked.back y hy
    rw [hid]
    exact (hfiled x hx).recovered (he.orders x hx) (hnone x hx) hchain

theorem running_kept {on : Await} (hw : (g.step config input).worker = .running e on)
    (hbegin : input.event ≠ .begin) (hreply : ∀ text, input.event ≠ .reply text) :
    g.worker = .running e on := by
  have hcancel : ∀ g' : Gateway, (g'.cancelWorker config input.outside).worker = .running e on →
      g'.worker = .running e on := by
    intro g' h
    unfold Gateway.cancelWorker at h
    split at h
    · cases h
    · cases h
    · exact h
  unfold Gateway.step at hw
  cases hevent : input.event with
  | begin => exact absurd hevent hbegin
  | reply text => exact absurd hevent (hreply text)
  | create work stamp =>
    simp only [hevent, create_worker] at hw
    exact hw
  | approve identifier gate approved note =>
    simp only [hevent, approve_worker] at hw
    exact hw
  | retry identifier artifactId artifactVersion reason =>
    simp only [hevent, retry_worker] at hw
    exact hw
  | crash =>
    simp only [hevent, Gateway.crash] at hw
    cases hw
  | start =>
    simp only [hevent, Gateway.start] at hw
    split at hw
    · cases hw
    · exact hw
  | recover =>
    simp only [hevent, Gateway.recover] at hw
    split at hw
    · dsimp only at hw
      split at hw <;> cases hw
    · exact hw
  | claim =>
    simp only [hevent, Gateway.claim] at hw
    split at hw
    · rename_i hidle
      split at hw
      · exact hw
      · split at hw
        · exact hw
        · cases hw
    · exact hw
  | acquisitionFailed detail =>
    simp only [hevent, Gateway.acquisitionFailed] at hw
    split at hw
    · cases hw
    · exact hw
  | raise failure =>
    simp only [hevent, Gateway.raise] at hw
    split at hw
    · cases hw
    · exact hw
  | close =>
    simp only [hevent, Gateway.close] at hw
    split at hw
    · dsimp only at hw
      split at hw <;> cases hw
    · exact hw
  | cancel identifier =>
    simp only [hevent, Gateway.cancel] at hw
    split at hw
    · rename_i selected _
      split at hw
      · exact hcancel { g with cancelRequested := selected.id :: g.cancelRequested } hw
      · exact hw
    · exact hw
  | stop =>
    simp only [hevent, Gateway.stop] at hw
    split at hw
    · cases hw
    · cases hw
    · cases hw
    · exact hcancel _ hw
  | resumeQuota identifier =>
    simp only [hevent, Gateway.resumeQuota] at hw
    split at hw
    · exact hw
    · cases hw

theorem Worker.Holds.mono {worker : Worker} (h : worker.Holds pending)
    (hle : ∀ k stage report, pending' k stage = some report → pending k stage = some report) :
    worker.Holds pending' := by
  cases worker with
  | running e on =>
    obtain ⟨hheld, hprior, hresults⟩ := h
    exact ⟨fun stage report hp => hheld _ _ (hle _ _ _ hp),
      fun prior hon report hp => hprior prior hon _ (hle _ _ _ hp), hresults⟩
  | _ => trivial

section Docket

variable {d : Docket}

theorem filed_forms (d : Docket) (input : Input) (after : Gateway) :
    (∃ text e stage handoff, input.event = .reply text ∧
        d.gateway.worker = .running e (.turn (.review stage handoff)) ∧
        d.filed input after = d.pending.note e.order.id stage text) ∨
      (∃ identifier, d.filed input after = d.pending.reset d.gateway after identifier) ∨
      d.filed input after = d.pending := by
  unfold Docket.filed
  split
  case h_1 text e stage handoff hevent hw => exact .inl ⟨text, e, stage, handoff, hevent, hw, rfl⟩
  case h_2 => exact .inr (.inl ⟨_, rfl⟩)
  case h_3 => exact .inr (.inl ⟨_, rfl⟩)
  case h_4 => exact .inr (.inr rfl)

theorem filed_cases {after : Gateway} {k : String} {stage : ReviewStage} {report : String}
    (h : d.filed input after k stage = some report) :
    d.pending k stage = some report ∨
      ∃ e handoff, input.event = .reply report ∧
        d.gateway.worker = .running e (.turn (.review stage handoff)) ∧ k = e.order.id ∧
        (reviewOutcome report stage = .fail ∨ reviewOutcome report stage = .blocked) := by
  rcases filed_forms d input after with
    ⟨text, e, s, handoff, hevent, hw, hform⟩ | ⟨identifier, hform⟩ | hform <;>
    rw [hform] at h
  · unfold Pending.note at h
    split at h
    case isTrue hk =>
      obtain ⟨rfl, rfl⟩ := hk
      split at h
      case h_1 hfail =>
        obtain rfl := Option.some.inj h
        exact .inr ⟨e, handoff, hevent, hw, rfl, .inl hfail⟩
      case h_2 hblocked =>
        obtain rfl := Option.some.inj h
        exact .inr ⟨e, handoff, hevent, hw, rfl, .inr hblocked⟩
      case h_3 => cases h
    case isFalse => exact .inl h
  · exact .inl (reset_le _ _ _ h)
  · exact .inl h

theorem filed_le {after : Gateway} (hreply : ∀ text, input.event ≠ .reply text) (k : String)
    (stage : ReviewStage) (report : String) (h : d.filed input after k stage = some report) :
    d.pending k stage = some report := by
  rcases filed_cases h with h | ⟨_, _, hevent, _⟩
  · exact h
  · exact absurd hevent (hreply report)

theorem not_hides {order : WorkOrder} (h : d.hides input = false) (hevent : input.event = .begin)
    (hw : d.gateway.worker = .claimed order) (hs : order.stage = some .strategy)
    (hp : (d.pending order.id .reviewImplementation).isSome = true) :
    truthy order.results.optimization = false := by
  simpa [Docket.hides, hevent, hw, hs, hp] using h

theorem not_supersedes {x : Entry} (h : d.supersedes input = false)
    (hevent : input.event = .recover) (hx : x ∈ d.gateway.durable)
    (hdelayed : x.order.delayedBacktest input.outside = true) :
    d.pending x.order.id .reviewBacktest = none := by
  unfold Docket.supersedes at h
  rw [hevent] at h
  have hmem : x.order ∈ d.gateway.durable.store.workOrders.entries := hx.1
  have hfalse := List.any_eq_false.mp h x.order hmem
  rw [hdelayed, Bool.and_true, Bool.not_eq_true, Option.isSome_eq_false_iff] at hfalse
  exact Option.isNone_iff_eq_none.mp hfalse

theorem approve_filed (h : d.Sound) {identifier note : String} {gate : ApprovalGate}
    {approved : Bool} (hevent : input.event = .approve identifier gate approved note) :
    ∀ y ∈ (d.gateway.approve identifier gate approved note).durable,
      y.order.Filed (d.filed input (d.gateway.approve identifier gate approved note) y.order.id) := by
  have hfiled := h.filed
  rcases approve_rewritten d.gateway identifier gate approved note with
    heq | ⟨x, hx, rfl, next, hnext, hr⟩
  · cases approved with
    | false =>
      simp only [Docket.filed, hevent]
      rw [heq]
      exact fun y hy => (hfiled y hy).mono (reset_le _)
    | true =>
      simp only [Docket.filed, hevent]
      rw [heq]
      exact hfiled
  · cases approved with
    | false =>
      simp only [Docket.filed, hevent]
      exact filed_reset hx hr (x.order.approval_id hnext) hfiled
    | true =>
      simp only [Docket.filed, hevent]
      refine filed_rewritten hr hfiled (fun _ _ _ hp => hp) ?_
      dsimp only
      rw [x.order.approval_id hnext]
      exact (hfiled x hx).approved (h.vetted.evidenced.orders x hx) (h.vetted.orders x hx)
        (fun report hp => h.blocking _ _ _ hp) hnext

theorem retry_filed (h : d.Sound) {identifier artifactId artifactVersion reason : String}
    (hevent : input.event = .retry identifier artifactId artifactVersion reason) :
    ∀ y ∈ (d.gateway.retry input.outside identifier artifactId artifactVersion reason).durable,
      y.order.Filed (d.filed input
        (d.gateway.retry input.outside identifier artifactId artifactVersion reason)
          y.order.id) := by
  have hfiled := h.filed
  simp only [Docket.filed, hevent]
  rcases retry_rewritten d.gateway input.outside identifier artifactId artifactVersion reason with
    heq | ⟨x, hx, rfl, _, hr⟩
  · rw [heq]
    exact fun y hy => (hfiled y hy).mono (reset_le _)
  · exact filed_reset hx hr rfl hfiled

theorem step_filed (h : d.Sound) (hhides : d.hides input = false)
    (hsupersedes : d.supersedes input = false) :
    ∀ y ∈ (d.step config input).gateway.durable,
      y.order.Filed ((d.step config input).pending y.order.id) := by
  have hT := h.vetted.evidenced.tracks
  have hfiled := h.filed
  unfold Docket.step
  dsimp only
  generalize hafter : d.gateway.step config input = after
  have hsame : d.filed input after = d.pending →
      (∀ y ∈ after.durable, y.order.Filed (d.pending y.order.id)) →
        ∀ y ∈ after.durable, y.order.Filed (d.filed input after y.order.id) := by
    intro heq hall
    rw [heq]
    exact hall
  unfold Gateway.step at hafter
  cases hevent : input.event with
  | reply text =>
    simp only [hevent] at hafter
    subst hafter
    exact (reply_filed hevent hT hfiled h.holds _).1
  | begin =>
    simp only [hevent] at hafter
    subst hafter
    refine hsame (by simp [Docket.filed, hevent]) ?_
    exact (begin_filed hT hfiled fun order hw hs hp => not_hides hhides hevent hw hs hp).1
  | create work stamp =>
    simp only [hevent] at hafter
    subst hafter
    exact hsame (by simp [Docket.filed, hevent]) (create_filed work stamp hfiled h.known)
  | start =>
    simp only [hevent, Gateway.start] at hafter
    subst hafter
    refine hsame (by simp [Docket.filed, hevent]) ?_
    split
    · exact hfiled
    · exact hfiled
  | recover =>
    simp only [hevent] at hafter
    subst hafter
    exact hsame (by simp [Docket.filed, hevent]) (recover_filed h.vetted.evidenced hfiled
      fun x hx => not_supersedes hsupersedes hevent hx)
  | claim =>
    simp only [hevent] at hafter
    subst hafter
    exact hsame (by simp [Docket.filed, hevent]) (claim_filed _ hfiled)
  | acquisitionFailed detail =>
    simp only [hevent] at hafter
    subst hafter
    exact hsame (by simp [Docket.filed, hevent]) (acquisitionFailed_filed detail hT hfiled h.holds)
  | raise failure =>
    simp only [hevent] at hafter
    subst hafter
    exact hsame (by simp [Docket.filed, hevent]) (raise_filed failure hT hfiled h.holds)
  | close =>
    simp only [hevent, Gateway.close] at hafter
    subst hafter
    refine hsame (by simp [Docket.filed, hevent]) ?_
    split
    · exact hfiled
    · exact hfiled
  | cancel identifier =>
    simp only [hevent] at hafter
    subst hafter
    exact hsame (by simp [Docket.filed, hevent]) (cancel_filed identifier hT hfiled h.holds)
  | stop =>
    simp only [hevent] at hafter
    subst hafter
    exact hsame (by simp [Docket.filed, hevent]) (stop_filed hT hfiled h.holds)
  | crash =>
    simp only [hevent] at hafter
    subst hafter
    exact hsame (by simp [Docket.filed, hevent]) hfiled
  | resumeQuota identifier =>
    simp only [hevent] at hafter
    subst hafter
    exact hsame (by simp [Docket.filed, hevent]) (resumeQuota_filed identifier hfiled)
  | approve identifier gate approved note =>
    simp only [hevent] at hafter
    subst hafter
    exact approve_filed h hevent
  | retry identifier artifactId artifactVersion reason =>
    simp only [hevent] at hafter
    subst hafter
    exact retry_filed h hevent

theorem holds_of_kept (h : d.Sound) (hreply : ∀ text, input.event ≠ .reply text)
    (hworker : (d.step config input).gateway.worker = d.gateway.worker) :
    (d.step config input).gateway.worker.Holds (d.step config input).pending := by
  rw [hworker]
  exact h.holds.mono (filed_le hreply)

theorem reply_holds {text : String} (h : d.Sound) (hevent : input.event = .reply text) :
    (d.step config input).gateway.worker.Holds (d.step config input).pending := by
  cases hw : d.gateway.worker with
  | running e on =>
    have hnext : (d.step config input).gateway = d.gateway.reply config input.outside text := by
      simp only [Docket.step, Gateway.step, hevent]
    rw [hnext]
    exact (reply_filed hevent h.vetted.evidenced.tracks h.filed h.holds _).2 e on hw
  | _ =>
    simp only [Docket.step, Gateway.step, hevent, Gateway.reply, hw]
    trivial

theorem begin_holds (h : d.Sound) (hhides : d.hides input = false) (hevent : input.event = .begin) :
    (d.step config input).gateway.worker.Holds (d.step config input).pending := by
  have hreply : ∀ text, input.event ≠ .reply text := fun text ht => by
    rw [hevent] at ht
    cases ht
  have hnext : (d.step config input).gateway = d.gateway.begin config input.outside := by
    simp only [Docket.step, Gateway.step, hevent]
  cases hw : d.gateway.worker with
  | claimed order =>
    have hpending : (d.step config input).pending = d.pending := by
      simp [Docket.step, Docket.filed, hevent]
    rw [hnext, hpending]
    exact (begin_filed h.vetted.evidenced.tracks h.filed fun order hw hs hp =>
      not_hides hhides hevent hw hs hp).2 order hw
  | _ =>
    apply holds_of_kept h hreply
    rw [hnext]
    simp only [Gateway.begin, hw]

theorem step_holds (h : d.Sound) (hhides : d.hides input = false) :
    (d.step config input).gateway.worker.Holds (d.step config input).pending := by
  by_cases hreply : ∃ text, input.event = .reply text
  · obtain ⟨text, hevent⟩ := hreply
    exact reply_holds h hevent
  · have hother : ∀ text, input.event ≠ .reply text := fun text ht => hreply ⟨text, ht⟩
    by_cases hbegin : input.event = .begin
    · exact begin_holds h hhides hbegin
    · cases hw : (d.step config input).gateway.worker with
      | running e on =>
        rw [← hw]
        exact holds_of_kept h hother (hw.trans (running_kept hw hbegin hother).symm)
      | _ => trivial

theorem sound_step (h : d.Sound) (hhides : d.hides input = false)
    (hsupersedes : d.supersedes input = false) : (d.step config input).Sound := by
  have hT := h.vetted.evidenced.tracks
  refine ⟨holdsPass_step config input h.vetted, step_filed h hhides hsupersedes, ?_, ?_, step_holds h hhides⟩
  · intro identifier stage report hp
    have hall : d.gateway.RestoresOnly (fun _ => True) input := fun _ _ _ _ _ => trivial
    obtain ⟨hev, _⟩ := @step_evolves config input (fun _ => True) d.gateway hall hT
    have hexists : ∃ x ∈ d.gateway.durable, x.order.id = identifier := by
      rcases filed_cases hp with hp | ⟨e, handoff, _, hw, rfl, _⟩
      · obtain ⟨order, horder⟩ := Option.isSome_iff_exists.mp (h.known _ _ _ hp)
        obtain ⟨hmem, hid⟩ := Durable.find_eq_some.mp horder
        exact ⟨⟨order, d.gateway.durable.artifacts.find order.id⟩, ⟨hmem, rfl⟩, hid⟩
      · obtain ⟨x, hx, hf, _⟩ := hT.running hw
        exact ⟨x, hx, hf.id.symm⟩
    obtain ⟨x, hx, rfl⟩ := hexists
    obtain ⟨x', hx', hid⟩ := hev.forth x hx
    rw [← hid]
    exact Option.isSome_iff_exists.mpr ⟨_, Durable.find_mem hx'⟩
  · intro identifier stage report hp
    rcases filed_cases hp with hp | ⟨_, _, _, _, _, hout⟩
    · exact h.blocking _ _ _ hp
    · exact hout

end Docket

end Steps

theorem sound_initial : ({} : Docket).Sound :=
  ⟨vetted_initial _, fun x hx => absurd hx (not_mem_initial x), nofun, nofun, trivial⟩

/-- Where no Strategy turn begins with an optimization proposal while a report for the
implementation is pending, and no startup finishes the delayed backtest of an order whose report for
the backtest is pending, the prompt of every turn contains the Review report it is to answer. -/
theorem reviewBlockers_reach (config : RunnerConfig) (inputs : List Input)
    (h : Run.Guarded (Docket.step config)
      (fun d input => d.hides input = false ∧ d.supersedes input = false) {} inputs) :
    ∀ before, before <+: inputs → (Run.run (Docket.step config) {} before).BlockersReach := by
  rintro before ⟨after, rfl⟩
  have hbefore := (Run.guarded_append.mp h).1
  exact (Run.run_invariant_of_guarded Docket.Sound
    (fun _ _ hs hguard => sound_step hs hguard.1 hguard.2) sound_initial hbefore).blockersReach

def Docket.pendingReport (d : Docket) : Option (Execution × Option String × String) :=
  match d.gateway.worker with
  | .running e (.turn (.strategy prior)) =>
    (d.pending e.order.id .reviewImplementation).map fun report => (e, prior, report)
  | _ => none

theorem Docket.pendingReport_eq_some {d : Docket} {e : Execution} {prior : Option String}
    {report : String} (h : d.pendingReport = some (e, prior, report)) :
    d.gateway.worker = .running e (.turn (.strategy prior)) ∧
      d.pending e.order.id .reviewImplementation = some report := by
  unfold pendingReport at h
  split at h
  · rename_i hw
    obtain ⟨_, hp, heq⟩ := Option.map_eq_some_iff.mp h
    cases heq
    exact ⟨hw, hp⟩
  · cases h

def blockedReport : String :=
  "BLOCKED\nREVIEW_STAGE: review_implementation\nPREREQUISITE_BLOCKER: [exit-rule] spec | Strategy"

def reviewBlocked : List Event :=
  [.create (.research .strategy true .create none false) "1", .start, .recover, .claim, .begin,
    .reply "implemented", .reply blockedReport, .close, .claim, .begin]

theorem reviewBlockers_reach_strategy :
    (Run.run (Docket.step defaultRunner) {} (inputsOf {} reviewBlocked)).pendingReport.isSome = true ∧
      ∀ before, before <+: inputsOf {} reviewBlocked →
        (Run.run (Docket.step defaultRunner) {} before).BlockersReach :=
  ⟨by decide +kernel, reviewBlockers_reach defaultRunner (inputsOf {} reviewBlocked)
    (by decide +kernel)⟩

def improvement : String :=
  "# IMPROVE\nOPTIMIZATION_STAGE: post_backtest\nDIAGNOSIS: late exits\nPROPOSED_CHANGE: exit early\n" ++
    "OVERFIT_GUARD: walk forward\nRISK: cost\nEXPECTED_EVIDENCE: drawdown"

def optimizationBlocked : List Event :=
  [.create (.research .strategy true .create none false) "1", .start, .recover, .claim, .begin,
    .reply "implemented", .reply (completeReport "PASS" .reviewImplementation), .close,
    .approve "strategy-1" .implementation true "ok", .claim, .begin, .reply "dataset",
    .reply "backtested", .reply (completeReport "PASS" .reviewBacktest), .reply improvement, .close,
    .approve "strategy-1" .optimization true "ok", .claim, .begin, .reply "implemented again",
    .reply blockedReport, .close, .claim, .begin]

theorem strategyPrompt_bar {instruction prior : String} {order : WorkOrder}
    (hinstruction : '|' ∉ instruction.toList) (hid : '|' ∉ order.id.toList)
    (hprior : '|' ∉ prior.toList) :
    '|' ∉ (order.strategyPrompt instruction (some prior)).toList := by
  have hyes : '|' ∉ (if order.needsBacktest = true then "yes" else "no").toList := by
    split <;> decide
  have hheading : '|' ∉ (if order.results.optimization = some prior then
      "User-approved Optimization Agent proposal"
      else "Independent Review Agent findings from the prior implementation").toList := by
    split <;> decide +kernel
  have hbase : '|' ∉ (order.promptBase instruction).toList := by
    unfold WorkOrder.promptBase
    simp only [String.toList_append, List.mem_append, not_or]
    exact ⟨⟨⟨⟨⟨⟨by decide +kernel, hid⟩, by decide +kernel⟩, hyes⟩, by decide +kernel⟩,
      hinstruction⟩, by decide +kernel⟩
  unfold WorkOrder.strategyPrompt
  dsimp only
  split
  · exact hbase
  · simp only [String.toList_append, List.mem_append, not_or]
    exact ⟨⟨⟨⟨⟨⟨⟨hbase, by decide +kernel⟩, hheading⟩, by decide +kernel⟩, hprior⟩,
      by decide +kernel⟩, by decide +kernel⟩, by decide +kernel⟩

theorem not_blockersReach_of_bar {d : Docket}
    (h : d.pendingReport.any (fun (e, prior, report) =>
      report.toList.contains '|' && !e.order.id.toList.contains '|' &&
        prior.any (!·.toList.contains '|')) = true) : ¬ d.BlockersReach := by
  intro hreach
  obtain ⟨⟨e, prior, report⟩, hpending, hbar⟩ := (Option.any_eq_true _ _).mp h
  obtain ⟨hw, hp⟩ := Docket.pendingReport_eq_some hpending
  simp only [Bool.and_eq_true, Bool.not_eq_true', List.contains_eq_mem, decide_eq_true_eq,
    decide_eq_false_iff_not] at hbar
  obtain ⟨⟨hreport, hid⟩, hprior⟩ := hbar
  obtain ⟨text, rfl, htext⟩ := (Option.any_eq_true _ _).mp hprior
  have hmentions := hreach e _ _ report hw rfl hp "" _ rfl
  have hempty : '|' ∉ "".toList := by decide
  have htext' : '|' ∉ text.toList := by simpa using htext
  exact strategyPrompt_bar hempty hid htext' (hmentions.subset hreport)

/-- The prompt of that turn has the approved proposal, and nothing of the failed Review. -/
theorem optimization_hides_blockers :
    ¬ (Run.run (Docket.step defaultRunner) {}
      (inputsOf { manifests := [alphaManifest] } optimizationBlocked)).BlockersReach :=
  not_blockersReach_of_bar (by decide +kernel)

end ChainQuantStudio.Studio
