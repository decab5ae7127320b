import ChainQuantStudio.Studio.StartupSteps

/-!
# Steps of the gateway, order by order

Whatever the step, each order of the state it leaves is one of the state before, unchanged or after
one of the moves, or a new order. The worker's execution keeps following its durable order while
users decide about other orders.
-/

namespace ChainQuantStudio.Studio

def Gateway.Tracks (g : Gateway) : Prop :=
  match g.worker with
  | .claimed order => ∃ x ∈ g.durable, x.order = order ∧ order.status = .working ∧
      order.stage.isSome = true
  | .running e on => ∃ x ∈ g.durable, Follows e x.order ∧ on.Fits e
  | _ => True

def Created (g : Gateway) (input : Input) (x' : Entry) : Prop :=
  ∃ work stamp, input.event = .create work stamp ∧
    work.order stamp g.durable.store = some x'.order ∧ g.durable.find x'.order.id = none

structure Evolves (config : RunnerConfig) (input : Input) (turns : List AgentTurn)
    (allowed : Entry → Prop) (g : Gateway) (d' : Durable) : Prop where
  back : ∀ x' ∈ d', x' ∈ g.durable ∨ Created g input x' ∨
    ∃ x ∈ g.durable, x'.order.id = x.order.id ∧ Moved config input turns allowed x x'
  forth : ∀ x ∈ g.durable, ∃ x' ∈ d', x'.order.id = x.order.id

/-- Every order that this startup's optimizer-stage recovery restores is one `allowed` admits. -/
def Gateway.RestoresOnly (allowed : Entry → Prop) (g : Gateway) (input : Input) : Prop :=
  input.event = .recover → g.worker = .starting →
    ∀ x ∈ g.durable.resumed, x.order.optimizerRegression → allowed x

variable {config : RunnerConfig} {outside : Outside} {input : Input} {turns : List AgentTurn}
  {allowed : Entry → Prop} {g : Gateway}

namespace Evolves

theorem refl : Evolves config input turns allowed g g.durable :=
  ⟨fun _ hx => .inl hx, fun x hx => ⟨x, hx, rfl⟩⟩

theorem of_rewritten {d' : Durable} {x x' : Entry} (hx : x ∈ g.durable)
    (hr : Rewritten g.durable d' x') (hid : x'.order.id = x.order.id)
    (hmove : x' = x ∨ Moved config input turns allowed x x') :
    Evolves config input turns allowed g d' := by
  constructor
  · intro y hy
    rcases (hr y).mp hy with rfl | ⟨hy, -⟩
    · rcases hmove with rfl | hmove
      · exact .inl hx
      · exact .inr (.inr ⟨x, hx, hid, hmove⟩)
    · exact .inl hy
  · intro y hy
    by_cases h : y.order.id = x'.order.id
    · exact ⟨x', hr.mem, h.symm⟩
    · exact ⟨y, hr.mem_of_ne hy h, rfl⟩

theorem of_linked {d' : Durable} (hevent : input.event = .recover)
    (h : Linked (Recovery config input.outside allowed) g.durable d') :
    Evolves config input turns allowed g d' := by
  constructor
  · intro y hy
    obtain ⟨x, hx, hid, hchain⟩ := h.back y hy
    exact .inr (.inr ⟨x, hx, hid, .recovered hevent hchain⟩)
  · exact h.forth

theorem congr {d₁ d₂ : Durable} (h : Evolves config input turns allowed g d₁)
    (ho : d₂.store.workOrders = d₁.store.workOrders) (ha : d₂.artifacts = d₁.artifacts) :
    Evolves config input turns allowed g d₂ := by
  have hmem : ∀ y, y ∈ d₂ ↔ y ∈ d₁ := by
    intro y
    rw [Durable.mem_def, Durable.mem_def, ho, ha]
  constructor
  · intro y hy
    exact h.back y ((hmem y).mp hy)
  · intro x hx
    obtain ⟨y, hy, hid⟩ := h.forth x hx
    exact ⟨y, (hmem y).mpr hy, hid⟩

end Evolves

theorem tracks_of_not_executing {g : Gateway} (h : ∀ order, g.worker ≠ .claimed order)
    (h' : ∀ e on, g.worker ≠ .running e on) : g.Tracks := by
  unfold Gateway.Tracks
  split
  case h_1 order hw => exact absurd hw (h order)
  case h_2 e on hw => exact absurd hw (h' e on)
  case h_3 => trivial

theorem closing_tracks (g : Gateway) (identifier : String) (w : Durable × Option Failure) :
    (g.closing identifier w).Tracks := trivial

theorem closing_spec {x : Entry} {w : Durable × Option Failure} (hx : x ∈ g.durable)
    (h : ∃ x', Rewritten g.durable w.1 x' ∧ (x' = x ∨ Worked turns x x')) (identifier : String) :
    Evolves config input turns allowed g (g.closing identifier w).durable := by
  obtain ⟨x', hr, hstep⟩ := h
  have hid : x'.order.id = x.order.id := by
    rcases hstep with rfl | hw
    · rfl
    · exact hw.frame.id
  exact .of_rewritten hx hr hid (hstep.imp_right .worked)

theorem proceed_spec {x : Entry} {seg : Segment} (hx : x ∈ g.durable)
    (hseg : seg.Spec turns g.durable x) :
    Evolves config input turns allowed g
        (g.proceed config outside x.order.id seg).durable ∧
      (g.proceed config outside x.order.id seg).Tracks := by
  cases seg with
  | awaiting d e on =>
    obtain ⟨x', hr, hstep, hf, hfits⟩ := hseg
    have hid : x'.order.id = x.order.id := by
      rcases hstep with rfl | hw
      · rfl
      · exact hw.frame.id
    exact ⟨.of_rewritten hx hr hid (hstep.imp_right .worked), x', hr.mem, hf, hfits⟩
  | returned d =>
    obtain ⟨x', hr, hstep⟩ := hseg
    have hid : x'.order.id = x.order.id := by
      rcases hstep with rfl | hw
      · rfl
      · exact hw.frame.id
    exact ⟨.of_rewritten hx hr hid (hstep.imp_right .worked), trivial⟩
  | raised d e failure =>
    obtain ⟨x₁, hr, hi, hunnamed⟩ := hseg
    obtain ⟨x', hr', hw⟩ := handle_spec config turns hr hi (hunnamed.not_outOfYears outside)
    exact ⟨closing_spec hx ⟨x', hr', .inr hw⟩ _, closing_tracks _ _ _⟩

theorem begin_evolves (hT : g.Tracks) :
    Evolves config input turns allowed g (g.begin config outside).durable ∧
      (g.begin config outside).Tracks := by
  unfold Gateway.begin
  split
  case h_1 order hw =>
    have ht := hT
    simp only [Gateway.Tracks, hw] at ht
    obtain ⟨x, hx, rfl, hworking, hstage⟩ := ht
    exact proceed_spec hx (begin_spec hx hworking hstage)
  case h_2 => exact ⟨.refl, hT⟩

theorem reply_evolves (text : String) (hT : g.Tracks) :
    Evolves config input (g.reply config outside text).history.turns allowed g
        (g.reply config outside text).durable ∧
      (g.reply config outside text).Tracks := by
  unfold Gateway.reply
  split
  case h_1 e on hw =>
    have ht := hT
    simp only [Gateway.Tracks, hw] at ht
    obtain ⟨x, hx, hf, hfits⟩ := ht
    rw [hf.id]
    apply proceed_spec hx
    apply resume_spec hx hf hfits
    rintro turn rfl
    simp [Gateway.noteReply, hf.id]
  case h_2 => exact ⟨.refl, hT⟩

theorem raise_evolves (failure : Failure) (hT : g.Tracks) :
    Evolves config input turns allowed g (g.raise config outside failure).durable ∧
      (g.raise config outside failure).Tracks := by
  unfold Gateway.raise
  split
  case h_1 e on hw =>
    have ht := hT
    simp only [Gateway.Tracks, hw] at ht
    obtain ⟨x, hx, hf, _⟩ := ht
    exact ⟨closing_spec hx (raise_spec config outside turns hx hf failure) _,
      closing_tracks _ _ _⟩
  case h_2 => exact ⟨.refl, hT⟩

theorem acquisitionFailed_evolves (detail : String) (hT : g.Tracks) :
    Evolves config input turns allowed g (g.acquisitionFailed config outside detail).durable ∧
      (g.acquisitionFailed config outside detail).Tracks := by
  unfold Gateway.acquisitionFailed
  split
  case h_1 e hw =>
    have ht := hT
    simp only [Gateway.Tracks, hw] at ht
    obtain ⟨x, hx, hf, hfits⟩ := ht
    obtain ⟨x', hr, hw⟩ := acquisitionFailed_spec config outside turns hx hf hfits detail
    exact ⟨closing_spec hx ⟨x', hr, .inr hw⟩ _, closing_tracks _ _ _⟩
  case h_2 => exact ⟨.refl, hT⟩

theorem cancelWorker_evolves (config : RunnerConfig) (outside : Outside) (input : Input)
    (turns : List AgentTurn) (allowed : Entry → Prop) {g : Gateway} (hT : g.Tracks) :
    Evolves config input turns allowed g (g.cancelWorker config outside).durable ∧
      (g.cancelWorker config outside).Tracks := by
  unfold Gateway.cancelWorker
  split
  case h_1 e on hw =>
    have ht := hT
    simp only [Gateway.Tracks, hw] at ht
    obtain ⟨x, hx, hf, _⟩ := ht
    obtain ⟨x', hr, hworked⟩ := cancelled_spec config outside turns hx hf
      (e.order.id ∈ g.cancelRequested)
    exact ⟨.of_rewritten hx hr hworked.frame.id (.inr (.worked hworked)), trivial⟩
  case h_2 => exact ⟨.refl, trivial⟩
  case h_3 => exact ⟨.refl, hT⟩

theorem claim_evolves (now : ℤ) (hT : g.Tracks) :
    Evolves config input turns allowed g (g.claim now).durable ∧ (g.claim now).Tracks := by
  unfold Gateway.claim
  split
  case h_1 hw =>
    split
    · exact ⟨.refl, hT⟩
    · dsimp only
      split
      · refine ⟨Evolves.refl.congr rfl rfl, ?_⟩
        simp only [Gateway.Tracks, hw]
      · rename_i order hdue
        have hmem : order ∈ g.durable.store.workOrders := List.mem_of_find?_eq_some hdue
        have hqueued : order.status = .queued := by
          have h := List.find?_some hdue
          simp only [WorkOrder.due, Bool.and_eq_true, beq_iff_eq] at h
          exact h.1
        have hx : (⟨order, g.durable.artifacts.find order.id⟩ : Entry) ∈ g.durable := ⟨hmem, rfl⟩
        have hr := (Rewritten.modify hx (·.claimed) fun _ => rfl)
        refine ⟨(Evolves.of_rewritten hx hr rfl (.inr (.claimed _ hqueued))).congr rfl rfl, ?_⟩
        exact ⟨_, (hr.congr rfl rfl).mem, rfl, rfl, rfl⟩
  case h_2 => exact ⟨.refl, hT⟩

theorem tracks_of_rewritten {g g' : Gateway} {x x' : Entry} (hT : g.Tracks)
    (hw : g'.worker = g.worker) (hx : x ∈ g.durable) (hr : Rewritten g.durable g'.durable x')
    (hid : x'.order.id = x.order.id)
    (hother : x.order.status ≠ .working ∨ g.worker.activeId ≠ some x.order.id) : g'.Tracks := by
  have hkeep : ∀ y ∈ g.durable, y.order.status = .working →
      g.worker.activeId = some y.order.id → y ∈ g'.durable := by
    intro y hy hworking hactive
    apply hr.mem_of_ne hy
    intro heq
    have hyx : y = x := Durable.eq_of_mem hy hx (heq.trans hid)
    rw [hyx] at hworking hactive
    rcases hother with h | h
    · exact h hworking
    · exact h hactive
  unfold Gateway.Tracks at hT ⊢
  rw [hw]
  split
  case h_1 order hclaimed =>
    simp only [hclaimed] at hT
    obtain ⟨y, hy, hyo, hworking, hstage⟩ := hT
    refine ⟨y, hkeep y hy (hyo ▸ hworking) ?_, hyo, hworking, hstage⟩
    rw [hclaimed, hyo]
    rfl
  case h_2 e on hrunning =>
    simp only [hrunning] at hT
    obtain ⟨y, hy, hf, hfits⟩ := hT
    refine ⟨y, hkeep y hy hf.working ?_, hf, hfits⟩
    rw [hrunning]
    exact congrArg some hf.id
  case h_3 => trivial

theorem cancel_cases (config : RunnerConfig) (outside : Outside) (g : Gateway)
    (identifier : Option String) :
    g.cancel config outside identifier = g ∨
      ∃ x ∈ g.durable, g.cancelCandidates identifier = [x.order] ∧
        ((g.worker.activeId = some x.order.id ∧
            g.cancel config outside identifier =
              ({ g with cancelRequested := x.order.id :: g.cancelRequested } :
                Gateway).cancelWorker config outside) ∨
          (g.worker.activeId ≠ some x.order.id ∧
            (g.cancel config outside identifier).worker = g.worker ∧
            Rewritten g.durable (g.cancel config outside identifier).durable
              ⟨x.order.cancelledIdle, x.record⟩)) := by
  unfold Gateway.cancel
  split
  case h_1 selected hsel =>
    have hmem : selected ∈ g.durable.store.workOrders := by
      have h : selected ∈ g.cancelCandidates identifier := by rw [hsel]; simp
      exact (List.mem_filter.mp h).1
    have hx : (⟨selected, g.durable.artifacts.find selected.id⟩ : Entry) ∈ g.durable := ⟨hmem, rfl⟩
    refine .inr ⟨_, hx, hsel, ?_⟩
    split
    case isTrue hactive => exact .inl ⟨hactive, rfl⟩
    case isFalse hactive =>
      exact .inr ⟨hactive, rfl, Rewritten.modify hx (·.cancelledIdle) fun _ => rfl⟩
  case h_2 => exact .inl rfl

theorem cancel_evolves (identifier : Option String) (hT : g.Tracks) :
    Evolves config input turns allowed g (g.cancel config outside identifier).durable ∧
      (g.cancel config outside identifier).Tracks := by
  rcases cancel_cases config outside g identifier with
    heq | ⟨x, hx, _, ⟨_, heq⟩ | ⟨hactive, hworker, hr⟩⟩
  · rw [heq]
    exact ⟨.refl, hT⟩
  · rw [heq]
    have hT' : ({ g with cancelRequested := x.order.id :: g.cancelRequested } : Gateway).Tracks :=
      hT
    obtain ⟨hc, ht⟩ := cancelWorker_evolves config outside input turns allowed hT'
    exact ⟨⟨hc.back, hc.forth⟩, ht⟩
  · exact ⟨.of_rewritten hx hr rfl (.inr (.cancelled _)),
      tracks_of_rewritten hT hworker hx hr rfl (.inr hactive)⟩

theorem stop_evolves (hT : g.Tracks) :
    Evolves config input turns allowed g (g.stop config outside).durable ∧
      (g.stop config outside).Tracks := by
  unfold Gateway.stop
  split
  · exact ⟨.refl, trivial⟩
  · exact ⟨.refl, trivial⟩
  · exact ⟨.refl, trivial⟩
  · exact cancelWorker_evolves config outside input turns allowed hT

theorem approve_rewritten (g : Gateway) (identifier : String) (gate : ApprovalGate)
    (approved : Bool) (note : String) :
    g.approve identifier gate approved note = g ∨
      ∃ x ∈ g.durable, x.order.id = identifier ∧
        ∃ next, x.order.approval gate approved note = .ok next ∧
          Rewritten g.durable (g.approve identifier gate approved note).durable
            ⟨next, x.record⟩ := by
  unfold Gateway.approve
  split
  · exact .inl rfl
  · split
    · exact .inl rfl
    · rename_i order hfind
      obtain ⟨hmem, rfl⟩ := Durable.find_eq_some.mp hfind
      split
      · exact .inl rfl
      · rename_i next hnext
        have hx : (⟨order, g.durable.artifacts.find order.id⟩ : Entry) ∈ g.durable :=
          ⟨hmem, rfl⟩
        have hr := Rewritten.modify hx (fun current => { next with id := current.id }) fun _ => rfl
        have heq : { next with id := order.id } = next := by rw [← order.approval_id hnext]
        dsimp only at hr
        rw [heq] at hr
        exact .inr ⟨_, hx, rfl, next, hnext, hr⟩

theorem approve_worker (g : Gateway) (identifier : String) (gate : ApprovalGate)
    (approved : Bool) (note : String) :
    (g.approve identifier gate approved note).worker = g.worker := by
  unfold Gateway.approve
  split
  · rfl
  · split
    · rfl
    · split <;> rfl

theorem approve_evolves (identifier : String) (gate : ApprovalGate) (approved : Bool)
    (note : String) (hevent : input.event = .approve identifier gate approved note)
    (hT : g.Tracks) :
    Evolves config input turns allowed g (g.approve identifier gate approved note).durable ∧
      (g.approve identifier gate approved note).Tracks := by
  rcases approve_rewritten g identifier gate approved note with
    heq | ⟨x, hx, rfl, next, hnext, hr⟩
  · rw [heq]
    exact ⟨.refl, hT⟩
  · have hnid := x.order.approval_id hnext
    refine ⟨.of_rewritten hx hr hnid (.inr (.decided hevent hnext)), ?_⟩
    refine tracks_of_rewritten hT (approve_worker _ _ _ _ _) hx hr hnid (.inl ?_)
    rw [(x.order.approval_eq_ok hnext).1]
    cases gate <;> decide

theorem retry_rewritten (g : Gateway) (outside : Outside)
    (identifier artifactId artifactVersion reason : String) :
    g.retry outside identifier artifactId artifactVersion reason = g ∨
      ∃ x ∈ g.durable, x.order.id = identifier ∧ Gateway.retryable x.order.status = true ∧
        Rewritten g.durable
          (g.retry outside identifier artifactId artifactVersion reason).durable
          ⟨x.order.retried artifactId artifactVersion reason, x.record⟩ := by
  unfold Gateway.retry
  split
  · exact .inl rfl
  · split
    · exact .inl rfl
    · rename_i order hfind
      obtain ⟨hmem, rfl⟩ := Durable.find_eq_some.mp hfind
      split
      · exact .inl rfl
      · rename_i hretry
        split
        · have hx : (⟨order, g.durable.artifacts.find order.id⟩ : Entry) ∈ g.durable :=
            ⟨hmem, rfl⟩
          have hr := Rewritten.modify hx (·.retried artifactId artifactVersion reason) (by simp)
          exact .inr ⟨_, hx, rfl, by simpa using hretry, hr.congr rfl rfl⟩
        · exact .inl rfl

theorem retry_worker (g : Gateway) (outside : Outside)
    (identifier artifactId artifactVersion reason : String) :
    (g.retry outside identifier artifactId artifactVersion reason).worker = g.worker := by
  unfold Gateway.retry
  split
  · rfl
  · split
    · rfl
    · split
      · rfl
      · split <;> rfl

theorem retry_evolves (identifier artifactId artifactVersion reason : String) (hT : g.Tracks) :
    Evolves config input turns allowed g
        (g.retry outside identifier artifactId artifactVersion reason).durable ∧
      (g.retry outside identifier artifactId artifactVersion reason).Tracks := by
  rcases retry_rewritten g outside identifier artifactId artifactVersion reason with
    heq | ⟨x, hx, rfl, hretry, hr⟩
  · rw [heq]
    exact ⟨.refl, hT⟩
  · refine ⟨.of_rewritten hx hr rfl (.inr (.retried _ _ _ _ hretry)), ?_⟩
    refine tracks_of_rewritten hT (retry_worker _ _ _ _ _ _) hx hr rfl (.inl ?_)
    intro hworking
    rw [hworking] at hretry
    cases hretry

theorem resumeQuota_evolves (identifier : Option String) (hT : g.Tracks) :
    Evolves config input turns allowed g (g.resumeQuota identifier).durable ∧
      (g.resumeQuota identifier).Tracks := by
  unfold Gateway.resumeQuota
  split
  · exact ⟨.refl, hT⟩
  · refine ⟨?_, trivial⟩
    have hmap : Evolves config input turns allowed g
        (g.durable.onStore (·.mapOrders (·.quotaResumed identifier) (by simp))) := by
      constructor
      · intro y hy
        obtain ⟨x, hx, rfl⟩ := Durable.mem_mapOrders.mp hy
        exact .inr (.inr ⟨x, hx, by simp, .quotaResumed x identifier⟩)
      · intro x hx
        exact ⟨_, Durable.mem_mapOrders.mpr ⟨x, hx, rfl⟩, by simp⟩
    exact hmap.congr rfl rfl

theorem recover_evolves (hevent : input.event = .recover)
    (hallowed : g.RestoresOnly allowed input) (hT : g.Tracks) :
    Evolves config input turns allowed g (g.recover config input.outside).durable ∧
      (g.recover config input.outside).Tracks := by
  unfold Gateway.recover
  split
  case h_1 hw =>
    refine ⟨.of_linked hevent (recover_linked (hallowed hevent hw)), ?_⟩
    apply tracks_of_not_executing
    · intro order
      dsimp only
      split <;> simp
    · intro e on
      dsimp only
      split <;> simp
  case h_2 => exact ⟨.refl, hT⟩

theorem find_created (uploaded : Bool) (d : Durable) (order : WorkOrder) {k : String}
    (h : k ≠ order.id) :
    (if uploaded then
        d.artifacts.upsert { workOrder := order.id, artifactKind := order.artifactKind }
      else d.artifacts).find k = d.artifacts.find k := by
  split
  · exact Keyed.find_upsert_of_ne h
  · rfl

theorem create_back {g : Gateway} {work : NewWork} {stamp : String} {y : Entry}
    (hy : y ∈ (g.create work stamp).durable) :
    y ∈ g.durable ∨ (work.order stamp g.durable.store = some y.order ∧
      g.durable.find y.order.id = none) := by
  unfold Gateway.create at hy
  split at hy
  · exact .inl hy
  · rename_i order horder
    split at hy
    case isFalse => exact .inl hy
    case isTrue hfresh =>
      obtain ⟨o, r⟩ := y
      obtain ⟨ho, hrec⟩ := hy
      have hmem : o ∈ g.durable.store.workOrders.append order hfresh := ho
      rcases Keyed.mem_append.mp hmem with ho | rfl
      · left
        refine ⟨ho, ?_⟩
        have hid : o.id ≠ order.id := Keyed.find_eq_none.mp hfresh o ho
        dsimp only at hrec ⊢
        rw [hrec, find_created _ _ _ hid]
      · exact .inr ⟨horder, hfresh⟩

theorem create_kept (g : Gateway) (work : NewWork) (stamp : String) {y : Entry}
    (hy : y ∈ g.durable) : y ∈ (g.create work stamp).durable := by
  unfold Gateway.create
  split
  · exact hy
  · rename_i order horder
    split
    case isFalse => exact hy
    case isTrue hfresh =>
      have hne : y.order.id ≠ order.id := Keyed.find_eq_none.mp hfresh y.order hy.1
      have hmem : y.order ∈ g.durable.store.workOrders.append order hfresh :=
        Keyed.mem_append.mpr (.inl hy.1)
      refine ⟨hmem, ?_⟩
      dsimp only
      rw [find_created _ _ _ hne]
      exact hy.2

theorem create_worker (g : Gateway) (work : NewWork) (stamp : String) :
    (g.create work stamp).worker = g.worker := by
  unfold Gateway.create
  split
  · rfl
  · split <;> rfl

theorem create_evolves (work : NewWork) (stamp : String)
    (hevent : input.event = .create work stamp) (hT : g.Tracks) :
    Evolves config input turns allowed g (g.create work stamp).durable ∧
      (g.create work stamp).Tracks := by
  have hkeep : ∀ y ∈ g.durable, y ∈ (g.create work stamp).durable := fun y hy =>
    create_kept g work stamp hy
  refine ⟨⟨?_, fun x hx => ⟨x, hkeep x hx, rfl⟩⟩, ?_⟩
  · intro y hy
    rcases create_back hy with hy | ⟨horder, hfresh⟩
    · exact .inl hy
    · exact .inr (.inl ⟨work, stamp, hevent, horder, hfresh⟩)
  · unfold Gateway.Tracks at hT ⊢
    rw [create_worker]
    cases hw : g.worker with
    | claimed c =>
      simp only [hw] at hT ⊢
      obtain ⟨y, hy, hrest⟩ := hT
      exact ⟨y, hkeep y hy, hrest⟩
    | running e on =>
      simp only [hw] at hT ⊢
      obtain ⟨y, hy, hrest⟩ := hT
      exact ⟨y, hkeep y hy, hrest⟩
    | stopped => trivial
    | starting => trivial
    | idle => trivial
    | closing identifier stops => trivial

theorem step_evolves (hallowed : g.RestoresOnly allowed input) (hT : g.Tracks) :
    Evolves config input (g.step config input).history.turns allowed g
        (g.step config input).durable ∧
      (g.step config input).Tracks := by
  unfold Gateway.step
  cases hevent : input.event with
  | create work stamp => exact create_evolves work stamp hevent hT
  | start =>
    dsimp only
    unfold Gateway.start
    split
    · exact ⟨.refl, trivial⟩
    · exact ⟨.refl, hT⟩
  | recover => exact recover_evolves hevent hallowed hT
  | claim => exact claim_evolves _ hT
  | begin => exact begin_evolves hT
  | reply text => exact reply_evolves text hT
  | acquisitionFailed detail => exact acquisitionFailed_evolves detail hT
  | raise failure => exact raise_evolves failure hT
  | close =>
    dsimp only
    unfold Gateway.close
    split
    case h_1 identifier stops _ =>
      refine ⟨.refl, ?_⟩
      cases stops <;> trivial
    case h_2 => exact ⟨.refl, hT⟩
  | cancel identifier => exact cancel_evolves identifier hT
  | stop => exact stop_evolves hT
  | crash => exact ⟨.refl, trivial⟩
  | resumeQuota identifier => exact resumeQuota_evolves identifier hT
  | approve identifier gate approved note =>
    exact approve_evolves identifier gate approved note hevent hT
  | retry identifier artifactId artifactVersion reason =>
    exact retry_evolves identifier artifactId artifactVersion reason hT

theorem tracks_step (config : RunnerConfig) (input : Input) (hT : g.Tracks) :
    (g.step config input).Tracks := by
  have hall : g.RestoresOnly (fun _ => True) input := fun _ _ _ _ _ => trivial
  exact (step_evolves hall hT).2

theorem Evolves.forall_mem {P P' : Entry → Prop} {d' : Durable}
    (h : Evolves config input turns allowed g d') (hP : ∀ x ∈ g.durable, P x)
    (hkeep : ∀ x ∈ g.durable, P x → P' x) (hnew : ∀ x, Created g input x → P' x)
    (hmove : ∀ x ∈ g.durable, ∀ x', P x → Moved config input turns allowed x x' → P' x') :
    ∀ x' ∈ d', P' x' := by
  intro x' hx'
  rcases h.back x' hx' with hx | hc | ⟨x, hx, _, hm⟩
  · exact hkeep x' hx (hP x' hx)
  · exact hnew x' hc
  · exact hmove x hx x' (hP x hx) hm

theorem proceed_history (identifier : String) (seg : Segment) :
    (g.proceed config outside identifier seg).history = g.history := by
  cases seg <;> rfl

theorem begin_history : (g.begin config outside).history = g.history := by
  unfold Gateway.begin
  split
  · exact proceed_history _ _
  · rfl

theorem cancelWorker_history : (g.cancelWorker config outside).history = g.history := by
  unfold Gateway.cancelWorker
  split <;> rfl

theorem claim_history (now : ℤ) : (g.claim now).history = g.history := by
  unfold Gateway.claim
  split
  · split
    · rfl
    · dsimp only
      split <;> rfl
  · rfl

theorem cancel_history (identifier : Option String) :
    (g.cancel config outside identifier).history = g.history := by
  unfold Gateway.cancel
  split
  · split
    · exact cancelWorker_history
    · rfl
  · rfl

theorem retry_history (identifier artifactId artifactVersion reason : String) :
    (g.retry outside identifier artifactId artifactVersion reason).history = g.history := by
  unfold Gateway.retry
  split
  · rfl
  · split
    · rfl
    · split
      · rfl
      · split <;> rfl

theorem approve_history (identifier : String) (gate : ApprovalGate) (approved : Bool)
    (note : String) : (g.approve identifier gate approved note).history = g.history := by
  unfold Gateway.approve
  split
  · rfl
  · split
    · rfl
    · split <;> rfl

theorem step_history (hevent : ∀ text, input.event ≠ .reply text) :
    (g.step config input).history = g.history := by
  unfold Gateway.step
  cases hinput : input.event with
  | create =>
    dsimp only
    unfold Gateway.create
    split
    · rfl
    · split <;> rfl
  | start =>
    dsimp only
    unfold Gateway.start
    split <;> rfl
  | recover =>
    dsimp only
    unfold Gateway.recover
    split <;> rfl
  | claim => exact claim_history _
  | begin => exact begin_history
  | reply text => exact absurd hinput (hevent text)
  | acquisitionFailed =>
    dsimp only
    unfold Gateway.acquisitionFailed
    split <;> rfl
  | raise =>
    dsimp only
    unfold Gateway.raise
    split <;> rfl
  | close =>
    dsimp only
    unfold Gateway.close
    split <;> rfl
  | cancel identifier => exact cancel_history identifier
  | stop =>
    dsimp only
    unfold Gateway.stop
    split
    · rfl
    · rfl
    · rfl
    · exact cancelWorker_history
  | crash => rfl
  | resumeQuota =>
    dsimp only
    unfold Gateway.resumeQuota
    split <;> rfl
  | approve identifier gate approved note => exact approve_history identifier gate approved note
  | retry identifier artifactId artifactVersion reason =>
    exact retry_history identifier artifactId artifactVersion reason

theorem turns_step (config : RunnerConfig) (g : Gateway) (input : Input) :
    g.history.turns ⊆ (g.step config input).history.turns := by
  by_cases hreply : ∃ text, input.event = .reply text
  · obtain ⟨text, hevent⟩ := hreply
    simp only [Gateway.step, hevent, Gateway.reply]
    split
    case h_1 e on hw =>
      cases on with
      | dataset => exact fun _ h => h
      | turn turn => exact List.subset_append_left _ _
    case h_2 => exact fun _ h => h
  · rw [step_history fun text h => hreply ⟨text, h⟩]
    exact fun _ h => h

end ChainQuantStudio.Studio
