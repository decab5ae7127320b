import ChainQuantStudio.Studio.GatewaySteps

/-!
# The worker loop

An execution ends with a write of its order, and the loop goes on to the next one. Two things are
observed beside the gateway: whether the loop was told to end, and the orders a crash cut off. They
tell the loops that ended by themselves from those that were closed, and the orders an execution
left behind from those that no execution could finish.
-/

namespace ChainQuantStudio.Studio

/-- The order whose `_execute` has not written its result yet. -/
def Worker.executing : Worker → Option String
  | .claimed order => some order.id
  | .running e _ => some e.order.id
  | _ => none

/-- Besides the order being executed, only these may be `working`. -/
def Gateway.LeavesWorkingOnly (cutOff : List String) (g : Gateway) : Prop :=
  ∀ x ∈ g.durable, x.order.status = .working →
    g.worker.executing = some x.order.id ∨ x.order.id ∈ cutOff

/-- A step of the gateway, and whether the order store refuses what the step writes. When the step
is the end of an execution, the heartbeat of that execution is what writes. -/
structure Attempt extends Input where
  refused : Bool := false

def Input.accepted (input : Input) : Attempt := { input with }

def Event.stops : Event → Bool
  | .stop => true
  | _ => false

namespace Gateway

variable (config : RunnerConfig) (g : Gateway)

def writesFirst (outside : Outside) (order : WorkOrder) : Bool :=
  match (Execution.ofClaimed order).begin outside g.durable with
  | .awaiting _ e _ => order.stage = some .dataset ∧ e.stage = .backtest
  | _ => true

/-- What the worker comes to in a step whose write is refused; `none` if the worker writes
nothing. The handlers of `_execute` write as well, so the exception leaves it. -/
def broken (input : Input) : Option Worker :=
  match g.worker, input.event with
  | .starting, .recover => some .stopped
  | .idle, .claim =>
    if g.durable.store.codexCircuit.any (input.outside.now < ·.openUntil) then none
    else some .stopped
  | .claimed order, .begin =>
    if g.writesFirst input.outside order then some (.closing order.id true) else none
  | .running _ (.turn .maintenance), .reply _ => none
  | .running e .dataset, .acquisitionFailed _ => some (.closing e.order.id true)
  | .running e _, .reply _ | .running e _, .raise _ | .running e _, .stop =>
    some (.closing e.order.id true)
  | .running e _, .cancel identifier =>
    if (g.cancelCandidates identifier).map (·.id) = [e.order.id] then
      some (.closing e.order.id true)
    else none
  | .closing _ false, .close => some .stopped
  | _, _ => none

def breaking (input : Input) (worker : Worker) : Gateway :=
  { g with
    worker := worker
    cancelRequested :=
      match input.event with
      | .cancel _ | .stop => g.cancelRequested.filter fun id => some id != g.worker.activeId
      | _ => g.cancelRequested
    history :=
      match g.worker, input.event with
      | .running e on, .reply text => g.noteReply input.outside text e on g
      | _, _ => g.history }

def requested : Event → Bool
  | .create _ _ | .resumeQuota _ | .approve _ _ _ _ | .retry _ _ _ _ => true
  | .cancel identifier => (g.cancelCandidates identifier).map (·.id) != g.worker.activeId.toList
  | _ => false

end Gateway

structure Process where
  gateway : Gateway := {}
  closed : Bool := true
  cutOff : List String := []

namespace Process

variable (config : RunnerConfig) (p : Process)

def serve (p : Process) (input : Input) : Process where
  gateway := p.gateway.step config input
  closed :=
    match input.event, p.gateway.worker with
    | .stop, _ | .crash, _ => true
    | .start, .stopped => false
    | .resumeQuota _, worker => if worker.activeId.isSome then p.closed else false
    | _, _ => p.closed
  cutOff :=
    match input.event, p.gateway.worker with
    | .crash, worker => worker.activeId.toList ++ p.cutOff
    | .recover, .starting => []
    | _, _ => p.cutOff

@[simp] theorem serve_gateway (input : Input) :
    (p.serve config input).gateway = p.gateway.step config input := rfl

def step (p : Process) (attempt : Attempt) : Process :=
  if attempt.refused then
    match p.gateway.broken attempt.toInput with
    | some worker =>
      { p with
        gateway := p.gateway.breaking attempt.toInput worker
        closed := p.closed || attempt.event.stops }
    | none =>
      if p.gateway.requested attempt.event then p else p.serve config attempt.toInput
  else p.serve config attempt.toInput

/-- No order is `working` that is not being executed, unless a crash cut it off. -/
def NoneLeftWorking : Prop := p.gateway.LeavesWorkingOnly p.cutOff

end Process

section Find

variable (config : RunnerConfig) (outside : Outside) (identifier : String) (d : Durable)

@[simp] theorem find_modify (f : WorkOrder → WorkOrder) (hf : ∀ order, (f order).id = order.id) :
    (d.modify identifier f hf).find identifier = (d.find identifier).map f :=
  Keyed.find_modify_self _ _ _ hf

@[simp] theorem find_recordArtifact (order : WorkOrder) :
    (d.recordArtifact outside order).1.find identifier = d.find identifier := by
  unfold Durable.recordArtifact
  split <;> rfl

theorem find_finish (status : Status) (stage : Stage) (results : Results) :
    (d.finish outside identifier status stage results).1.find identifier =
      (d.find identifier).map (·.finished status stage results) := by
  unfold Durable.finish
  cases h : d.find identifier with
  | none => exact h
  | some order =>
    have hmod := find_modify identifier d (·.finished status stage results) (by simp)
    rw [h] at hmod
    exact (find_recordArtifact outside identifier _ _).trans hmod

theorem finish_raised {order : WorkOrder} (status : Status) (stage : Stage) (results : Results)
    (h : d.find order.id = some order) :
    (d.finish outside order.id status stage results).2 =
      match artifactRecord outside order with
      | .error failure => some failure
      | .ok _ => none := by
  have hsame : artifactRecord outside (order.finished status stage results) =
      artifactRecord outside order := rfl
  unfold Durable.finish Durable.recordArtifact
  rw [h]
  dsimp only
  rw [hsame]
  cases artifactRecord outside order <;> rfl

theorem find_requeue (r : Requeue) :
    (d.requeue config identifier r).1.find identifier =
      (d.find identifier).map (r.apply config) := by
  unfold Durable.requeue
  cases h : d.find identifier with
  | none => exact h
  | some order =>
    have hmod := find_modify identifier d (r.apply config) (by simp)
    rw [h] at hmod
    dsimp only
    split
    · exact hmod
    · split <;> exact hmod

theorem find_checkpoint (stage : Stage) (results : Results)
    (artifactId artifactVersion : Option String) :
    (d.checkpoint outside identifier stage results artifactId artifactVersion).1.find identifier =
      (d.find identifier).map (·.checkpointed stage results artifactId artifactVersion) := by
  unfold Durable.checkpoint
  cases h : d.find identifier with
  | none => exact h
  | some order =>
    have hmod := find_modify identifier d
      (·.checkpointed stage results artifactId artifactVersion) (by simp)
    rw [h] at hmod
    dsimp only
    split
    · exact (find_recordArtifact outside identifier _ _).trans hmod
    · exact hmod

end Find

/-- The order is not `working`. -/
def Durable.Settled (identifier : String) (d : Durable) : Prop :=
  ∀ order, d.find identifier = some order → order.status ≠ .working

section Settled

variable {config : RunnerConfig} {outside : Outside} {identifier : String} {d : Durable}

theorem finish_settled {status : Status} {stage : Stage} {results : Results}
    (h : status ≠ .working) :
    (d.finish outside identifier status stage results).1.Settled identifier := by
  intro order horder
  rw [find_finish] at horder
  obtain ⟨before, _, rfl⟩ := Option.map_eq_some_iff.mp horder
  exact h

theorem requeue_settled (config : RunnerConfig) (r : Requeue) :
    (d.requeue config identifier r).1.Settled identifier := by
  intro order horder
  rw [find_requeue] at horder
  obtain ⟨before, _, rfl⟩ := Option.map_eq_some_iff.mp horder
  have hstatus := Requeue.apply_status config r before
  intro hworking
  rw [hworking] at hstatus
  simp at hstatus

theorem handle_settled (config : RunnerConfig) (d : Durable) (e : Execution) {failure : Failure}
    (hyears : ¬ failure.OutOfYears outside) :
    (e.handle config outside failure d).1.Settled e.order.id := by
  have hhandled := handle_handled config d e hyears
  generalize e.handle config outside failure d = written at hhandled ⊢
  cases hhandled with
  | late => exact requeue_settled config _
  | quota => exact requeue_settled config _
  | failed => exact finish_settled (by decide)

theorem cancelled_settled (config : RunnerConfig) (outside : Outside) (d : Durable)
    (e : Execution) (byUser : Bool) :
    (e.cancelled config outside byUser d).1.Settled e.order.id := by
  unfold Execution.cancelled
  split
  · exact finish_settled (by decide)
  · exact requeue_settled config _

def Segment.Settled (identifier : String) : Segment → Prop
  | .returned d => d.Settled identifier
  | _ => True

theorem ofWrite_settled {e : Execution} {w : Durable × Option Failure}
    (h : w.1.Settled identifier) : (Segment.ofWrite e w).Settled identifier := by
  obtain ⟨d, raised⟩ := w
  cases raised with
  | none => exact h
  | some failure => trivial

theorem runOptimization_settled (e : Execution) :
    (Execution.runOptimization d e).Settled identifier := by
  unfold Execution.runOptimization
  split <;> trivial

theorem dispatch_settled (e : Execution) : (Execution.dispatch d e).Settled identifier := by
  unfold Execution.dispatch
  split
  case h_2 => split <;> trivial
  case h_3 => split <;> trivial
  case h_4 => split <;> trivial
  case h_5 => exact runOptimization_settled e
  all_goals trivial

theorem datasetReady_settled (e : Execution) :
    (e.datasetReady outside d).Settled identifier := by
  unfold Execution.datasetReady
  split
  · trivial
  · exact dispatch_settled _

theorem begin_settled (e : Execution) : (e.begin outside d).Settled identifier := by
  unfold Execution.begin
  split
  · trivial
  · split
    · trivial
    · split
      · exact datasetReady_settled _
      · exact dispatch_settled _

theorem completeReview_settled (e : Execution) (stage : ReviewStage) (report : String) :
    (Execution.completeReview config outside stage report d e).Settled e.order.id := by
  unfold Execution.completeReview
  split
  case h_1 => exact ofWrite_settled (finish_settled (by decide))
  case h_2 =>
    split
    · trivial
    · split
      · split
        · trivial
        · exact runOptimization_settled _
      · exact ofWrite_settled (finish_settled (by decide))
  case h_3 => exact ofWrite_settled (requeue_settled config _)
  case h_4 => exact ofWrite_settled (requeue_settled config _)

theorem resume_settled (config : RunnerConfig) (outside : Outside) (d : Durable) (e : Execution)
    {on : Await} (text : String)
    (h : on ≠ .turn .maintenance) :
    (e.resume config outside on text d).Settled e.order.id := by
  unfold Execution.resume
  split
  case h_1 => exact datasetReady_settled _
  case h_2 => dsimp only; split <;> trivial
  case h_3 => exact completeReview_settled _ _ _
  case h_4 => dsimp only; split <;> trivial
  case h_5 =>
    dsimp only
    split
    · exact ofWrite_settled (finish_settled (by decide))
    · exact ofWrite_settled (requeue_settled config _)
  case h_6 => exact absurd rfl h

end Settled

section LeftWorking

variable {config : RunnerConfig} {outside : Outside} {turns : List AgentTurn} {g : Gateway}
  {x : Entry}

theorem Durable.Settled.not_working {identifier : String} {d : Durable}
    (h : d.Settled identifier) {y : Entry} (hy : y ∈ d) (hid : y.order.id = identifier) :
    y.order.status ≠ .working := by
  apply h y.order
  rw [← hid]
  exact Durable.find_mem hy

theorem not_working_of_rewritten {d d' : Durable} {x x' : Entry}
    (honly : ∀ y ∈ d, y.order.status = .working → y.order.id = x.order.id)
    (hr : Rewritten d d' x') (hid : x'.order.id = x.order.id) (hset : d'.Settled x.order.id) :
    ∀ y ∈ d', y.order.status ≠ .working := by
  intro y hy
  rcases (hr y).mp hy with rfl | ⟨hy', hne⟩
  · exact hset.not_working hy hid
  · intro hworking
    exact hne ((honly y hy' hworking).trans hid.symm)

theorem proceed_working {seg : Segment}
    (honly : ∀ y ∈ g.durable, y.order.status = .working → y.order.id = x.order.id)
    (hseg : seg.Spec turns g.durable x) (hset : seg.Settled x.order.id) :
    ∀ y ∈ (g.proceed config outside x.order.id seg).durable, y.order.status = .working →
      (g.proceed config outside x.order.id seg).worker.executing = some y.order.id := by
  intro y hy hworking
  cases seg with
  | awaiting d e on =>
    obtain ⟨x', hr, hstep, hf, _⟩ := hseg
    rcases (hr y).mp hy with rfl | ⟨hy', hne⟩
    · exact congrArg some hf.id
    · have hid : x'.order.id = x.order.id := by
        rcases hstep with rfl | hw
        · rfl
        · exact hw.frame.id
      exact absurd ((honly y hy' hworking).trans hid.symm) hne
  | returned d =>
    obtain ⟨x', hr, hstep⟩ := hseg
    have hid : x'.order.id = x.order.id := by
      rcases hstep with rfl | hw
      · rfl
      · exact hw.frame.id
    exact absurd hworking (not_working_of_rewritten honly hr hid hset y hy)
  | raised d e failure =>
    obtain ⟨x₁, hr, hi, hunnamed⟩ := hseg
    have hyears := hunnamed.not_outOfYears outside
    obtain ⟨x', hr', hw⟩ := handle_spec config turns hr hi hyears
    have hset' := handle_settled config d e hyears
    rw [hi.id] at hset'
    exact absurd hworking (not_working_of_rewritten honly hr' hw.frame.id hset' y hy)

theorem closing_working {w : Durable × Option Failure}
    (honly : ∀ y ∈ g.durable, y.order.status = .working → y.order.id = x.order.id)
    (h : ∃ x', Rewritten g.durable w.1 x' ∧ Worked turns x x')
    (hset : w.1.Settled x.order.id) :
    ∀ y ∈ (g.closing x.order.id w).durable, y.order.status ≠ .working := by
  obtain ⟨x', hr, hw⟩ := h
  exact not_working_of_rewritten honly hr hw.frame.id hset

end LeftWorking

theorem cancel_worker {config : RunnerConfig} {outside : Outside} {g : Gateway}
    {identifier : Option String} (h : g.worker.activeId = none) :
    (g.cancel config outside identifier).worker = g.worker := by
  rcases cancel_cases config outside g identifier with heq | ⟨x, _, _, ⟨hactive, _⟩ | ⟨_, hw, _⟩⟩
  · rw [heq]
  · rw [h] at hactive
    cases hactive
  · exact hw

/-- The loop of `_run` is reached: the startup recoveries are done. -/
def Worker.started : Worker → Bool
  | .stopped | .starting => false
  | _ => true

theorem started_step {config : RunnerConfig} {g : Gateway} {input : Input}
    (h : (g.step config input).worker.started = true) :
    g.worker.started = true ∨ (input.event = .recover ∧ g.worker = .starting) := by
  obtain ⟨event, outside⟩ := input
  cases hw : g.worker with
  | stopped =>
    cases event <;> simp [Gateway.step, Gateway.start, Gateway.recover, Gateway.claim,
      Gateway.begin, Gateway.reply, Gateway.acquisitionFailed, Gateway.raise, Gateway.close,
      Gateway.stop, Gateway.cancelWorker, Gateway.crash, Gateway.resumeQuota, Worker.activeId,
      Worker.started, create_worker, approve_worker, retry_worker, cancel_worker, hw] at h
  | starting =>
    cases event with
    | recover => exact .inr ⟨rfl, rfl⟩
    | _ =>
      simp [Gateway.step, Gateway.start, Gateway.claim, Gateway.begin, Gateway.reply,
        Gateway.acquisitionFailed, Gateway.raise, Gateway.close, Gateway.stop, Gateway.crash,
        Gateway.resumeQuota, Worker.activeId, Worker.started, create_worker, approve_worker,
        retry_worker, cancel_worker, hw] at h
  | _ => exact .inl rfl

theorem decided_not_working {order next : WorkOrder} {gate : ApprovalGate} {approved : Bool}
    {note : String} (h : order.approval gate approved note = .ok next) :
    next.status ≠ .working := by
  rcases order.approval_status h with hs | hs | hs | hs | hs <;> simp [hs]

namespace Process

variable {config : RunnerConfig} {p : Process} {input : Input}

def Writes (p : Process) (input : Input) : Prop :=
  match p.gateway.worker, input.event with
  | .running _ (.turn .maintenance), .reply _ => False
  | .running _ _, .raise failure => ¬ failure.OutOfYears input.outside
  | .claimed _, .stop => False
  | .claimed order, .cancel identifier =>
    ∀ selected, p.gateway.cancelCandidates identifier = [selected] → selected.id ≠ order.id
  | _, _ => True

structure Orderly (p : Process) : Prop where
  tracks : p.gateway.Tracks
  settled : p.NoneLeftWorking
  cutOff : p.gateway.worker.started = true → p.cutOff = []

theorem cutOff_serve (h : p.Orderly) (hs : (p.serve config input).gateway.worker.started = true) :
    (p.serve config input).cutOff = [] := by
  rcases started_step hs with hw | ⟨hevent, hw⟩
  · have hcut := h.cutOff hw
    unfold Process.serve
    dsimp only
    split
    case h_1 hevent => simp [Gateway.step, hevent, Gateway.crash, Worker.started] at hs
    case h_2 => rfl
    case h_3 => exact hcut
  · simp [Process.serve, hevent, hw]

theorem started_of_executing {worker : Worker} {identifier : String}
    (h : worker.executing = some identifier) : worker.started = true := by
  cases worker <;> first | rfl | cases h

theorem Orderly.executed {identifier : String} (h : p.Orderly)
    (hx : p.gateway.worker.executing = some identifier) :
    ∃ x ∈ p.gateway.durable, x.order.id = identifier ∧ x.order.status = .working := by
  have ht := h.tracks
  unfold Gateway.Tracks at ht
  cases hw : p.gateway.worker with
  | claimed order =>
    rw [hw] at ht hx
    obtain ⟨x, hx', rfl, hworking, _⟩ := ht
    exact ⟨x, hx', Option.some.inj hx, hworking⟩
  | running e on =>
    rw [hw] at ht hx
    obtain ⟨x, hx', hf, _⟩ := ht
    exact ⟨x, hx', hf.id.symm.trans (Option.some.inj hx), hf.working⟩
  | _ =>
    rw [hw] at hx
    cases hx

theorem Orderly.only {x : Entry} (h : p.Orderly) (hs : p.gateway.worker.started = true)
    (hx : p.gateway.worker.executing = some x.order.id) :
    ∀ y ∈ p.gateway.durable, y.order.status = .working → y.order.id = x.order.id := by
  intro y hy hworking
  rcases h.settled y hy hworking with hexec | hcut
  · exact Option.some.inj (hexec.symm.trans hx)
  · rw [h.cutOff hs] at hcut
    cases hcut

/-- The entry the running execution follows. -/
theorem Orderly.followed {e : Execution} {on : Await} (h : p.Orderly)
    (hw : p.gateway.worker = .running e on) :
    ∃ x ∈ p.gateway.durable, Follows e x.order ∧ on.Fits e ∧
      ∀ y ∈ p.gateway.durable, y.order.status = .working → y.order.id = x.order.id := by
  have ht := h.tracks
  simp only [Gateway.Tracks, hw] at ht
  obtain ⟨x, hx, hf, hfits⟩ := ht
  refine ⟨x, hx, hf, hfits, h.only (by rw [hw]; rfl) ?_⟩
  rw [hw]
  exact congrArg some hf.id

theorem leavesWorkingOnly_mono {g g' : Gateway} {cutOff cutOff' : List String}
    (h : g.LeavesWorkingOnly cutOff)
    (hback : ∀ y' ∈ g'.durable, y'.order.status = .working →
      ∃ y ∈ g.durable, y.order.id = y'.order.id ∧ y.order.status = .working)
    (hexec : ∀ identifier, g.worker.executing = some identifier →
      g'.worker.executing = some identifier ∨ identifier ∈ cutOff')
    (hcut : ∀ identifier ∈ cutOff, identifier ∈ cutOff') : g'.LeavesWorkingOnly cutOff' := by
  intro y' hy' hworking'
  obtain ⟨y, hy, hid, hworking⟩ := hback y' hy' hworking'
  rw [← hid]
  rcases h y hy hworking with he | hc
  · exact hexec _ he
  · exact .inr (hcut _ hc)

theorem leavesWorkingOnly_of_frame {g g' : Gateway} {cutOff : List String}
    (h : g.LeavesWorkingOnly cutOff) (hdurable : g'.durable = g.durable)
    (hexec : ∀ identifier, g.worker.executing = some identifier →
      g'.worker.executing = some identifier) : g'.LeavesWorkingOnly cutOff := by
  refine leavesWorkingOnly_mono h (fun y hy hworking => ⟨y, ?_, rfl, hworking⟩)
    (fun identifier he => .inl (hexec identifier he)) fun _ hc => hc
  rwa [hdurable] at hy

theorem working_back_of_rewritten {d d' : Durable} {x' : Entry} (hr : Rewritten d d' x')
    (hx' : x'.order.status ≠ .working) :
    ∀ y ∈ d', y.order.status = .working →
      ∃ y₀ ∈ d, y₀.order.id = y.order.id ∧ y₀.order.status = .working := by
  intro y hy hworking
  rcases (hr y).mp hy with rfl | ⟨hy, -⟩
  · exact absurd hworking hx'
  · exact ⟨y, hy, rfl, hworking⟩

section Steps

variable {outside : Outside}

theorem begin_leaves (h : p.Orderly) :
    (p.gateway.begin config outside).LeavesWorkingOnly p.cutOff := by
  unfold Gateway.begin
  split
  case h_1 order hw =>
    have ht := h.tracks
    simp only [Gateway.Tracks, hw] at ht
    obtain ⟨x, hx, rfl, hworking, hstage⟩ := ht
    have honly := h.only (by rw [hw]; rfl) (show _ = some x.order.id by rw [hw]; rfl)
    have hseg : ((Execution.ofClaimed x.order).begin outside p.gateway.durable).Spec []
      p.gateway.durable x := begin_spec hx hworking hstage
    intro y hy hyw
    exact .inl (proceed_working honly hseg (begin_settled _) y hy hyw)
  case h_2 => exact h.settled

theorem reply_leaves (h : p.Orderly) (text : String)
    (hmaintenance : ∀ e, p.gateway.worker ≠ .running e (.turn .maintenance)) :
    (p.gateway.reply config outside text).LeavesWorkingOnly p.cutOff := by
  unfold Gateway.reply
  split
  case h_1 e on hw =>
    obtain ⟨x, hx, hf, hfits, honly⟩ := h.followed hw
    have hon : on ≠ .turn .maintenance := by
      rintro rfl
      exact hmaintenance e hw
    have hset := resume_settled config outside p.gateway.durable e text hon
    obtain ⟨turns, hseg⟩ := exists_resume_spec config outside text hx hf hfits
    rw [hf.id] at hset ⊢
    intro y hy hyw
    exact .inl (proceed_working honly hseg hset y hy hyw)
  case h_2 => exact h.settled

theorem raise_leaves (h : p.Orderly) {failure : Failure}
    (hyears : ∀ e on, p.gateway.worker = .running e on → ¬ failure.OutOfYears outside) :
    (p.gateway.raise config outside failure).LeavesWorkingOnly p.cutOff := by
  unfold Gateway.raise
  split
  case h_1 e on hw =>
    obtain ⟨x, hx, hf, _, honly⟩ := h.followed hw
    have hset := handle_settled config p.gateway.durable e (hyears e on hw)
    rw [hf.id] at hset ⊢
    intro y hy hyw
    have hworked := handle_spec config [] (.self hx) hf.interrupted (hyears e on hw)
    exact absurd hyw (closing_working honly hworked hset y hy)
  case h_2 => exact h.settled

theorem acquisitionFailed_leaves (h : p.Orderly) (detail : String) :
    (p.gateway.acquisitionFailed config outside detail).LeavesWorkingOnly p.cutOff := by
  unfold Gateway.acquisitionFailed
  split
  case h_1 e hw =>
    obtain ⟨x, hx, hf, hfits, honly⟩ := h.followed hw
    have hset : (e.acquisitionFailed config outside detail p.gateway.durable).1.Settled
        e.order.id := requeue_settled config _
    rw [hf.id] at hset ⊢
    intro y hy hyw
    have hworked := acquisitionFailed_spec config outside [] hx hf hfits detail
    exact absurd hyw (closing_working honly hworked hset y hy)
  case h_2 => exact h.settled

theorem cancelWorker_leaves {cancelRequested : List String} (h : p.Orderly)
    (hclaimed : ∀ order, p.gateway.worker ≠ .claimed order) :
    (({ p.gateway with cancelRequested := cancelRequested } : Gateway).cancelWorker config
      outside).LeavesWorkingOnly p.cutOff := by
  unfold Gateway.cancelWorker
  split
  case h_1 e on hrunning =>
    have hw : p.gateway.worker = .running e on := hrunning
    obtain ⟨x, hx, hf, _, honly⟩ := h.followed hw
    have hset := cancelled_settled config outside p.gateway.durable e
      (e.order.id ∈ cancelRequested)
    obtain ⟨x', hr, hworked⟩ := cancelled_spec config outside [] hx hf
      (e.order.id ∈ cancelRequested)
    intro y hy hyw
    exact absurd hyw
      (not_working_of_rewritten honly hr hworked.frame.id (hf.id ▸ hset) y hy)
  case h_2 order hw => exact absurd hw (hclaimed order)
  case h_3 => exact h.settled

theorem cancel_leaves (h : p.Orderly) (identifier : Option String)
    (hclaimed : ∀ order, p.gateway.worker = .claimed order →
      ∀ selected, p.gateway.cancelCandidates identifier = [selected] → selected.id ≠ order.id) :
    (p.gateway.cancel config outside identifier).LeavesWorkingOnly p.cutOff := by
  rcases cancel_cases config outside p.gateway identifier with
    heq | ⟨x, hx, hsel, ⟨hactive, heq⟩ | ⟨_, hworker, hr⟩⟩
  · rw [heq]
    exact h.settled
  · rw [heq]
    apply cancelWorker_leaves h
    intro order hw
    rw [hw] at hactive
    exact hclaimed order hw x.order hsel (Option.some.inj hactive).symm
  · refine leavesWorkingOnly_mono h.settled
      (working_back_of_rewritten hr (by simp [WorkOrder.cancelledIdle])) ?_ fun _ hc => hc
    intro identifier hexec
    rw [hworker]
    exact .inl hexec

theorem claim_leaves (h : p.Orderly) (now : ℤ) :
    (p.gateway.claim now).LeavesWorkingOnly p.cutOff := by
  unfold Gateway.claim
  split
  case h_1 hw =>
    split
    · exact h.settled
    · dsimp only
      split
      · intro y hy hyw
        rcases h.settled y hy hyw with he | hc
        · rw [hw] at he
          cases he
        · exact .inr hc
      · rename_i order hdue
        have hx : (⟨order, p.gateway.durable.artifacts.find order.id⟩ : Entry) ∈
            p.gateway.durable := ⟨List.mem_of_find?_eq_some hdue, rfl⟩
        have hr := (Rewritten.modify hx (·.claimed) fun _ => rfl)
        intro y hy hyw
        rcases ((hr.congr rfl rfl) y).mp hy with rfl | ⟨hy, -⟩
        · exact .inl rfl
        · rcases h.settled y hy hyw with he | hc
          · rw [hw] at he
            cases he
          · exact .inr hc
  case h_2 => exact h.settled

theorem resumeQuota_leaves (h : p.Orderly) (identifier : Option String) :
    (p.gateway.resumeQuota identifier).LeavesWorkingOnly p.cutOff := by
  unfold Gateway.resumeQuota
  split
  case isTrue => exact h.settled
  case isFalse hactive =>
    refine leavesWorkingOnly_mono h.settled ?_ ?_ fun _ hc => hc
    · intro y hy hyw
      have hmem : y ∈ p.gateway.durable.onStore
          (·.mapOrders (·.quotaResumed identifier) (by simp)) := hy
      obtain ⟨x, hx, rfl⟩ := Durable.mem_mapOrders.mp hmem
      refine ⟨x, hx, (WorkOrder.quotaResumed_id _ _).symm, ?_⟩
      dsimp only at hyw
      unfold WorkOrder.quotaResumed at hyw
      split at hyw <;> exact hyw
    · intro id hexec
      cases hw : p.gateway.worker <;> simp_all [Worker.executing, Worker.activeId]

theorem create_leaves (h : p.Orderly) (work : NewWork) (stamp : String) :
    (p.gateway.create work stamp).LeavesWorkingOnly p.cutOff := by
  refine leavesWorkingOnly_mono h.settled ?_ ?_ fun _ hc => hc
  · intro y hy hyw
    rcases create_back hy with hy | ⟨horder, _⟩
    · exact ⟨y, hy, rfl, hyw⟩
    · rw [(NewWork.order_spec horder).1] at hyw
      cases hyw
  · intro identifier hexec
    left
    rw [create_worker]
    exact hexec

theorem stop_leaves (h : p.Orderly) (hclaimed : ∀ order, p.gateway.worker ≠ .claimed order) :
    (p.gateway.stop config outside).LeavesWorkingOnly p.cutOff := by
  have hkeep : ∀ worker, p.gateway.worker.executing = none →
      ({ p.gateway with worker := worker } : Gateway).LeavesWorkingOnly p.cutOff := by
    intro worker hnone
    exact leavesWorkingOnly_of_frame h.settled rfl (by simp [hnone])
  unfold Gateway.stop
  split
  case h_1 hw => exact hkeep _ (by rw [hw]; rfl)
  case h_2 hw => exact hkeep _ (by rw [hw]; rfl)
  case h_3 hw => exact hkeep _ (by rw [hw]; rfl)
  case h_4 => exact cancelWorker_leaves h hclaimed

theorem approve_leaves (h : p.Orderly) (identifier : String) (gate : ApprovalGate)
    (approved : Bool) (note : String) :
    (p.gateway.approve identifier gate approved note).LeavesWorkingOnly p.cutOff := by
  refine leavesWorkingOnly_mono h.settled ?_ ?_ fun _ hc => hc
  · rcases approve_rewritten p.gateway identifier gate approved note with
      heq | ⟨x, _, _, next, hnext, hr⟩
    · intro y hy hyw
      rw [heq] at hy
      exact ⟨y, hy, rfl, hyw⟩
    · exact working_back_of_rewritten hr (decided_not_working hnext)
  · intro id hexec
    left
    rw [approve_worker]
    exact hexec

theorem retry_leaves (h : p.Orderly) (identifier artifactId artifactVersion reason : String) :
    (p.gateway.retry outside identifier artifactId artifactVersion reason).LeavesWorkingOnly
      p.cutOff := by
  refine leavesWorkingOnly_mono h.settled ?_ ?_ fun _ hc => hc
  · rcases retry_rewritten p.gateway outside identifier artifactId artifactVersion reason with
      heq | ⟨x, _, _, _, hr⟩
    · intro y hy hyw
      rw [heq] at hy
      exact ⟨y, hy, rfl, hyw⟩
    · exact working_back_of_rewritten hr (by simp [WorkOrder.retried])
  · intro id hexec
    left
    rw [retry_worker]
    exact hexec

theorem start_leaves (h : p.Orderly) : p.gateway.start.LeavesWorkingOnly p.cutOff := by
  unfold Gateway.start
  split
  case h_1 hw => exact leavesWorkingOnly_of_frame h.settled rfl (by simp [hw, Worker.executing])
  case h_2 => exact h.settled

theorem close_leaves (h : p.Orderly) : p.gateway.close.LeavesWorkingOnly p.cutOff := by
  unfold Gateway.close
  split
  case h_1 hw => exact leavesWorkingOnly_of_frame h.settled rfl (by simp [hw, Worker.executing])
  case h_2 => exact h.settled

theorem recover_leaves (h : p.Orderly) :
    (p.serve config ⟨.recover, outside⟩).NoneLeftWorking := by
  by_cases hw : p.gateway.worker = .starting
  · intro y hy hyw
    simp only [Process.serve, Gateway.step, Gateway.recover, hw] at hy
    exact absurd hyw (recover_not_working hy)
  · have heq : p.gateway.recover config outside = p.gateway := by
      unfold Gateway.recover
      split
      · contradiction
      · rfl
    have hcut : (p.serve config ⟨.recover, outside⟩).cutOff = p.cutOff := by
      simp only [Process.serve]
      split
      case h_1 hevent => cases hevent
      case h_2 hstarting => exact absurd hstarting hw
      case h_3 => rfl
    unfold NoneLeftWorking
    rw [hcut, serve_gateway, Gateway.step, heq]
    exact h.settled

theorem crash_leaves (h : p.Orderly) : (p.serve config ⟨.crash, outside⟩).NoneLeftWorking := by
  refine leavesWorkingOnly_mono h.settled (fun y hy hyw => ⟨y, hy, rfl, hyw⟩) ?_ ?_
  · intro identifier hexec
    right
    cases hw : p.gateway.worker <;>
      simp_all [Process.serve, Worker.executing, Worker.activeId]
  · intro identifier hc
    simp [Process.serve, hc]

theorem noneLeftWorking_serve (h : p.Orderly) (hg : p.Writes input) :
    (p.serve config input).NoneLeftWorking := by
  obtain ⟨event, outside⟩ := input
  cases event with
  | create work stamp => exact create_leaves h work stamp
  | start => exact start_leaves h
  | recover => exact recover_leaves h
  | claim => exact claim_leaves h _
  | begin => exact begin_leaves h
  | reply text =>
    apply reply_leaves h
    intro e hw
    simp [Writes, hw] at hg
  | acquisitionFailed detail => exact acquisitionFailed_leaves h detail
  | raise failure =>
    apply raise_leaves h
    intro e on hw
    simpa [Writes, hw] using hg
  | close => exact close_leaves h
  | cancel identifier =>
    apply cancel_leaves h
    intro order hw
    simpa [Writes, hw] using hg
  | stop =>
    apply stop_leaves h
    intro order hw
    simp [Writes, hw] at hg
  | crash => exact crash_leaves h
  | resumeQuota identifier => exact resumeQuota_leaves h identifier
  | approve identifier gate approved note => exact approve_leaves h identifier gate approved note
  | retry identifier artifactId artifactVersion reason =>
    exact retry_leaves h identifier artifactId artifactVersion reason

theorem orderly_serve (h : p.Orderly) (hg : p.Writes input) : (p.serve config input).Orderly :=
  ⟨tracks_step config input h.tracks, noneLeftWorking_serve h hg, cutOff_serve h⟩

theorem not_noneLeftWorking_of_mem {x : Entry} (hx : x ∈ p.gateway.durable)
    (hworking : x.order.status = .working) (hexec : p.gateway.worker.executing = none)
    (hcut : p.cutOff = []) : ¬ p.NoneLeftWorking := by
  intro hnone
  rcases hnone x hx hworking with he | hc
  · rw [hexec] at he
    cases he
  · rw [hcut] at hc
    cases hc

theorem leftWorking_of_not_writes (h : p.Orderly) (hg : ¬ p.Writes input) :
    ¬ (p.serve config input).NoneLeftWorking := by
  obtain ⟨event, outside⟩ := input
  unfold Writes at hg
  split at hg
  case h_1 e text hw hevent =>
    obtain ⟨x, hx, hf, _⟩ := h.followed hw
    obtain rfl : event = .reply text := hevent
    have hcut := h.cutOff (by rw [hw]; rfl)
    refine not_noneLeftWorking_of_mem (x := x) ?_ hf.working ?_ ?_
    · simpa [Gateway.step, Gateway.reply, hw, Execution.resume, Gateway.proceed] using hx
    · simp [Gateway.step, Gateway.reply, hw, Execution.resume, Gateway.proceed,
        Worker.executing]
    · exact hcut
  case h_2 e on failure hw hevent =>
    obtain ⟨x, hx, hf, _⟩ := h.followed hw
    obtain rfl : event = .raise failure := hevent
    obtain ⟨hkept, _⟩ := handle_outOfYears config hx hf.id (not_not.mp hg)
    have hcut := h.cutOff (by rw [hw]; rfl)
    refine not_noneLeftWorking_of_mem (x := x) ?_ hf.working ?_ ?_
    · simpa [Gateway.step, Gateway.raise, hw, Gateway.closing] using hkept.mem
    · simp [Gateway.step, Gateway.raise, hw, Gateway.closing, Worker.executing]
    · exact hcut
  case h_3 order hw hevent =>
    obtain ⟨x, hx, _, hworking⟩ := h.executed (by rw [hw]; rfl)
    obtain rfl : event = .stop := hevent
    have hcut := h.cutOff (by rw [hw]; rfl)
    refine not_noneLeftWorking_of_mem (x := x) ?_ hworking ?_ ?_
    · simpa [Gateway.step, Gateway.stop, Gateway.cancelWorker, hw] using hx
    · simp [Gateway.step, Gateway.stop, Gateway.cancelWorker, hw, Worker.executing]
    · exact hcut
  case h_4 order identifier hw hevent =>
    obtain ⟨x, hx, _, hworking⟩ := h.executed (by rw [hw]; rfl)
    obtain rfl : event = .cancel identifier := hevent
    push Not at hg
    obtain ⟨selected, hsel, hid⟩ := hg
    have hcut := h.cutOff (by rw [hw]; rfl)
    refine not_noneLeftWorking_of_mem (x := x) ?_ hworking ?_ ?_
    · simpa [Gateway.step, Gateway.cancel, hsel, hw, Worker.activeId, hid,
        Gateway.cancelWorker] using hx
    · simp [Gateway.step, Gateway.cancel, hsel, hw, Worker.activeId, hid, Gateway.cancelWorker,
        Worker.executing]
    · exact hcut
  case h_5 => exact absurd trivial hg

theorem broken_cases {g : Gateway} {worker : Worker} (h : g.broken input = some worker) :
    (worker = .stopped ∧ g.worker.executing = none) ∨
      ∃ identifier, worker = .closing identifier true ∧ g.worker.executing = some identifier := by
  unfold Gateway.broken at h
  split at h <;> simp_all [Worker.executing]

def Finishes (p : Process) (attempt : Attempt) : Prop :=
  p.Writes attempt.toInput ∧
    (attempt.refused = true → p.gateway.broken attempt.toInput ≠ none →
      p.gateway.worker.executing = none)

variable {attempt : Attempt}

theorem writes_of_not_executing (h : p.gateway.worker.executing = none) : p.Writes input := by
  unfold Writes
  split <;> simp_all [Worker.executing]

theorem writes_of_requested (h : p.gateway.requested input.event = true) : p.Writes input := by
  unfold Writes
  split
  case h_1 hevent => simp [Gateway.requested, hevent] at h
  case h_2 hevent => simp [Gateway.requested, hevent] at h
  case h_3 hevent => simp [Gateway.requested, hevent] at h
  case h_4 order identifier hw hevent =>
    intro selected hsel hid
    simp [Gateway.requested, hevent, hw, hsel, hid, Worker.activeId] at h
  case h_5 => trivial

theorem breaking_orderly (h : p.Orderly) {worker : Worker}
    (hbroken : p.gateway.broken input = some worker) (hidle : p.gateway.worker.executing = none)
    (closed : Bool) :
    ({ p with gateway := p.gateway.breaking input worker, closed := closed } : Process).Orderly := by
  rcases broken_cases hbroken with ⟨rfl, _⟩ | ⟨identifier, _, hexec⟩
  · refine ⟨trivial, fun x hx hworking => ?_, fun hs => ?_⟩
    · rcases h.settled x hx hworking with hexec | hcut
      · rw [hidle] at hexec
        cases hexec
      · exact .inr hcut
    · cases hs
  · rw [hidle] at hexec
    cases hexec

theorem breaking_leftWorking (h : p.Orderly) {worker : Worker}
    (hbroken : p.gateway.broken input = some worker) (hexec : p.gateway.worker.executing ≠ none)
    (closed : Bool) :
    ¬ ({ p with gateway := p.gateway.breaking input worker, closed := closed } :
      Process).NoneLeftWorking := by
  rcases broken_cases hbroken with ⟨_, hidle⟩ | ⟨identifier, rfl, hexecuting⟩
  · exact absurd hidle hexec
  · obtain ⟨x, hx, hid, hworking⟩ := h.executed hexecuting
    exact not_noneLeftWorking_of_mem (x := x) hx hworking rfl
      (h.cutOff (started_of_executing hexecuting))

theorem orderly_step (h : p.Orderly) (hg : p.Finishes attempt) : (p.step config attempt).Orderly := by
  unfold step
  split
  case isTrue hrefused =>
    split
    case h_1 worker hbroken =>
      exact breaking_orderly h hbroken (hg.2 hrefused (by simp [hbroken])) _
    case h_2 hbroken =>
      split
      · exact h
      · exact orderly_serve h hg.1
  case isFalse => exact orderly_serve h hg.1

theorem leftWorking_of_not_finishes (h : p.Orderly) (hg : ¬ p.Finishes attempt) :
    ¬ (p.step config attempt).NoneLeftWorking := by
  unfold Finishes at hg
  unfold step
  split
  case isTrue hrefused =>
    split
    case h_1 worker hbroken =>
      apply breaking_leftWorking h hbroken
      intro hidle
      exact hg ⟨writes_of_not_executing hidle, fun _ _ => hidle⟩
    case h_2 hbroken =>
      have hwrites : ¬ p.Writes attempt.toInput := by simpa [hbroken] using hg
      split
      case isTrue hrequested => exact absurd (writes_of_requested hrequested) hwrites
      case isFalse => exact leftWorking_of_not_writes h hwrites
  case isFalse hrefused =>
    apply leftWorking_of_not_writes h
    simpa [hrefused] using hg

end Steps

theorem orderly_initial : ({} : Process).Orderly :=
  ⟨trivial, fun _ hx => absurd hx.1 (Keyed.not_mem_empty _), nofun⟩

end Process

/-- In every state of a run no order is left `working` exactly when no step of the run ends an
execution that has not written its order. -/
theorem noneLeftWorking_always_iff (config : RunnerConfig) (attempts : List Attempt) :
    (∀ before, before <+: attempts →
        (Run.run (Process.step config) {} before).NoneLeftWorking) ↔
      Run.Guarded (Process.step config) Process.Finishes {} attempts := by
  apply Run.always_iff_guarded (fun _ => True) Process.Orderly
  · exact fun p h => h.settled
  · exact fun p attempt h _ hg => Process.orderly_step h hg
  · exact fun p attempt h _ hg => Process.leftWorking_of_not_finishes h hg
  · exact Process.orderly_initial
  · exact fun _ _ => trivial

def maintenanceDone : List Event :=
  [.create .maintenance "1", .start, .recover, .claim, .begin, .reply "repaired", .close]

theorem not_noneLeftWorking_of_any {p : Process}
    (h : (p.gateway.durable.store.workOrders.entries.any fun order => order.status == .working &&
      p.gateway.worker.executing != some order.id && !p.cutOff.contains order.id) = true) :
    ¬ p.NoneLeftWorking := by
  obtain ⟨order, horder, hbad⟩ := List.any_eq_true.mp h
  simp only [Bool.and_eq_true, beq_iff_eq, bne_iff_ne, Bool.not_eq_true',
    List.contains_eq_mem, decide_eq_false_iff_not] at hbad
  obtain ⟨⟨hworking, hexec⟩, hcut⟩ := hbad
  intro hnone
  have hmem : (⟨order, p.gateway.durable.artifacts.find order.id⟩ : Entry) ∈ p.gateway.durable :=
    ⟨horder, rfl⟩
  rcases hnone _ hmem hworking with he | hc
  · exact hexec he
  · exact hcut hc

/-- The loop claims the next order while this one still counts as being worked on. -/
theorem maintenance_left_working :
    ¬ (Run.run (Process.step defaultRunner) {}
      ((inputsOf {} maintenanceDone).map Input.accepted)).NoneLeftWorking :=
  not_noneLeftWorking_of_any (by decide +kernel)

end ChainQuantStudio.Studio
