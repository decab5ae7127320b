import ChainQuantStudio.Studio.Scheduling
import ChainQuantStudio.Studio.WorkerLoop

/-!
# Cancelled orders

A call of `cancel` that returned leaves a cancelled order, and an order stays cancelled through
every write that is not of this order. A cancellation is final as long as it finds its task in the
body of `_execute` and no second `CancelledError` cuts off the handler of the first.
-/

namespace ChainQuantStudio.Studio

def Durable.Cancelled (identifier : String) (d : Durable) : Prop :=
  ∃ order, d.find identifier = some order ∧ order.status = .cancelled

section Others

variable {identifier other : String} {d : Durable}

theorem Durable.find_modify_of_ne (hne : other ≠ identifier) (f : WorkOrder → WorkOrder)
    (hf : ∀ order, (f order).id = order.id) :
    (d.modify identifier f hf).find other = d.find other :=
  @Keyed.find_modify_of_ne _ _ _ _ _ _ _ f hf hne

theorem find_checkpoint_of_ne (hne : other ≠ identifier) (outside : Outside) (stage : Stage)
    (results : Results) (artifactId artifactVersion : Option String) :
    (d.checkpoint outside identifier stage results artifactId artifactVersion).1.find other =
      d.find other := by
  have hmod := Durable.find_modify_of_ne (d := d) hne
    (·.checkpointed stage results artifactId artifactVersion) (by simp)
  unfold Durable.checkpoint
  split
  · rfl
  · dsimp only
    split
    · exact (find_recordArtifact outside other _ _).trans hmod
    · exact hmod

theorem find_finish_of_ne (hne : other ≠ identifier) (outside : Outside) (status : Status)
    (stage : Stage) (results : Results) :
    (d.finish outside identifier status stage results).1.find other = d.find other := by
  have hmod := Durable.find_modify_of_ne (d := d) hne (·.finished status stage results) (by simp)
  unfold Durable.finish
  split
  · rfl
  · exact (find_recordArtifact outside other _ _).trans hmod

theorem find_requeue_of_ne (hne : other ≠ identifier) (config : RunnerConfig) (r : Requeue) :
    (d.requeue config identifier r).1.find other = d.find other := by
  have hmod := Durable.find_modify_of_ne (d := d) hne (r.apply config) (by simp)
  unfold Durable.requeue
  split
  · rfl
  · dsimp only
    split
    · exact hmod
    · split <;> exact hmod

theorem HandlerWrite.find_run_of_ne (hne : other ≠ identifier) (config : RunnerConfig)
    (outside : Outside) (write : HandlerWrite) :
    (write.run config outside identifier d).1.find other = d.find other := by
  cases write with
  | persistCircuit => rfl
  | finish status stage results => exact find_finish_of_ne hne outside status stage results
  | requeue r retryAfter =>
    simp only [HandlerWrite.run]
    split
    · exact find_requeue_of_ne hne config _
    · rfl

theorem Access.find_run_of_ne {e : Execution} (hne : other ≠ e.order.id) (config : RunnerConfig)
    (outside : Outside) (access : Access) :
    (access.run config outside e d).1.find other = d.find other := by
  have hcheck := fun stage results artifactId artifactVersion =>
    find_checkpoint_of_ne (d := d) hne outside stage results artifactId artifactVersion
  cases access with
  | prepare =>
    have h := hcheck .backtest e.results none none
    simp only [run]
    split <;> (rename_i heq; rw [heq] at h; exact h)
  | implement handoff =>
    have h := hcheck .reviewImplementation e.results e.order.artifactId e.order.artifactVersion
    simp only [run]
    split <;> (rename_i heq; rw [heq] at h; exact h)
  | backtest handoff =>
    have h := hcheck .reviewBacktest e.results none none
    simp only [run]
    split <;> (rename_i heq; rw [heq] at h; exact h)
  | readOptimization =>
    simp only [run]
    split
    · rfl
    · split <;> rfl
  | optimize =>
    have h := hcheck .optimize e.results none none
    simp only [run]
    split <;> (rename_i heq; rw [heq] at h; exact h)
  | finish status stage => exact find_finish_of_ne hne outside status stage e.results
  | requeue r retryAfter => exact find_requeue_of_ne hne config _

end Others

namespace Durable.Cancelled

variable {identifier : String} {d d' : Durable}

theorem of_find (h : d.Cancelled identifier) (hfind : d'.find identifier = d.find identifier) :
    d'.Cancelled identifier := by
  obtain ⟨order, ho, hs⟩ := h
  exact ⟨order, hfind.trans ho, hs⟩

theorem of_mem {x : Entry} (hx : x ∈ d) (hs : x.order.status = .cancelled) :
    d.Cancelled x.order.id := ⟨x.order, Durable.find_mem hx, hs⟩

theorem exists_mem (h : d.Cancelled identifier) :
    ∃ x ∈ d, x.order.id = identifier ∧ x.order.status = .cancelled := by
  obtain ⟨order, ho, hs⟩ := h
  exact ⟨_, Durable.exists_mem ho, (Durable.find_eq_some.mp ho).2, hs⟩

theorem mapOrders (h : d.Cancelled identifier) {f : WorkOrder → WorkOrder}
    (hf : ∀ order, (f order).id = order.id)
    (hkeep : ∀ order, order.status = .cancelled → (f order).status = .cancelled) :
    (d.onStore (·.mapOrders f hf)).Cancelled identifier := by
  obtain ⟨order, ho, hs⟩ := h
  refine ⟨f order, ?_, hkeep order hs⟩
  have hmap : (d.onStore (·.mapOrders f hf)).find identifier = (d.find identifier).map f :=
    Keyed.find_mapEntries _ f hf identifier
  rw [hmap, ho]
  rfl

theorem rewritten (h : d.Cancelled identifier) {x x' : Entry} (hr : Rewritten d d' x')
    (hx : x ∈ d) (hid : x'.order.id = x.order.id) (hlive : x.order.status ≠ .cancelled) :
    d'.Cancelled identifier := by
  obtain ⟨y, hy, rfl, hs⟩ := h.exists_mem
  have hne : y.order.id ≠ x.order.id := by
    intro heq
    rw [Durable.eq_of_mem hy hx heq] at hs
    exact hlive hs
  exact of_mem (hr.mem_of_ne hy (hid ▸ hne)) hs

end Durable.Cancelled

section Steps

variable {config : RunnerConfig} {outside : Outside} {identifier : String} {d : Durable}

theorem recoverInterrupted_cancelled {order : WorkOrder} (h : order.status = .cancelled) :
    order.recoverInterrupted.status = .cancelled := by
  simp [WorkOrder.recoverInterrupted, h]

theorem recoverOptimizerStage_cancelled {order : WorkOrder} (h : order.status = .cancelled) :
    (order.recoverOptimizerStage config).status = .cancelled := by
  have hno : ¬ order.optimizerRegression := by simp [WorkOrder.optimizerRegression, h]
  simp [WorkOrder.recoverOptimizerStage, hno, h]

theorem recoverPassedReview_cancelled {order : WorkOrder} (h : order.status = .cancelled) :
    order.recoverPassedReview.status = .cancelled := by
  have hno : ¬ order.passedReviewDeadLetter := by simp [WorkOrder.passedReviewDeadLetter, h]
  simp [WorkOrder.recoverPassedReview, hno, h]

theorem recoverFailedReview_cancelled {order : WorkOrder} (h : order.status = .cancelled) :
    (order.recoverFailedReview config).status = .cancelled := by
  have hnone : order.failedReview = none := by
    simp [WorkOrder.failedReview, WorkOrder.openedBy, h]
  simp [WorkOrder.recoverFailedReview, hnone, h]

theorem Startup.run_cancelled (config : RunnerConfig) (outside : Outside) {next : Startup}
    (hspared : next.order ≠ some identifier) (h : d.Cancelled identifier) :
    (next.run config outside d).1.Cancelled identifier := by
  cases next with
  | migrate =>
    exact h.mapOrders (by simp) fun order hs => (order.migrateOptimization_status).trans hs
  | interrupted => exact h.mapOrders (by simp) fun _ hs => recoverInterrupted_cancelled hs
  | optimizerStages => exact h.mapOrders (by simp) fun _ hs => recoverOptimizerStage_cancelled hs
  | passedReviews => exact h.mapOrders (by simp) fun _ hs => recoverPassedReview_cancelled hs
  | failedReviews => exact h.mapOrders (by simp) fun _ hs => recoverFailedReview_cancelled hs
  | pickBacktests => exact h
  | checkpointBacktest picked results =>
    have hne : identifier ≠ picked := fun heq => hspared (by rw [heq]; rfl)
    exact h.of_find (find_checkpoint_of_ne hne outside .optimize results none none)
  | queueBacktest picked =>
    have hne : identifier ≠ picked := fun heq => hspared (by rw [heq]; rfl)
    exact h.of_find (Durable.find_modify_of_ne hne _ _)
  | finishBacktest picked results =>
    have hne : identifier ≠ picked := fun heq => hspared (by rw [heq]; rfl)
    exact h.of_find
      (find_finish_of_ne hne outside .awaitingBacktestApproval .backtestApproval results)
  | clearRetries =>
    exact h.mapOrders (by simp) fun order hs => (order.clearTerminalRetry_status).trans hs

theorem Startup.order_ofBacktest {order : WorkOrder} {results : Results} {next : Startup}
    (h : next ∈ ofBacktest order results) : next.order = some order.id := by
  unfold ofBacktest at h
  split at h
  · rcases List.mem_pair.mp h with rfl | rfl <;> rfl
  · rw [List.mem_singleton.mp h]
    rfl

theorem Startup.run_spares (config : RunnerConfig) (outside : Outside) (next : Startup)
    (h : d.Cancelled identifier) {picked : Startup}
    (hpicked : picked ∈ (next.run config outside d).2.2) : picked.order ≠ some identifier := by
  cases next with
  | pickBacktests =>
    obtain ⟨order, hmem, hof⟩ := List.mem_flatMap.mp hpicked
    cases hresults : order.completedBacktest outside with
    | none => simp [hresults] at hof
    | some results =>
      simp only [hresults] at hof
      rw [order_ofBacktest hof]
      intro heq
      have hqueued : order.status = .queued := (completedBacktest_eq_some hresults).1
      obtain ⟨current, hfind, hs⟩ := h
      have hid := Option.some.inj heq
      subst hid
      have hsame : d.find order.id = some order := Keyed.find_mem hmem
      rw [hsame, Option.some.injEq] at hfind
      rw [← hfind, hqueued] at hs
      cases hs
  | _ => simp [run] at hpicked

theorem Schedule.other_cancelled (outside : Outside) (s : Schedule) (event : Event)
    (h : s.durable.Cancelled identifier) :
    (s.other outside event).durable.Cancelled identifier := by
  let g : Gateway := { durable := s.durable }
  cases event with
  | create work stamp =>
    obtain ⟨x, hx, rfl, hs⟩ := h.exists_mem
    exact .of_mem (create_kept g work stamp hx) hs
  | approve order gate approved note =>
    rcases approve_rewritten g order gate approved note with heq | ⟨x, hx, -, next, hnext, hr⟩
    · simp only [other, g] at heq ⊢
      rw [heq]
      exact h
    · refine h.rewritten hr hx (x.order.approval_id hnext) ?_
      rw [(x.order.approval_eq_ok hnext).1]
      cases gate <;> decide
  | retry order artifactId artifactVersion reason =>
    rcases retry_rewritten g outside order artifactId artifactVersion reason with
      heq | ⟨x, hx, -, hretry, hr⟩
    · simp only [other, g] at heq ⊢
      rw [heq]
      exact h
    · refine h.rewritten hr hx rfl ?_
      intro hs
      rw [hs] at hretry
      cases hretry
  | resumeQuota order =>
    have hmap : (s.durable.onStore (·.mapOrders (·.quotaResumed order) (by simp))).Cancelled
        identifier :=
      h.mapOrders (by simp) fun current hs => (current.quotaResumed_status order).trans hs
    exact hmap.of_find rfl
  | _ => exact h

end Steps

def Suspension.Of (identifier : String) : Suspension → Prop
  | .waits e _ | .accesses e _ | .raises e _ => e.order.id = identifier
  | .returns => True

theorem Activity.order_ofSuspension (config : RunnerConfig) (outside : Outside)
    {identifier : String} {next : Suspension} (h : next.Of identifier) :
    (ofSuspension config outside identifier next).order = identifier := by
  cases next with
  | waits e on => exact h
  | accesses e access => exact h
  | returns => rfl
  | raises e failure =>
    unfold ofSuspension
    dsimp only
    split <;> rfl

section Of

variable (config : RunnerConfig) (outside : Outside) (d : Durable) (e : Execution)

theorem runOptimization_of : (Execution.runOptimization d e).suspension.Of e.order.id := by
  unfold Execution.runOptimization
  split <;> rfl

theorem dispatch_of : (Execution.dispatch d e).suspension.Of e.order.id := by
  unfold Execution.dispatch
  split
  case h_2 => split <;> rfl
  case h_3 => split <;> rfl
  case h_4 => split <;> rfl
  case h_5 => exact runOptimization_of d e
  all_goals rfl

theorem starts_of : e.starts.Of e.order.id := by
  unfold Execution.starts
  split
  · rfl
  · split
    · rfl
    · split
      · rfl
      · exact dispatch_of {} e

theorem completes_of (stage : ReviewStage) (report : String) :
    (e.completes config stage report).Of e.order.id := by
  unfold Execution.completes
  split <;> rfl

theorem resumes_of (on : Await) (text : String) :
    (e.resumes config outside on text).Of e.order.id := by
  cases on with
  | dataset => rfl
  | turn turn =>
    cases turn with
    | strategy prior => exact bindArtifactIdentity_id outside.manifests e.order text
    | review stage handoff => exact completes_of config _ stage text
    | backtest handoff => rfl
    | optimize handoff =>
      simp only [Execution.resumes]
      split <;> rfl
    | maintenance => trivial

theorem ofWrite_of (raised : Option Failure) : (Suspension.ofWrite e raised).Of e.order.id := by
  cases raised with
  | none => trivial
  | some failure => rfl

theorem access_of (access : Access) : (access.run config outside e d).2.Of e.order.id := by
  cases access with
  | prepare =>
    simp only [Access.run]
    split
    · rfl
    · exact dispatch_of _ (e.withStage .backtest)
  | implement handoff =>
    simp only [Access.run]
    split <;> rfl
  | backtest handoff =>
    simp only [Access.run]
    split <;> rfl
  | readOptimization =>
    simp only [Access.run]
    split
    · rfl
    · split <;> rfl
  | optimize =>
    simp only [Access.run]
    split
    · rfl
    · exact runOptimization_of _ { e with stage := .optimize }
  | finish status stage => exact ofWrite_of e _
  | requeue r retryAfter => exact ofWrite_of e _

end Of

def Activity.failing : Activity → Bool
  | .closing _ .failed | .ended _ .failed => true
  | _ => false

/-- The task is in a handler of `_execute`. -/
def Activity.handling : Activity → Bool
  | .handles _ _ _ _ => true
  | _ => false

/-- The accesses that the recoveries have still to make write another order. -/
def Loop.Spares (identifier : String) : Loop → Prop
  | .recovering todo => ∀ next ∈ todo, next.order ≠ some identifier
  | _ => True

instance (identifier : String) (loop : Loop) : Decidable (loop.Spares identifier) :=
  match loop with
  | .recovering todo =>
    inferInstanceAs (Decidable (∀ next ∈ todo, next.order ≠ some identifier))
  | .stopped | .polling | .closingCircuit | .claiming | .executing => isTrue trivial

namespace Schedule

/-- Each call of `cancel` that returned normally leaves its order cancelled. -/
def CancellationFinal (s : Schedule) : Prop :=
  ∀ identifier ∈ s.returned, s.durable.Cancelled identifier

def Unawaited (s : Schedule) : Prop := ∀ a ∈ s.task, .joins a.order ∉ s.calls

instance (s : Schedule) : Decidable s.Unawaited :=
  inferInstanceAs (Decidable (∀ a ∈ s.task, .joins a.order ∉ s.calls))

/-- `cancel` finds the task of its order in the body, or it does not return. -/
def JoinsBody (s : Schedule) (identifier : Option String) : Prop :=
  ∀ selected ∈ s.cancelCandidates identifier, ∀ a ∈ s.task, a.order = selected.id →
    a.inBody = true ∨ a.failing = true

instance (s : Schedule) (identifier : Option String) : Decidable (s.JoinsBody identifier) :=
  inferInstanceAs (Decidable (∀ selected ∈ _, ∀ a ∈ s.task, _ → _ ∨ _))

def Idle (s : Schedule) (identifier : String) : Prop :=
  (∀ a ∈ s.task, a.order = identifier → a.written = true) ∧ s.loop.Spares identifier

instance (s : Schedule) (identifier : String) : Decidable (s.Idle identifier) :=
  inferInstanceAs (Decidable (_ ∧ _))

def ReadsCleanly (s : Schedule) : CancelCall → Prop
  | .reads identifier => (s.cancelCandidates identifier).length = 1 → s.JoinsBody identifier
  | _ => True

def WritesCleanly (s : Schedule) : CancelCall → Prop
  | .writes identifier => s.Idle identifier
  | _ => True

instance (s : Schedule) : ∀ call, Decidable (s.ReadsCleanly call)
  | .reads identifier =>
    inferInstanceAs (Decidable ((s.cancelCandidates identifier).length = 1 → _))
  | .joins _ | .woken _ | .writes _ => isTrue trivial

instance (s : Schedule) : ∀ call, Decidable (s.WritesCleanly call)
  | .writes identifier => inferInstanceAs (Decidable (s.Idle identifier))
  | .reads _ | .joins _ | .woken _ => isTrue trivial

/-- A cancellation finds its task in the body of `_execute`, ends what the body waits for, and is
written before the runner closes; the order of one that finds no task stays idle up to its write. -/
def CancelsCleanly (s : Schedule) (input : Point × Outside) : Prop :=
  match input.1 with
  | .reply _ | .acquisitionFailed _ | .raise _ => s.Unawaited
  | .stop => ∀ a ∈ s.task, a.handling = true → .joins a.order ∉ s.calls
  | .readCancel call => ∀ c ∈ s.calls[call]?, s.ReadsCleanly c
  | .writeCancel call => ∀ c ∈ s.calls[call]?, s.WritesCleanly c
  | _ => True

instance (s : Schedule) (input : Point × Outside) : Decidable (s.CancelsCleanly input) := by
  obtain ⟨point, outside⟩ := input
  cases point
  case reply => exact inferInstanceAs (Decidable s.Unawaited)
  case acquisitionFailed => exact inferInstanceAs (Decidable s.Unawaited)
  case raise => exact inferInstanceAs (Decidable s.Unawaited)
  case stop => exact inferInstanceAs (Decidable (∀ a ∈ s.task, _ → _))
  case readCancel call => exact inferInstanceAs (Decidable (∀ c ∈ s.calls[call]?, _))
  case writeCancel call => exact inferInstanceAs (Decidable (∀ c ∈ s.calls[call]?, _))
  all_goals exact isTrue trivial

end Schedule

def Activity.Carries (s : Schedule) : Activity → Prop
  | .waits e _ | .accesses e _ => s.cancelling = true ∧ e.order.id ∈ s.cancelRequested
  | .handles _ write rest ending =>
    s.cancelling = false ∧ rest = [] ∧ ending = .cancelled ∧
      ∃ results, write = .finish .cancelled .cancelled results
  | .closing identifier ending => ending = .failed ∨ s.durable.Cancelled identifier
  | .created _ | .ended _ _ => False

namespace Schedule

/-- The calls of `cancel` for the order that returned, or return next. -/
def Settles (s : Schedule) (identifier : String) : Prop :=
  identifier ∈ s.returned ∨ .woken identifier ∈ s.calls

structure Final (s : Schedule) (identifier : String) : Prop where
  cancelled : s.durable.Cancelled identifier
  idle : s.Idle identifier

structure CancelsSoundly (s : Schedule) : Prop where
  final : ∀ identifier, s.Settles identifier → s.Final identifier
  carried : ∀ identifier, .joins identifier ∈ s.calls →
    ∃ a ∈ s.task, a.order = identifier ∧ a.Carries s
  executing : ∀ a ∈ s.task, s.loop = .executing

theorem CancelsSoundly.cancellationFinal {s : Schedule} (h : s.CancelsSoundly) :
    s.CancellationFinal := fun identifier hret => (h.final identifier (.inl hret)).cancelled

theorem cancelsSoundly_stopped (d : Durable) : ({ durable := d } : Schedule).CancelsSoundly := by
  constructor <;> simp [Settles]

section Moves

variable {s s' : Schedule} {a a' : Activity}

theorem Final.ne_of_unwritten {identifier : String} (h : s.Final identifier) (ha : a ∈ s.task)
    (hwritten : a.written = false) : identifier ≠ a.order := by
  intro heq
  have hw := h.idle.1 a ha heq.symm
  rw [hwritten] at hw
  cases hw

theorem CancelsSoundly.unawaited (h : s.CancelsSoundly) (hno : ∀ a ∈ s.task, ¬ a.Carries s)
    (identifier : String) : .joins identifier ∉ s.calls := by
  intro hjoins
  obtain ⟨a, ha, -, hcarries⟩ := h.carried identifier hjoins
  exact hno a ha hcarries

theorem CancelsSoundly.joins_eq (h : s.CancelsSoundly) (ha : a ∈ s.task) {identifier : String}
    (hjoins : .joins identifier ∈ s.calls) : identifier = a.order := by
  obtain ⟨b, hb, rfl, -⟩ := h.carried identifier hjoins
  rw [Option.mem_unique ha hb]

theorem CancelsSoundly.moved (h : s.CancelsSoundly) (ha : a ∈ s.task)
    (hunwritten : a.written = false) (htask : s'.task = some a') (horder : a'.order = a.order)
    (hcalls : s'.calls = s.calls) (hreturned : s'.returned = s.returned)
    (hloop : s'.loop = s.loop)
    (hfind : ∀ other ≠ a.order, s'.durable.find other = s.durable.find other)
    (hcarries : .joins a.order ∈ s.calls → a'.Carries s') : s'.CancelsSoundly := by
  constructor
  case final =>
    intro identifier hsettles
    unfold Settles at hsettles
    rw [hcalls, hreturned] at hsettles
    have hfinal := h.final identifier hsettles
    have hne := hfinal.ne_of_unwritten ha hunwritten
    refine ⟨hfinal.cancelled.of_find (hfind identifier hne), ?_, hloop ▸ hfinal.idle.2⟩
    intro b hb hid
    rw [htask] at hb
    rw [← Option.some.inj hb, horder] at hid
    exact absurd hid.symm hne
  case carried =>
    intro identifier hjoins
    rw [hcalls] at hjoins
    have hid := h.joins_eq ha hjoins
    refine ⟨a', htask, horder.trans hid.symm, hcarries ?_⟩
    exact hid ▸ hjoins
  case executing =>
    intro b hb
    rw [hloop]
    exact h.executing a ha

theorem CancelsSoundly.looped (h : s.CancelsSoundly) (hnone : s.task = none)
    (htask : s'.task = none) (hcalls : s'.calls = s.calls) (hreturned : s'.returned = s.returned)
    (hfinal : ∀ identifier, s.Final identifier →
      s'.durable.Cancelled identifier ∧ s'.loop.Spares identifier) : s'.CancelsSoundly := by
  constructor
  case final =>
    intro identifier hsettles
    unfold Settles at hsettles
    rw [hcalls, hreturned] at hsettles
    obtain ⟨hcancelled, hspares⟩ := hfinal identifier (h.final identifier hsettles)
    exact ⟨hcancelled, by simp [htask], hspares⟩
  case carried =>
    intro identifier hjoins
    rw [hcalls] at hjoins
    exact absurd hjoins (h.unawaited (by simp [hnone]) identifier)
  case executing => simp [htask]

theorem CancelsSoundly.called (h : s.CancelsSoundly) (htask : s'.task = s.task)
    (hloop : s'.loop = s.loop) (hcancelling : s'.cancelling = s.cancelling)
    (hrequested : ∀ identifier ∈ s.cancelRequested, identifier ∈ s'.cancelRequested)
    (hcancelled : ∀ identifier, s.durable.Cancelled identifier →
      s'.durable.Cancelled identifier)
    (hfinal : ∀ identifier, s'.Settles identifier →
      s.Settles identifier ∨ s'.Final identifier)
    (hjoins : ∀ identifier, .joins identifier ∈ s'.calls → .joins identifier ∈ s.calls) :
    s'.CancelsSoundly := by
  constructor
  case final =>
    intro identifier hsettles
    rcases hfinal identifier hsettles with hbefore | hnow
    · obtain ⟨hdone, hidle⟩ := h.final identifier hbefore
      refine ⟨hcancelled identifier hdone, ?_, hloop ▸ hidle.2⟩
      rw [htask]
      exact hidle.1
    · exact hnow
  case carried =>
    intro identifier hmem
    obtain ⟨a, ha, hid, hcarries⟩ := h.carried identifier (hjoins identifier hmem)
    refine ⟨a, htask ▸ ha, hid, ?_⟩
    cases a with
    | created order => exact hcarries
    | waits e on => exact ⟨hcancelling ▸ hcarries.1, hrequested _ hcarries.2⟩
    | accesses e access => exact ⟨hcancelling ▸ hcarries.1, hrequested _ hcarries.2⟩
    | handles order write rest ending => exact ⟨hcancelling ▸ hcarries.1, hcarries.2⟩
    | closing order ending => exact hcarries.imp id (hcancelled order)
    | ended order ending => exact hcarries
  case executing =>
    rw [htask, hloop]
    exact h.executing

end Moves

section Steps

variable {config : RunnerConfig} {outside : Outside} {s : Schedule}

theorem Final.not_none {identifier : String} (h : s.Final identifier) {order : WorkOrder}
    (hfind : s.durable.find identifier = some order) : order.status = .cancelled := by
  obtain ⟨current, hcurrent, hs⟩ := h.cancelled
  rw [hfind, Option.some.injEq] at hcurrent
  rw [hcurrent]
  exact hs

theorem CancelsSoundly.task_none (h : s.CancelsSoundly) (hloop : s.loop ≠ .executing) :
    s.task = none := by
  cases htask : s.task with
  | none => rfl
  | some a => exact absurd (h.executing a htask) hloop

theorem start_sound (h : s.CancelsSoundly) : s.start.CancelsSoundly := by
  unfold start
  split
  case h_1 hloop =>
    have hnone := h.task_none (by rw [hloop]; simp)
    refine h.looped hnone hnone rfl rfl fun identifier hfinal => ⟨hfinal.cancelled, ?_⟩
    intro next hnext
    simp only [startups, List.mem_cons, List.not_mem_nil, or_false] at hnext
    rcases hnext with rfl | rfl | rfl | rfl | rfl | rfl | rfl <;> simp [Startup.order]
  case h_2 => exact h

theorem startup_sound (h : s.CancelsSoundly) : (s.startup config outside).CancelsSoundly := by
  unfold startup
  split
  case h_1 hloop =>
    have hnone := h.task_none (by rw [hloop]; simp)
    exact h.looped hnone hnone rfl rfl fun _ hfinal => ⟨hfinal.cancelled, trivial⟩
  case h_2 next todo hloop =>
    have hnone := h.task_none (by rw [hloop]; simp)
    have hkept : ∀ identifier, s.Final identifier →
        (next.run config outside s.durable).1.Cancelled identifier ∧
          (Loop.recovering ((next.run config outside s.durable).2.2 ++ todo)).Spares
            identifier := by
      intro identifier hfinal
      have hspares := hfinal.idle.2
      simp only [hloop, Loop.Spares, List.mem_cons, forall_eq_or_imp] at hspares
      refine ⟨next.run_cancelled config outside hspares.1 hfinal.cancelled, ?_⟩
      intro n hn
      rcases List.mem_append.mp hn with hpicked | htodo
      · exact next.run_spares config outside hfinal.cancelled hpicked
      · exact hspares.2 n htodo
    cases hrun : next.run config outside s.durable with
    | mk d rest =>
      obtain ⟨raised, before⟩ := rest
      rw [hrun] at hkept
      cases raised with
      | none => exact h.looped hnone hnone rfl rfl hkept
      | some failure =>
        exact h.looped hnone hnone rfl rfl fun identifier hfinal =>
          ⟨(hkept identifier hfinal).1, trivial⟩
  case h_3 => exact h

theorem poll_sound (h : s.CancelsSoundly) : (s.poll outside).CancelsSoundly := by
  unfold poll
  split
  case h_1 hloop =>
    have hnone := h.task_none (by rw [hloop]; simp)
    split
    · exact h.looped hnone hnone rfl rfl fun _ hfinal => ⟨hfinal.cancelled, trivial⟩
    · split
      · exact h
      · exact h.looped hnone hnone rfl rfl fun _ hfinal => ⟨hfinal.cancelled, trivial⟩
  case h_2 => exact h

theorem closeCircuit_sound (h : s.CancelsSoundly) : s.closeCircuit.CancelsSoundly := by
  unfold closeCircuit
  split
  case h_1 hloop =>
    have hnone := h.task_none (by rw [hloop]; simp)
    exact h.looped hnone hnone rfl rfl fun _ hfinal =>
      ⟨hfinal.cancelled.of_find rfl, trivial⟩
  case h_2 => exact h

theorem claim_sound (h : s.CancelsSoundly) : (s.claim outside).CancelsSoundly := by
  unfold claim
  split
  case h_1 hloop =>
    have hnone := h.task_none (by rw [hloop]; simp)
    split
    · exact h.looped hnone hnone rfl rfl fun _ hfinal => ⟨hfinal.cancelled, trivial⟩
    · rename_i order hdue
      have hqueued : order.status = .queued := by
        have hd := List.find?_some hdue
        simp only [WorkOrder.due, Bool.and_eq_true, beq_iff_eq] at hd
        exact hd.1
      have hfind : s.durable.find order.id = some order :=
        Keyed.find_mem (List.mem_of_find?_eq_some hdue)
      constructor
      case final =>
        intro identifier hsettles
        have hfinal := h.final identifier hsettles
        have hne : identifier ≠ order.id := by
          rintro rfl
          have hs := hfinal.not_none hfind
          rw [hqueued] at hs
          cases hs
        refine ⟨hfinal.cancelled.of_find (Durable.find_modify_of_ne hne _ _), ?_, trivial⟩
        intro b hb hid
        rw [← Option.some.inj hb] at hid
        exact absurd hid.symm hne
      case carried =>
        intro identifier hjoins
        exact absurd hjoins (h.unawaited (by simp [hnone]) identifier)
      case executing => simp
  case h_2 => exact h

theorem CancelsSoundly.proceeds (h : s.CancelsSoundly) {a : Activity} (ha : a ∈ s.task)
    (hunwritten : a.written = false) (hunawaited : .joins a.order ∉ s.calls) {d : Durable}
    {next : Suspension} (hnext : next.Of a.order)
    (hfind : ∀ other ≠ a.order, d.find other = s.durable.find other) :
    (s.proceeds config outside a.order d next).CancelsSoundly := by
  refine h.moved ha hunwritten rfl ?_ rfl rfl rfl hfind fun hjoins => absurd hjoins hunawaited
  exact Activity.order_ofSuspension config outside hnext

theorem firstStep_sound (h : s.CancelsSoundly) : (s.firstStep config outside).CancelsSoundly := by
  unfold firstStep
  split
  case h_1 order htask _ =>
    have ha : Activity.created order ∈ s.task := htask
    have hunawaited := h.unawaited (by simp [htask, Activity.Carries]) order.id
    exact h.proceeds ha rfl hunawaited (starts_of (.ofClaimed order)) fun _ _ => rfl
  case h_2 => exact h

theorem reply_sound (h : s.CancelsSoundly) (hun : s.Unawaited) (text : String) :
    (s.reply config outside text).CancelsSoundly := by
  unfold reply
  split
  case h_1 e on htask =>
    have ha : Activity.waits e on ∈ s.task := htask
    exact h.proceeds ha rfl (hun _ ha) (resumes_of config outside e on text) fun _ _ => rfl
  case h_2 => exact h

theorem acquisitionFailed_sound (h : s.CancelsSoundly) (hun : s.Unawaited) (detail : String) :
    (s.acquisitionFailed config outside detail).CancelsSoundly := by
  unfold acquisitionFailed
  split
  case h_1 e htask =>
    have ha : Activity.waits e .dataset ∈ s.task := htask
    have hof : (e.acquisitionFails detail).Of e.order.id := rfl
    exact h.proceeds ha rfl (hun _ ha) hof fun _ _ => rfl
  case h_2 => exact h

theorem raise_sound (h : s.CancelsSoundly) (hun : s.Unawaited) (failure : Failure) :
    (s.raise config outside failure).CancelsSoundly := by
  unfold raise
  split
  case h_1 e on htask =>
    have ha : Activity.waits e on ∈ s.task := htask
    have hof : (Suspension.raises e failure).Of e.order.id := rfl
    exact h.proceeds ha rfl (hun _ ha) hof fun _ _ => rfl
  case h_2 => exact h

theorem access_sound (h : s.CancelsSoundly) : (s.access config outside).CancelsSoundly := by
  unfold access
  split
  case h_1 e access htask hcancelling =>
    have ha : Activity.accesses e access ∈ s.task := htask
    have hunawaited := h.unawaited (by simp [htask, Activity.Carries, hcancelling]) e.order.id
    exact h.proceeds ha rfl hunawaited (access_of config outside s.durable e access) fun _ hne =>
      Access.find_run_of_ne hne config outside access
  case h_2 => exact h

theorem finish_cancelled {d : Durable} {identifier : String} {stage : Stage} {results : Results}
    (h : (d.finish outside identifier .cancelled stage results).2 = none) :
    (d.finish outside identifier .cancelled stage results).1.Cancelled identifier := by
  cases hfind : d.find identifier with
  | none => simp [Durable.finish, hfind] at h
  | some order =>
    refine ⟨order.finished .cancelled stage results, ?_, rfl⟩
    rw [find_finish, hfind]
    rfl

theorem handlerWrite_sound (h : s.CancelsSoundly) :
    (s.handlerWrite config outside).CancelsSoundly := by
  unfold handlerWrite
  split
  case h_1 identifier write rest ending htask hcancelling =>
    have ha : Activity.handles identifier write rest ending ∈ s.task := htask
    have hfind : ∀ other ≠ identifier,
        (write.run config outside identifier s.durable).1.find other = s.durable.find other :=
      fun other hne => write.find_run_of_ne hne config outside
    have hcarried : .joins identifier ∈ s.calls →
        (Activity.handles identifier write rest ending).Carries s := by
      intro hjoins
      obtain ⟨b, hb, -, hcarries⟩ := h.carried identifier hjoins
      rw [Option.mem_unique ha hb]
      exact hcarries
    split
    case h_1 d failure _ hrun =>
      rw [hrun] at hfind
      exact h.moved ha rfl rfl rfl rfl rfl rfl hfind fun _ => .inl rfl
    case h_2 =>
      rename_i d hrun
      rw [hrun] at hfind
      refine h.moved ha rfl rfl rfl rfl rfl rfl hfind fun hjoins => .inr ?_
      obtain ⟨-, -, -, results, hwrite⟩ := hcarried hjoins
      subst hwrite
      have hfinish : s.durable.finish outside identifier .cancelled .cancelled results =
          (d, none) := hrun
      have hdone : (s.durable.finish outside identifier .cancelled .cancelled results).1.Cancelled
          identifier := finish_cancelled (by rw [hfinish])
      rw [hfinish] at hdone
      exact hdone
    case h_3 =>
      rename_i hrun
      rw [hrun] at hfind
      refine h.moved ha rfl rfl rfl rfl rfl rfl hfind fun hjoins => ?_
      obtain ⟨-, hrest, -⟩ := hcarried hjoins
      cases hrest
  case h_2 => exact h

theorem wake_eq_some {identifier : String} {ending : Ending} {call woken : CancelCall}
    (h : wake identifier ending call = some woken) :
    (call = woken ∧ call ≠ .joins identifier) ∨
      (call = .joins identifier ∧ woken = .woken identifier ∧ ending ≠ .failed) := by
  cases call with
  | joins joined =>
    simp only [wake] at h
    split at h
    case isTrue heq =>
      subst heq
      split at h
      · cases h
      · rename_i hending
        exact .inr ⟨rfl, (Option.some.inj h).symm, hending⟩
    case isFalse hne =>
      refine .inl ⟨Option.some.inj h, ?_⟩
      intro heq
      exact hne (CancelCall.joins.inj heq)
  | reads | woken | writes => exact .inl ⟨Option.some.inj h, by simp⟩

theorem CancelsSoundly.ends (h : s.CancelsSoundly) {a : Activity} (ha : a ∈ s.task)
    {ending : Ending} (hwritten : .joins a.order ∈ s.calls → ending ≠ .failed →
      s.durable.Cancelled a.order) (hcancelling : Bool) :
    { s.ends a.order ending with cancelling := hcancelling }.CancelsSoundly := by
  constructor
  case final =>
    have hidle : ∀ identifier, ({ s.ends a.order ending with cancelling := hcancelling } :
        Schedule).Idle identifier := by
      intro identifier
      refine ⟨?_, ?_⟩
      · rintro b hb -
        rw [← Option.some.inj hb]
        rfl
      · have hloop := h.executing a ha
        simp only [Schedule.ends, hloop, Loop.Spares]
    intro identifier hsettles
    refine ⟨?_, hidle identifier⟩
    rcases hsettles with hreturned | hwoken
    · exact (h.final identifier (.inl hreturned)).cancelled
    · obtain ⟨call, hcall, hwake⟩ := List.mem_filterMap.mp hwoken
      rcases wake_eq_some hwake with ⟨rfl, -⟩ | ⟨rfl, heq, hending⟩
      · exact (h.final identifier (.inr hcall)).cancelled
      · rw [CancelCall.woken.inj heq]
        exact hwritten hcall hending
  case carried =>
    intro identifier hjoins
    obtain ⟨call, hcall, hwake⟩ := List.mem_filterMap.mp hjoins
    rcases wake_eq_some hwake with ⟨rfl, hne⟩ | ⟨-, heq, -⟩
    · rw [h.joins_eq ha hcall] at hne
      exact absurd rfl hne
    · cases heq
  case executing =>
    intro b _
    exact h.executing a ha

theorem deliver_sound (h : s.CancelsSoundly) : s.deliver.CancelsSoundly := by
  have hbody : ∀ e : Execution, ∀ a ∈ s.task, a.order = e.order.id → a.written = false →
      (.joins e.order.id ∈ s.calls → e.order.id ∈ s.cancelRequested) →
      { s with
        task := some (.handles e.order.id (e.handlesCancel (e.order.id ∈ s.cancelRequested)) []
          .cancelled)
        cancelling := false
        cancelRequested := s.cancelRequested.filter (· != e.order.id) }.CancelsSoundly := by
    intro e a ha hid hunwritten hrequested
    refine h.moved ha hunwritten rfl hid.symm rfl rfl rfl (fun _ _ => rfl) fun hjoins => ?_
    rw [hid] at hjoins
    refine ⟨rfl, rfl, rfl, ?_⟩
    simp only [hrequested hjoins, decide_true, Execution.handlesCancel]
    exact ⟨_, rfl⟩
  unfold deliver
  split
  case h_1 order htask hcancelling =>
    have ha : Activity.created order ∈ s.task := htask
    have hunawaited := h.unawaited (by simp [htask, Activity.Carries]) order.id
    exact h.ends ha (fun hjoins => absurd hjoins hunawaited) false
  case h_2 e on htask hcancelling =>
    refine hbody e _ htask rfl rfl fun hjoins => ?_
    obtain ⟨b, hb, -, hcarries⟩ := h.carried _ hjoins
    rw [htask, Option.mem_some_iff] at hb
    subst hb
    exact hcarries.2
  case h_3 e access htask hcancelling =>
    refine hbody e _ htask rfl rfl fun hjoins => ?_
    obtain ⟨b, hb, -, hcarries⟩ := h.carried _ hjoins
    rw [htask, Option.mem_some_iff] at hb
    subst hb
    exact hcarries.2
  case h_4 identifier write rest ending htask hcancelling =>
    have ha : Activity.handles identifier write rest ending ∈ s.task := htask
    have hunawaited := h.unawaited (by simp [htask, Activity.Carries, hcancelling]) identifier
    exact h.moved ha rfl rfl rfl rfl rfl rfl (fun _ _ => rfl) fun hjoins => absurd hjoins hunawaited
  case h_5 => exact h

theorem heartbeatEnds_sound (h : s.CancelsSoundly) : s.heartbeatEnds.CancelsSoundly := by
  unfold heartbeatEnds
  split
  case h_1 identifier ending htask =>
    have ha : Activity.closing identifier ending ∈ s.task := htask
    refine h.ends ha (fun hjoins hending => ?_) s.cancelling
    obtain ⟨b, hb, -, hcarries⟩ := h.carried _ hjoins
    rw [Option.mem_unique hb ha] at hcarries
    exact hcarries.resolve_left hending
  case h_2 => exact h

theorem reap_sound (h : s.CancelsSoundly) : s.reap.CancelsSoundly := by
  unfold reap
  split
  case h_1 identifier ending htask =>
    have hunawaited := h.unawaited (by simp [htask, Activity.Carries])
    constructor
    case final =>
      intro identifier hsettles
      refine ⟨(h.final identifier hsettles).cancelled, by simp, ?_⟩
      dsimp only
      split <;> trivial
    case carried =>
      intro identifier hjoins
      exact absurd hjoins (hunawaited identifier)
    case executing => simp
  case h_2 => exact h

theorem cancelTask_sound (h : s.CancelsSoundly)
    (hclean : ∀ a ∈ s.task, a.handling = true → .joins a.order ∉ s.calls) :
    s.cancelTask.CancelsSoundly := by
  unfold cancelTask
  split
  case h_1 a htask =>
    have ha : a ∈ s.task := htask
    cases hwritten : a.written with
    | true => simpa using h
    | false =>
      simp only [Bool.false_eq_true, if_false]
      refine h.moved ha hwritten htask rfl rfl rfl rfl (fun _ _ => rfl) fun hjoins => ?_
      obtain ⟨b, hb, -, hcarries⟩ := h.carried _ hjoins
      rw [Option.mem_unique hb ha] at hcarries
      cases a with
      | created order => exact hcarries
      | waits e on => exact ⟨rfl, hcarries.2⟩
      | accesses e access => exact ⟨rfl, hcarries.2⟩
      | handles identifier write rest ending =>
        exact absurd hjoins (hclean _ ha rfl)
      | closing identifier ending => exact hcarries
      | ended identifier ending => exact hcarries
  case h_2 => exact h

theorem stop_sound (h : s.CancelsSoundly)
    (hclean : ∀ a ∈ s.task, a.handling = true → .joins a.order ∉ s.calls) :
    s.stop.CancelsSoundly := by
  unfold stop
  split
  case h_1 =>
    exact h.called rfl rfl rfl (fun _ hr => hr) (fun _ hc => hc) (fun _ hs => .inl hs)
      fun _ hj => hj
  case h_2 =>
    have hc := cancelTask_sound h hclean
    exact hc.called rfl rfl rfl (fun _ hr => hr) (fun _ hc => hc) (fun _ hs => .inl hs)
      fun _ hj => hj
  case h_3 hloop =>
    have hnone := h.task_none (by simpa using hloop)
    exact h.looped hnone hnone rfl rfl fun _ hfinal => ⟨hfinal.cancelled, trivial⟩

theorem crash_sound (h : s.CancelsSoundly) : s.crash.CancelsSoundly := by
  constructor
  case final =>
    intro identifier hsettles
    have hreturned : identifier ∈ s.returned := by
      rcases hsettles with hreturned | hwoken
      · exact hreturned
      · cases hwoken
    exact ⟨(h.final identifier (.inl hreturned)).cancelled, by simp [crash], trivial⟩
  case carried =>
    intro identifier hjoins
    cases hjoins
  case executing => simp [crash]

theorem callCancel_sound (h : s.CancelsSoundly) (identifier : Option String) :
    (s.callCancel identifier).CancelsSoundly := by
  refine h.called rfl rfl rfl (fun _ hr => hr) (fun _ hc => hc) ?_ ?_
  · intro order hsettles
    simp only [Settles, callCancel, List.mem_append, List.mem_singleton, reduceCtorEq,
      or_false] at hsettles
    exact .inl hsettles
  · intro order hjoins
    simpa [callCancel] using hjoins

theorem CancelsSoundly.erase (h : s.CancelsSoundly) (call : ℕ) :
    { s with calls := s.calls.eraseIdx call }.CancelsSoundly := by
  refine h.called rfl rfl rfl (fun _ hr => hr) (fun _ hc => hc) ?_ ?_
  · intro order hsettles
    exact .inl (hsettles.imp id List.mem_of_mem_eraseIdx)
  · intro order hjoins
    exact List.mem_of_mem_eraseIdx hjoins

theorem returnCancel_sound (h : s.CancelsSoundly) (call : ℕ) :
    (s.returnCancel call).CancelsSoundly := by
  unfold returnCancel
  split
  case h_1 identifier hcall =>
    refine h.called rfl rfl rfl (fun _ hr => hr) (fun _ hc => hc) ?_
      fun _ => List.mem_of_mem_eraseIdx
    intro order hsettles
    refine .inl ?_
    rcases hsettles with hreturned | hwoken
    · rcases List.mem_cons.mp hreturned with rfl | hreturned
      · exact .inr (List.mem_of_getElem? hcall)
      · exact .inl hreturned
    · exact .inr (List.mem_of_mem_eraseIdx hwoken)
  case h_2 => exact h

theorem writeCancel_sound (h : s.CancelsSoundly) {call : ℕ}
    (hclean : ∀ identifier, s.calls[call]? = some (.writes identifier) → s.Idle identifier) :
    (s.writeCancel call).CancelsSoundly := by
  unfold writeCancel
  split
  case h_1 identifier hcall =>
    split
    · exact h.erase call
    · rename_i order hfind
      have hnow : (s.durable.modify identifier (·.cancelledIdle) fun _ => rfl).Cancelled
          identifier := by
        have hmod := find_modify identifier s.durable (·.cancelledIdle) fun _ => rfl
        rw [hfind] at hmod
        exact ⟨order.cancelledIdle, hmod, rfl⟩
      refine h.called rfl rfl rfl (fun _ hr => hr) ?_ ?_ fun _ => List.mem_of_mem_eraseIdx
      · intro other hc
        by_cases hid : other = identifier
        · rw [hid]
          exact hnow
        · exact hc.of_find (Durable.find_modify_of_ne hid _ _)
      · intro other hsettles
        rcases hsettles with hreturned | hwoken
        · rcases List.mem_cons.mp hreturned with rfl | hreturned
          · exact .inr ⟨hnow, hclean _ hcall⟩
          · exact .inl (.inl hreturned)
        · exact .inl (.inr (List.mem_of_mem_eraseIdx hwoken))
  case h_2 => exact h

theorem CancelsSoundly.set (h : s.CancelsSoundly) (call : ℕ) (identifier : String) :
    { s with calls := s.calls.set call (.writes identifier) }.CancelsSoundly := by
  refine h.called rfl rfl rfl (fun _ hr => hr) (fun _ hc => hc) ?_ ?_
  · intro order hsettles
    refine .inl (hsettles.imp id fun hwoken => ?_)
    rcases List.mem_or_eq_of_mem_set hwoken with hmem | heq
    · exact hmem
    · cases heq
  · intro order hjoins
    rcases List.mem_or_eq_of_mem_set hjoins with hmem | heq
    · exact hmem
    · cases heq

theorem CancelsSoundly.joined {s' : Schedule} (h : s.CancelsSoundly) {a : Activity} {call : ℕ}
    (ha : a ∈ s.task) (htask : s'.task = s.task) (hloop : s'.loop = s.loop)
    (hdurable : s'.durable = s.durable) (hreturned : s'.returned = s.returned)
    (hcalls : s'.calls = s.calls.set call (.joins a.order)) (hcarries : a.Carries s') :
    s'.CancelsSoundly := by
  constructor
  case final =>
    intro identifier hsettles
    have hbefore : s.Settles identifier := by
      unfold Settles at hsettles
      rw [hcalls, hreturned] at hsettles
      refine hsettles.imp id fun hwoken => ?_
      rcases List.mem_or_eq_of_mem_set hwoken with hmem | heq
      · exact hmem
      · cases heq
    obtain ⟨hcancelled, hidle⟩ := h.final identifier hbefore
    refine ⟨hdurable ▸ hcancelled, ?_, hloop ▸ hidle.2⟩
    rw [htask]
    exact hidle.1
  case carried =>
    intro identifier hjoins
    rw [hcalls] at hjoins
    have hid : identifier = a.order := by
      rcases List.mem_or_eq_of_mem_set hjoins with hmem | heq
      · exact h.joins_eq ha hmem
      · exact CancelCall.joins.inj heq
    exact ⟨a, htask ▸ ha, hid.symm, hcarries⟩
  case executing =>
    rw [htask, hloop]
    exact h.executing

theorem mem_cancelCandidates {identifier : Option String} {selected : WorkOrder}
    (h : s.cancelCandidates identifier = [selected]) :
    selected ∈ s.cancelCandidates identifier := by rw [h]; exact List.mem_singleton_self selected

theorem readCancel_sound (h : s.CancelsSoundly) {call : ℕ}
    (hclean : ∀ identifier, s.calls[call]? = some (.reads identifier) →
      (s.cancelCandidates identifier).length = 1 → s.JoinsBody identifier) :
    (s.readCancel call).CancelsSoundly := by
  unfold readCancel
  split
  case h_2 => exact h
  case h_1 identifier hcall =>
    split
    case h_2 => exact h.erase call
    case h_1 selected hselected =>
      have hbody := hclean identifier hcall (by rw [hselected]; rfl) selected
        (mem_cancelCandidates hselected)
      split
      case isFalse => exact h.set call selected.id
      case isTrue hactive =>
        obtain ⟨a, htask, hid⟩ := Option.map_eq_some_iff.mp hactive
        have ha : a ∈ s.task := htask
        have hjoins := hbody a ha hid
        have hset : s.calls.set call (.joins selected.id) = s.calls.set call (.joins a.order) := by
          rw [hid]
        have hmem : a.order ∈ selected.id :: s.cancelRequested := by
          rw [hid]
          exact List.mem_cons_self
        cases a with
        | created order => simp [Activity.inBody, Activity.failing] at hjoins
        | handles order write rest ending => simp [Activity.inBody, Activity.failing] at hjoins
        | waits e on =>
          simp only [htask, cancelTask, Activity.written]
          exact h.joined ha htask.symm rfl rfl rfl hset ⟨rfl, hmem⟩
        | accesses e access =>
          simp only [htask, cancelTask, Activity.written]
          exact h.joined ha htask.symm rfl rfl rfl hset ⟨rfl, hmem⟩
        | closing order ending =>
          have hfailed : ending = .failed := by
            cases ending <;> simp_all [Activity.inBody, Activity.failing]
          simp only [htask, cancelTask, Activity.written, if_true]
          exact h.joined ha htask.symm rfl rfl rfl hset (.inl hfailed)
        | ended order ending =>
          have hfailed : ending = .failed := by
            cases ending <;> simp_all [Activity.inBody, Activity.failing]
          subst hfailed
          simp only [htask, cancelTask, Activity.written, if_true]
          have herased := h.erase call
          exact herased.called htask.symm rfl rfl (fun _ hr => List.mem_cons_of_mem _ hr)
            (fun _ hc => hc) (fun _ hs => .inl hs) fun _ hj => hj

theorem other_sound (h : s.CancelsSoundly) (event : Event) :
    (s.other outside event).CancelsSoundly := by
  have hcancelled : ∀ identifier, s.durable.Cancelled identifier →
      (s.other outside event).durable.Cancelled identifier :=
    fun _ => other_cancelled outside s event
  cases event <;>
    exact h.called rfl rfl rfl (fun _ hr => hr) hcancelled (fun _ hs => .inl hs) fun _ hj => hj

theorem step_sound (h : s.CancelsSoundly) (input : Point × Outside)
    (hclean : s.CancelsCleanly input) : (s.step config input).CancelsSoundly := by
  obtain ⟨point, outside⟩ := input
  cases point with
  | start => exact start_sound h
  | startup => exact startup_sound h
  | poll => exact poll_sound h
  | closeCircuit => exact closeCircuit_sound h
  | claim => exact claim_sound h
  | firstStep => exact firstStep_sound h
  | reply text => exact reply_sound h hclean text
  | acquisitionFailed detail => exact acquisitionFailed_sound h hclean detail
  | raise failure => exact raise_sound h hclean failure
  | access => exact access_sound h
  | handlerWrite => exact handlerWrite_sound h
  | deliver => exact deliver_sound h
  | heartbeatEnds => exact heartbeatEnds_sound h
  | reap => exact reap_sound h
  | stop => exact stop_sound h hclean
  | crash => exact crash_sound h
  | callCancel identifier => exact callCancel_sound h identifier
  | readCancel call =>
    exact readCancel_sound h fun identifier hcall => hclean (.reads identifier) hcall
  | writeCancel call =>
    exact writeCancel_sound h fun identifier hcall => hclean (.writes identifier) hcall
  | returnCancel call => exact returnCancel_sound h call
  | other event => exact other_sound h event

end Steps

/-- In a run whose cancellations are clean, an order whose `cancel` has returned is cancelled from
then on. -/
theorem cancellationFinal_of_clean (config : RunnerConfig) (d : Durable)
    {inputs : List (Point × Outside)}
    (h : Run.Guarded (step config) CancelsCleanly { durable := d } inputs) :
    ∀ before, before <+: inputs →
      (Run.run (step config) { durable := d } before).CancellationFinal := by
  intro before hbefore
  obtain ⟨after, rfl⟩ := hbefore
  have hfirst := (Run.guarded_append.mp h).1
  exact (Run.run_invariant_of_guarded CancelsSoundly (fun _ input hs => step_sound hs input)
    (cancelsSoundly_stopped d) hfirst).cancellationFinal

def claimedPoints : List Point :=
  [.other (.create .maintenance "1"), .start] ++ List.replicate 8 .startup ++ [.poll, .claim]

def pointsOf (points : List Point) : List (Point × Outside) := points.map (·, {})

/-- The user cancels an order while its turn runs. -/
theorem cancellationFinal_in_turn :
    (Run.run (step defaultRunner) { durable := {} } (pointsOf (claimedPoints ++
      [.firstStep, .callCancel none, .readCancel 0, .deliver, .handlerWrite, .heartbeatEnds,
        .returnCancel 0, .reap]))).returned = ["maintenance-1"] ∧
    ∀ before, before <+: pointsOf (claimedPoints ++
      [.firstStep, .callCancel none, .readCancel 0, .deliver, .handlerWrite, .heartbeatEnds,
        .returnCancel 0, .reap]) →
      (Run.run (step defaultRunner) { durable := {} } before).CancellationFinal :=
  ⟨by decide +kernel, cancellationFinal_of_clean defaultRunner {} (by decide +kernel)⟩

/-- The user cancels an order that was claimed, before its task has run: the call returns, and the
order is left `working`. -/
theorem cancel_before_firstStep :
    ¬ (Run.run (step defaultRunner) {} (pointsOf (claimedPoints ++
      [.callCancel (some "maintenance-1"), .readCancel 0, .deliver,
        .returnCancel 0]))).CancellationFinal := by
  intro h
  obtain ⟨order, hfind, hcancelled⟩ := h "maintenance-1" (by decide +kernel)
  have hstatus : ((Run.run (step defaultRunner) {} (pointsOf (claimedPoints ++
      [.callCancel (some "maintenance-1"), .readCancel 0, .deliver,
        .returnCancel 0]))).durable.find "maintenance-1").map (·.status) = some .working := by
    decide +kernel
  rw [hfind, Option.map_some, hcancelled] at hstatus
  cases hstatus

end Schedule

end ChainQuantStudio.Studio
