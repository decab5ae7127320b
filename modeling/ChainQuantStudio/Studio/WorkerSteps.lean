import ChainQuantStudio.Studio.Rewriting

/-!
# The worker's steps, order by order

A suspended execution follows its durable order: same results, same stage, same artifact. So what
the worker makes of an order depends on the durable order and on what it waits for alone, whatever
else happened meanwhile.
-/

namespace ChainQuantStudio.Studio

open DateTimes (Ranged)

variable {config : RunnerConfig} {outside : Outside} {turns : List AgentTurn}

structure Follows (e : Execution) (order : WorkOrder) : Prop where
  id : e.order.id = order.id
  working : order.status = .working
  stage : order.stage = some e.stage ∨
    (e.stage = .maintenance ∧ order.agent = .maintenance ∧ order.stage.isSome = true)
  results : e.results = order.results
  artifact : e.order.artifact = order.artifact

def Await.Fits (e : Execution) : Await → Prop
  | .dataset => e.stage = .dataset ∨ e.stage = .backtest
  | .turn (.strategy _) => e.stage = .strategy
  | .turn (.review s handoff) => e.stage = s.stage ∧ e.results.handoff s = some handoff
  | .turn (.backtest _) => e.stage = .backtest
  | .turn (.optimize _) => e.stage = .optimize
  | .turn .maintenance => e.stage = .maintenance

/-- What an exception leaves to the handlers of `_execute`: the entry as it is then, and local
variables the order may go back to the queue with. -/
structure Interrupted (x x₁ : Entry) (e : Execution) : Prop where
  working : x.order.status = .working
  id : e.order.id = x.order.id
  frame : Frame x.order x₁.order
  sentBack : ∃ s, x.order.stage = some s ∧ SentBack s x.order.results e.stage e.results
  artifact : x.order.stage ≠ some .strategy → x₁.order.artifact = x.order.artifact
  keepsRecord : KeepsRecord x x₁

def Segment.Spec (turns : List AgentTurn) (d : Durable) (x : Entry) : Segment → Prop
  | .awaiting d' e on => ∃ x', Rewritten d d' x' ∧ (x' = x ∨ Worked turns x x') ∧
      Follows e x'.order ∧ on.Fits e
  | .returned d' => ∃ x', Rewritten d d' x' ∧ (x' = x ∨ Worked turns x x')
  | .raised d' e failure => ∃ x₁, Rewritten d d' x₁ ∧ Interrupted x x₁ e ∧
      failure.Unnamed

theorem Follows.sentBack {e : Execution} {order : WorkOrder} (h : Follows e order) :
    ∃ s, order.stage = some s ∧ SentBack s order.results e.stage e.results := by
  rw [h.results]
  rcases h.stage with hs | ⟨hm, _, hs⟩
  · exact ⟨e.stage, hs, .same _ _⟩
  · obtain ⟨s, hs⟩ := Option.isSome_iff_exists.mp hs
    exact ⟨s, hs, hm ▸ .maintenance _ _⟩

theorem Follows.interrupted {e : Execution} {x : Entry} (h : Follows e x.order) :
    Interrupted x x e :=
  ⟨h.working, h.id, .refl _, h.sentBack, fun _ => rfl, .refl _⟩

theorem Worked.interrupted {x x' : Entry} {e : Execution} (h : Worked turns x x')
    (hid : e.order.id = x.order.id)
    (hs : ∃ s, x.order.stage = some s ∧ SentBack s x.order.results e.stage e.results) :
    Interrupted x x' e :=
  ⟨h.working, hid, h.frame, hs, h.artifact, h.keepsRecord⟩

theorem Frame.finished (order : WorkOrder) (status : Status) (stage : Stage) (results : Results) :
    Frame order (order.finished status stage results) := ⟨rfl, rfl, rfl, rfl, rfl, rfl⟩

theorem Frame.checkpointed (order : WorkOrder) (stage : Stage) (results : Results)
    (artifactId artifactVersion : Option String) :
    Frame order (order.checkpointed stage results artifactId artifactVersion) :=
  ⟨rfl, rfl, rfl, rfl, rfl, rfl⟩

theorem Frame.requeued (r : Requeue) (order : WorkOrder) : Frame order (r.apply config order) := by
  unfold Requeue.apply
  split <;> exact ⟨rfl, rfl, rfl, rfl, rfl, rfl⟩

@[simp] theorem Requeue.apply_stage (r : Requeue) (order : WorkOrder) :
    (r.apply config order).stage = some r.stage := by
  unfold Requeue.apply
  split <;> rfl

@[simp] theorem Requeue.apply_results (r : Requeue) (order : WorkOrder) :
    (r.apply config order).results = r.results := by
  unfold Requeue.apply
  split <;> rfl

@[simp] theorem Requeue.apply_lastError (r : Requeue) (order : WorkOrder) :
    (r.apply config order).lastError = some r.reason := by
  unfold Requeue.apply
  split <;> rfl

@[simp] theorem Requeue.apply_artifact (r : Requeue) (order : WorkOrder) :
    (r.apply config order).artifact = order.artifact := by
  unfold Requeue.apply
  split <;> rfl

theorem Requeue.apply_status (config : RunnerConfig) (r : Requeue) (order : WorkOrder) :
    (r.apply config order).status = .queued ∨
      (r.apply config order).status = .awaitingUserInput ∨
      (r.apply config order).status = .deadLetter := by
  unfold Requeue.apply
  split
  · exact .inr (.inr rfl)
  · cases r.userAction with
    | none => exact .inl rfl
    | some action => exact .inr (.inl rfl)

theorem worked_requeue {x x₁ : Entry} {e : Execution} (hi : Interrupted x x₁ e) {r : Requeue}
    (hs : ∃ s, x.order.stage = some s ∧ SentBack s x.order.results r.stage r.results)
    (hreason : r.reason ≠ WorkOrder.misreadReview) :
    Worked turns x ⟨r.apply config x₁.order, x₁.record⟩ := by
  obtain ⟨s, hstage, hback⟩ := hs
  have hstatus := Requeue.apply_status config r x₁.order
  refine ⟨hi.working, hi.frame.trans (.requeued r _), ⟨s, r.stage, hstage, by simp, ?_⟩, ?_, ?_,
    ?_, ?_⟩
  · rw [Requeue.apply_results]
    exact .sentBack _ hstatus hback
  · intro hne
    rw [Requeue.apply_artifact]
    exact hi.artifact hne
  · exact hi.keepsRecord.trans (.of_record rfl) (by simp)
  · intro hw
    rw [hw] at hstatus
    simp at hstatus
  · intro _
    simpa using hreason

theorem worked_finish {x x₁ : Entry} {e : Execution} (hi : Interrupted x x₁ e) {status : Status}
    {stage : Stage} {results : Results} {record : Option ArtifactRecord}
    (hrecord : KeepsRecord x₁ ⟨x₁.order.finished status stage results, record⟩)
    (hstatus : status ≠ .working)
    (hs : ∃ s, x.order.stage = some s ∧
      Outcome turns x.order.id s x.order.results status stage results) :
    Worked turns x ⟨x₁.order.finished status stage results, record⟩ := by
  obtain ⟨s, hstage, hout⟩ := hs
  refine ⟨hi.working, hi.frame.trans (.finished _ _ _ _), ⟨s, stage, hstage, rfl, hout⟩,
    hi.artifact, hi.keepsRecord.trans hrecord rfl, ?_, ?_⟩
  · intro hw
    exact absurd hw hstatus
  · intro _
    simp [WorkOrder.finished]

theorem ne_misreadReview_of_head {text : String} {c : Char} (h : text.toList.head? = some c)
    (hc : c ≠ 'R') : text ≠ WorkOrder.misreadReview := by
  rintro rfl
  have hm : WorkOrder.misreadReview.toList.head? = some 'R' := by decide
  exact hc (Option.some.inj (h.symm.trans hm))

theorem ne_misreadReview_of_retryable {reason : String} (h : isRetryableCodexError reason = true) :
    reason ≠ WorkOrder.misreadReview := by
  rintro rfl
  have hm : isRetryableCodexError WorkOrder.misreadReview = false := by decide +kernel
  rw [hm] at h
  cases h

def Failure.OutOfYears (outside : Outside) : Failure → Prop
  | .timeout => False
  | .error typeName message =>
    isRetryableCodexError (typeName ++ ": " ++ message) = true ∧
      ∀ retryAt, outside.retryAt (typeName ++ ": " ++ message) = .ok retryAt →
        ¬ Ranged (outside.now + max 1000000 (retryAt - outside.now))

theorem Failure.Unnamed.not_outOfYears {failure : Failure} (h : failure.Unnamed)
    (outside : Outside) : ¬ failure.OutOfYears outside := by
  cases failure with
  | timeout => exact not_false
  | error typeName message =>
    rintro ⟨-, hout⟩
    refine hout _ (outside.retryAt_unnamed h) ?_
    have hc := outside.clocked
    unfold Clocked Ranged DateTimes.dayLength at *
    omega

example : (Failure.error "RuntimeError"
    "usage limit, try again at 9999-12-31T23:59:59-08:00").OutOfYears {} := by
  have hraised : Outside.retryAt {} ("RuntimeError" ++ ": " ++
      "usage limit, try again at 9999-12-31T23:59:59-08:00") = .error .overflowError := by
    decide +kernel
  refine ⟨by decide +kernel, fun retryAt hok => ?_⟩
  rw [hraised] at hok
  cases hok

theorem handle_outOfYears (config : RunnerConfig) {d : Durable} {x : Entry} {e : Execution}
    (hx : x ∈ d) (hid : e.order.id = x.order.id) {failure : Failure}
    (hyears : failure.OutOfYears outside) :
    Rewritten d (e.handle config outside failure d).1 x ∧
      (e.handle config outside failure d).1.store.deadLetters = d.store.deadLetters ∧
      (e.handle config outside failure d).2 ≠ none := by
  cases failure with
  | timeout => exact absurd hyears not_false
  | error typeName message =>
    obtain ⟨hretry, hout⟩ := hyears
    unfold Execution.handle
    dsimp only
    rw [if_pos hretry, hid]
    cases hat : outside.retryAt (typeName ++ ": " ++ message) with
    | error raised => exact ⟨.self hx, rfl, by simp⟩
    | ok retryAt =>
      have hfind : (d.openCircuit (typeName ++ ": " ++ message) retryAt).find x.order.id =
          some x.order := Durable.find_mem hx
      dsimp only
      rw [if_neg (by simp [hout retryAt hat, hfind])]
      exact ⟨(Rewritten.self hx).congr rfl rfl, rfl, by simp⟩

inductive Execution.Handled (config : RunnerConfig) (outside : Outside) (d : Durable)
    (e : Execution) : Failure → Durable × Option Failure → Prop
  | late :
    Handled config outside d e .timeout (d.requeue config e.order.id
      { stage := e.stage, results := e.results
        reason := "Codex " ++ e.stage.value ++ " turn exceeded " ++ config.turnTimeout ++
          " seconds" })
  | quota (typeName message : String) (retryAt : ℤ)
      (hretry : isRetryableCodexError (typeName ++ ": " ++ message) = true) :
    Handled config outside d e (.error typeName message)
      ((d.openCircuit (typeName ++ ": " ++ message) retryAt).requeue config e.order.id
        { stage := e.stage, results := e.results, reason := typeName ++ ": " ++ message
          retryNotBefore := some (outside.now + max 1000000 (retryAt - outside.now))
          countAttempt := false })
  | failed (typeName message : String)
      (hretry : isRetryableCodexError (typeName ++ ": " ++ message) = false) :
    Handled config outside d e (.error typeName message)
      (d.finish outside e.order.id .failed .failed
        { error := some (typeName ++ ": " ++ message) })

theorem handle_handled (config : RunnerConfig) (d : Durable) (e : Execution) {failure : Failure}
    (hyears : ¬ failure.OutOfYears outside) :
    e.Handled config outside d failure (e.handle config outside failure d) := by
  unfold Execution.handle
  cases failure with
  | timeout => exact .late
  | error typeName message =>
    dsimp only
    split
    case isTrue hretry =>
      cases hat : outside.retryAt (typeName ++ ": " ++ message) with
      | error raised =>
        refine absurd ⟨hretry, fun retryAt hok => ?_⟩ hyears
        rw [hat] at hok
        cases hok
      | ok retryAt =>
        have hranged : Ranged (outside.now + max 1000000 (retryAt - outside.now)) := by
          by_contra hnot
          refine hyears ⟨hretry, fun at_ hok => ?_⟩
          obtain rfl : retryAt = at_ := Except.ok.inj (hat.symm.trans hok)
          exact hnot
        dsimp only
        rw [if_pos (.inl hranged)]
        exact .quota _ _ retryAt hretry
    case isFalse hretry => exact .failed _ _ (Bool.eq_false_iff.mpr hretry)

theorem handle_spec (config : RunnerConfig) (turns : List AgentTurn) {d d' : Durable}
    {x x₁ : Entry} {e : Execution} (hr : Rewritten d d' x₁) (hi : Interrupted x x₁ e)
    {failure : Failure} (hyears : ¬ failure.OutOfYears outside) :
    ∃ x', Rewritten d (e.handle config outside failure d').1 x' ∧ Worked turns x x' := by
  have hid : e.order.id = x₁.order.id := hi.id.trans hi.frame.id.symm
  have hhandled := handle_handled config d' e hyears
  generalize e.handle config outside failure d' = written at hhandled ⊢
  cases hhandled with
  | late =>
    rw [hid]
    obtain ⟨hq, _⟩ := requeue_spec config hr.mem _
    refine ⟨_, hr.trans hq (by simp), worked_requeue hi hi.sentBack ?_⟩
    exact ne_misreadReview_of_head (c := 'C') (by simp [String.toList_append]) (by decide)
  | quota typeName message retryAt hretry =>
    rw [hid]
    have hopen : Rewritten d (d'.openCircuit (typeName ++ ": " ++ message) retryAt) x₁ :=
      hr.congr rfl rfl
    obtain ⟨hq, _⟩ := requeue_spec config hopen.mem _
    exact ⟨_, hopen.trans hq (by simp),
      worked_requeue hi hi.sentBack (ne_misreadReview_of_retryable hretry)⟩
  | failed typeName message =>
    rw [hid]
    obtain ⟨record, hf, hkeep⟩ := finish_spec outside hr.mem .failed .failed _
    obtain ⟨s, hs, _⟩ := hi.sentBack
    exact ⟨_, hr.trans hf rfl, worked_finish hi hkeep (by decide) ⟨s, hs, .failed _ _ _⟩⟩

theorem raise_spec (config : RunnerConfig) (outside : Outside) (turns : List AgentTurn)
    {d : Durable} {x : Entry} {e : Execution} (hx : x ∈ d) (hf : Follows e x.order)
    (failure : Failure) :
    ∃ x', Rewritten d (e.handle config outside failure d).1 x' ∧ (x' = x ∨ Worked turns x x') := by
  by_cases hyears : failure.OutOfYears outside
  · exact ⟨x, (handle_outOfYears config hx hf.id hyears).1, .inl rfl⟩
  · obtain ⟨x', hr, hworked⟩ := handle_spec config turns (.self hx) hf.interrupted hyears
    exact ⟨x', hr, .inr hworked⟩

theorem acquisitionFailed_spec (config : RunnerConfig) (outside : Outside)
    (turns : List AgentTurn) {d : Durable} {x : Entry} {e : Execution} (hx : x ∈ d)
    (hf : Follows e x.order) (hfits : Await.dataset.Fits e) (detail : String) :
    ∃ x', Rewritten d (e.acquisitionFailed config outside detail d).1 x' ∧ Worked turns x x' := by
  have hstage : x.order.stage = some e.stage := by
    rcases hf.stage with hs | ⟨hm, _⟩
    · exact hs
    · rcases hfits with h | h <;> rw [hm] at h <;> cases h
  unfold Execution.acquisitionFailed
  rw [hf.id]
  obtain ⟨hq, _⟩ := requeue_spec config hx _
  refine ⟨_, hq, worked_requeue hf.interrupted ⟨e.stage, hstage, ?_⟩ ?_⟩
  · dsimp only
    rw [hf.results]
    exact .dataset _ hfits
  · exact ne_misreadReview_of_head (c := 'p') (by simp [String.toList_append]) (by decide)

theorem cancelled_spec (config : RunnerConfig) (outside : Outside) (turns : List AgentTurn)
    {d : Durable} {x : Entry} {e : Execution} (hx : x ∈ d) (hf : Follows e x.order) (byUser : Bool) :
    ∃ x', Rewritten d (e.cancelled config outside byUser d).1 x' ∧ Worked turns x x' := by
  obtain ⟨s, hs, hback⟩ := hf.sentBack
  unfold Execution.cancelled
  rw [hf.id]
  split
  · obtain ⟨record, hfin, hkeep⟩ := finish_spec outside hx .cancelled .cancelled
      { e.results with error := some "Cancelled by Manager Agent" }
    exact ⟨_, hfin, worked_finish hf.interrupted hkeep (by decide) ⟨s, hs, .cancelled _ _ _⟩⟩
  · obtain ⟨hq, _⟩ := requeue_spec config hx _
    exact ⟨_, hq, worked_requeue hf.interrupted ⟨s, hs, hback⟩ (by dsimp only; decide)⟩

end ChainQuantStudio.Studio
