import ChainQuantStudio.Library.PythonText
import ChainQuantStudio.Library.Tallies
import Mathlib.Data.Finset.Card

/-!
# The public HTTP transport

Requests of an adapter share one client session. A lock guards its creation and its replacement;
failures to resolve a name are counted, and enough of them in a row replace the session with its
connector. The callers run side by side and may be cancelled wherever they wait; what the venue
answers is an input.
-/

namespace ChainQuantStudio.Exchanges

open PythonText Run Tallies

structure ChainedException where
  typeName : Text
  isDnsResolutionTimeout : Bool := false
  isClientConnectorError : Bool := false
  isTimeoutError : Bool := false
  isValueError : Bool := false

inductive FailureStage
  | dns
  | tls
  | read
  | connect
  | responseDecode
  | transport
  deriving DecidableEq, Repr

def failureStage (chain : List ChainedException) : FailureStage :=
  let named (part : String) : Bool := chain.any fun item => contains part.toList item.typeName
  if chain.any (·.isDnsResolutionTimeout) || named "dns" || named "resolve" then .dns
  else if named "ssl" || named "certificate" then .tls
  else if named "sockettimeout" || named "servertimeout" then .read
  else if named "connectiontimeout" then .connect
  else if chain.any (·.isClientConnectorError) then .connect
  else if named "connectionerror" then .connect
  else if chain.any (·.isTimeoutError) then .tls
  else if chain.any (·.isValueError) || named "payload" then .responseDecode
  else .transport

/-- What `client.get` and `response.json` come to: a payload, the chain of an exception that is a
`ClientError`, a `TimeoutError` or a `ValueError`, or another exception. -/
inductive HttpAnswer
  | response (status : ℕ) (payload : Option (List ChainedException))
  | failure (chain : List ChainedException)
  | escaped

def isRetryableStatus (status : ℕ) : Bool := status ∈ [408, 418, 425, 429] || 500 ≤ status

def HttpAnswer.mark : HttpAnswer → Mark
  | .response status payload =>
    if isRetryableStatus status || 400 ≤ status then .pass
    else
      match payload with
      | none => .miss
      | some chain => if failureStage chain = .dns then .hit else .miss
  | .failure chain => if failureStage chain = .dns then .hit else .miss
  | .escaped => .pass

inductive SessionStatus
  | opened
  | closing
  | closed
  deriving DecidableEq, Repr

/-- Where a caller is: in `_client` before the lock, in `client.get`, in `_reset_session` before the
lock, or in `session.close` under it. `rebuild` says that a row of failures brought it there. -/
inductive HttpTask
  | idle
  | acquiring
  | requesting (session : ℕ)
  | resetting (rebuild : Bool)
  | closing (session : ℕ) (rebuild : Bool)
  deriving DecidableEq, Repr

def HttpTask.holds : HttpTask → Bool
  | .closing _ _ => true
  | _ => false

def HttpTask.rebuilds : HttpTask → Bool
  | .resetting rebuild => rebuild
  | .closing _ rebuild => rebuild
  | _ => false

/-- Sessions are numbered as they are created; `answers` lists the answers so far. -/
structure AioHttpTransport (κ : Type*) where
  session : Option ℕ := none
  created : ℕ := 0
  status : ℕ → SessionStatus := fun _ => .closed
  consecutiveDnsFailures : ℕ := 0
  connectorRebuilds : ℕ := 0
  lock : Option κ := none
  tasks : κ → HttpTask := fun _ => .idle
  answers : List HttpAnswer := []

inductive HttpAction (κ : Type*)
  | getJson (caller : κ) (https : Bool)
  | client (caller : κ)
  | answer (caller : κ) (answer : HttpAnswer)
  | close (caller : κ)
  | reset (caller : κ)
  | closed (caller : κ)
  | cancel (caller : κ)

def HttpAction.isCancel {κ : Type*} : HttpAction κ → Bool
  | .cancel _ => true
  | _ => false

namespace AioHttpTransport

variable {κ : Type*} [DecidableEq κ] (threshold : ℕ) (s : AioHttpTransport κ)

def put (caller : κ) (task : HttpTask) : AioHttpTransport κ :=
  { s with tasks := Function.update s.tasks caller task }

/-- `_client`, under the lock: nothing is awaited from its acquisition to the request. -/
def client (caller : κ) : AioHttpTransport κ :=
  match s.session.filter fun session => s.status session = .opened with
  | some session => s.put caller (.requesting session)
  | none =>
    { s.put caller (.requesting s.created) with
      session := some s.created
      created := s.created + 1
      status := Function.update s.status s.created .opened }

/-- `_record_connection_failure` of a DNS failure, up to the reset. -/
def recordDnsFailure (caller : κ) : AioHttpTransport κ :=
  if s.consecutiveDnsFailures + 1 < threshold then
    { s.put caller .idle with consecutiveDnsFailures := s.consecutiveDnsFailures + 1 }
  else { s.put caller (.resetting true) with consecutiveDnsFailures := 0 }

/-- The end of `get_json` behind the request. -/
def answered (caller : κ) (answer : HttpAnswer) : AioHttpTransport κ :=
  let s := { s with answers := s.answers ++ [answer] }
  match answer.mark with
  | .hit => s.recordDnsFailure threshold caller
  | .miss => { s.put caller .idle with consecutiveDnsFailures := 0 }
  | .pass => s.put caller .idle

/-- The end of `_reset_session`: a rebuild is counted. -/
def finish (caller : κ) (rebuild : Bool) : AioHttpTransport κ :=
  { s.put caller .idle with
    connectorRebuilds := if rebuild then s.connectorRebuilds + 1 else s.connectorRebuilds }

/-- `_reset_session`, under the lock: `session.close` marks the session before it awaits. -/
def reset (caller : κ) (rebuild : Bool) : AioHttpTransport κ :=
  match s.session.filter fun session => s.status session = .opened with
  | some session =>
    { s.put caller (.closing session rebuild) with
      session := none
      status := Function.update s.status session .closing
      lock := some caller }
  | none => ({ s with session := none } : AioHttpTransport κ).finish caller rebuild

def step : HttpAction κ → AioHttpTransport κ
  | .getJson caller https =>
    if s.tasks caller = .idle ∧ https = true then s.put caller .acquiring else s
  | .client caller =>
    if s.tasks caller = .acquiring ∧ s.lock = none then s.client caller else s
  | .answer caller answer =>
    match s.tasks caller with
    | .requesting _ => s.answered threshold caller answer
    | _ => s
  | .close caller => if s.tasks caller = .idle then s.put caller (.resetting false) else s
  | .reset caller =>
    match s.tasks caller, s.lock with
    | .resetting rebuild, none => s.reset caller rebuild
    | _, _ => s
  | .closed caller =>
    match s.tasks caller with
    | .closing session rebuild =>
      { s.finish caller rebuild with
        status := Function.update s.status session .closed
        lock := none }
    | _ => s
  | .cancel caller =>
    match s.tasks caller with
    | .closing _ _ => { s.put caller .idle with lock := none }
    | _ => s.put caller .idle

structure Current (s : AioHttpTransport κ) : Prop where
  opened : ∀ id, s.status id = .opened ↔ s.session = some id
  created : ∀ id, s.session = some id → id < s.created
  holder : ∀ caller, s.lock = some caller ↔ (s.tasks caller).holds = true
  closing : ∀ caller id rebuild, s.tasks caller = .closing id rebuild →
    id < s.created ∧ s.session ≠ some id

structure Counted (threshold cancels : ℕ) (s : AioHttpTransport κ) : Prop where
  row : s.consecutiveDnsFailures = Mark.row (s.answers.map HttpAnswer.mark) % threshold
  rebuilds : ∃ rebuilding : Finset κ,
    (∀ caller, caller ∈ rebuilding ↔ (s.tasks caller).rebuilds = true) ∧
      s.connectorRebuilds + rebuilding.card ≤
        Mark.completed threshold (s.answers.map HttpAnswer.mark) ∧
      Mark.completed threshold (s.answers.map HttpAnswer.mark) ≤
        s.connectorRebuilds + rebuilding.card + cancels

variable {threshold} {s}

omit [DecidableEq κ] in
theorem Current.filter_session (h : s.Current) :
    (s.session.filter fun session => s.status session = .opened) = s.session := by
  cases hsession : s.session with
  | none => rfl
  | some id =>
    rw [Option.filter_some]
    exact if_pos (decide_eq_true ((h.opened id).mpr hsession))

theorem Current.move (h : s.Current) {s' : AioHttpTransport κ} (caller : κ) (task : HttpTask)
    (htasks : s'.tasks = Function.update s.tasks caller task)
    (hcreated : s.created ≤ s'.created)
    (hsession : ∀ id < s.created, s'.session = some id → s.session = some id)
    (hopened : ∀ id, s'.status id = .opened ↔ s'.session = some id)
    (hcurrent : ∀ id, s'.session = some id → id < s'.created)
    (hholder : s'.lock = some caller ↔ task.holds = true)
    (hothers : ∀ other, other ≠ caller → (s'.lock = some other ↔ s.lock = some other))
    (hclosing : ∀ id rebuild, task = .closing id rebuild →
      id < s'.created ∧ s'.session ≠ some id) : s'.Current where
  opened := hopened
  created := hcurrent
  holder := by
    intro other
    rw [htasks]
    by_cases hother : other = caller
    · rw [hother, Function.update_self]
      exact hholder
    · rw [Function.update_of_ne hother, hothers other hother]
      exact h.holder other
  closing := by
    intro other id rebuild htask
    rw [htasks] at htask
    by_cases hother : other = caller
    · rw [hother, Function.update_self] at htask
      exact hclosing id rebuild htask
    · rw [Function.update_of_ne hother] at htask
      obtain ⟨hlt, hne⟩ := h.closing other id rebuild htask
      exact ⟨hlt.trans_le hcreated, fun heq => hne (hsession id hlt heq)⟩

omit [DecidableEq κ] in
theorem Current.lock_ne (h : s.Current) {caller : κ} (hfrom : (s.tasks caller).holds = false) :
    s.lock ≠ some caller := by
  intro hlock
  rw [(h.holder caller).mp hlock] at hfrom
  cases hfrom

theorem Current.put (h : s.Current) {caller : κ} {task : HttpTask}
    (hfrom : (s.tasks caller).holds = false) (hto : task.holds = false) :
    (s.put caller task).Current := by
  refine h.move caller task rfl le_rfl (fun _ _ heq => heq) h.opened h.created ?_
    (fun _ _ => Iff.rfl) ?_
  · rw [hto]
    exact iff_of_false (h.lock_ne hfrom) Bool.false_ne_true
  · intro id rebuild heq
    rw [heq] at hto
    cases hto

theorem Current.client (h : s.Current) {caller : κ} (htask : s.tasks caller = .acquiring) :
    (s.client caller).Current := by
  have hfrom : (s.tasks caller).holds = false := by rw [htask]; rfl
  unfold AioHttpTransport.client
  rw [h.filter_session]
  cases hsession : s.session with
  | some id => exact h.put hfrom rfl
  | none =>
    have hnever (id : ℕ) : s.status id ≠ .opened := by
      intro hopened
      rw [(h.opened id).mp hopened] at hsession
      cases hsession
    refine h.move caller (.requesting s.created) rfl (Nat.le_succ _) ?_ ?_ ?_ ?_
      (fun _ _ => Iff.rfl) ?_
    · intro id hlt heq
      exact absurd (Option.some.inj heq) hlt.ne'
    · intro id
      by_cases hid : id = s.created
      · simp [hid]
      · simp [Function.update_of_ne hid, hnever, Ne.symm hid]
    · intro id heq
      rw [← Option.some.inj heq]
      exact Nat.lt_succ_self _
    · exact iff_of_false (h.lock_ne hfrom) Bool.false_ne_true
    · intro id rebuild heq
      cases heq

theorem Current.client_requests (h : s.Current) (caller : κ) :
    ∃ id, (s.client caller).tasks caller = .requesting id ∧
      (s.client caller).status id = .opened := by
  unfold AioHttpTransport.client
  rw [h.filter_session]
  cases hsession : s.session with
  | some id => exact ⟨id, Function.update_self .., (h.opened id).mpr hsession⟩
  | none => exact ⟨s.created, Function.update_self .., Function.update_self ..⟩

theorem Current.finish (h : s.Current) {caller : κ} (hfrom : (s.tasks caller).holds = false)
    (rebuild : Bool) : (s.finish caller rebuild).Current := by
  have hput := h.put hfrom (rfl : HttpTask.idle.holds = false)
  exact ⟨hput.opened, hput.created, hput.holder, hput.closing⟩

theorem Current.reset (h : s.Current) {caller : κ} {rebuild : Bool}
    (htask : s.tasks caller = .resetting rebuild) (hlock : s.lock = none) :
    (s.reset caller rebuild).Current := by
  have hfrom : (s.tasks caller).holds = false := by rw [htask]; rfl
  unfold AioHttpTransport.reset
  rw [h.filter_session]
  cases hsession : s.session with
  | some id =>
    have hlt := h.created id hsession
    refine h.move caller (.closing id rebuild) rfl le_rfl ?_ ?_ ?_ (iff_of_true rfl rfl) ?_ ?_
    · intro other _ heq
      cases heq
    · intro other
      by_cases hother : other = id
      · simp [hother]
      · have hclosed : s.status other ≠ .opened := by
          intro hopened
          have hcurrent := (h.opened other).mp hopened
          rw [hsession] at hcurrent
          exact hother (Option.some.inj hcurrent).symm
        simp [Function.update_of_ne hother, hclosed]
    · intro other heq
      cases heq
    · intro other hother
      rw [hlock]
      simp [Ne.symm hother]
    · intro other _ heq
      obtain ⟨rfl, _⟩ := HttpTask.closing.inj heq
      exact ⟨hlt, by simp⟩
  | none =>
    have hsame : ({ s with session := none } : AioHttpTransport κ) = s := by rw [← hsession]
    rw [hsame]
    exact h.finish hfrom rebuild

theorem Current.release (h : s.Current) {caller : κ} {id : ℕ} {rebuild : Bool}
    (htask : s.tasks caller = .closing id rebuild) {s' : AioHttpTransport κ}
    (htasks : s'.tasks = Function.update s.tasks caller .idle) (hcreated : s'.created = s.created)
    (hsession : s'.session = s.session) (hlock : s'.lock = none)
    (hstatus : ∀ other, other ≠ id → s'.status other = s.status other)
    (hclosed : s'.status id ≠ .opened) : s'.Current := by
  have hheld : s.lock = some caller := (h.holder caller).mpr (by rw [htask]; rfl)
  obtain ⟨_, hne⟩ := h.closing caller id rebuild htask
  refine h.move caller .idle htasks hcreated.ge (fun other _ heq => hsession ▸ heq) ?_ ?_ ?_ ?_ ?_
  · intro other
    rw [hsession]
    by_cases hother : other = id
    · rw [hother]
      exact iff_of_false hclosed hne
    · rw [hstatus other hother]
      exact h.opened other
  · intro other heq
    rw [hcreated]
    exact h.created other (hsession ▸ heq)
  · rw [hlock]
    simp [HttpTask.holds]
  · intro other hother
    rw [hlock, hheld]
    simp [Ne.symm hother]
  · intro other _ heq
    cases heq

theorem Current.answered (h : s.Current) {caller : κ} (hfrom : (s.tasks caller).holds = false)
    (answer : HttpAnswer) : (s.answered threshold caller answer).Current := by
  have hidle := h.put hfrom (rfl : HttpTask.idle.holds = false)
  have hreset := h.put hfrom (rfl : (HttpTask.resetting true).holds = false)
  unfold AioHttpTransport.answered
  cases answer.mark with
  | hit =>
    dsimp only
    unfold recordDnsFailure
    split
    · exact ⟨hidle.opened, hidle.created, hidle.holder, hidle.closing⟩
    · exact ⟨hreset.opened, hreset.created, hreset.holder, hreset.closing⟩
  | miss => exact ⟨hidle.opened, hidle.created, hidle.holder, hidle.closing⟩
  | pass => exact ⟨hidle.opened, hidle.created, hidle.holder, hidle.closing⟩

omit [DecidableEq κ] in
theorem Current.closing_status (h : s.Current) {caller : κ} {id : ℕ} {rebuild : Bool}
    (htask : s.tasks caller = .closing id rebuild) : s.status id ≠ .opened := by
  intro hopened
  exact (h.closing caller id rebuild htask).2 ((h.opened id).mp hopened)

theorem Current.step (h : s.Current) (action : HttpAction κ) :
    (AioHttpTransport.step threshold s action).Current := by
  unfold AioHttpTransport.step
  cases action with
  | getJson caller https =>
    dsimp only
    split
    case isTrue hidle => exact h.put (by rw [hidle.1]; rfl) rfl
    case isFalse => exact h
  | client caller =>
    dsimp only
    split
    case isTrue hfree => exact h.client hfree.1
    case isFalse => exact h
  | answer caller answer =>
    dsimp only
    split
    case h_1 session htask => exact h.answered (by rw [htask]; rfl) answer
    case h_2 => exact h
  | close caller =>
    dsimp only
    split
    case isTrue hidle => exact h.put (by rw [hidle]; rfl) rfl
    case isFalse => exact h
  | reset caller =>
    dsimp only
    split
    case h_1 rebuild htask hlock => exact h.reset htask hlock
    case h_2 => exact h
  | closed caller =>
    dsimp only
    split
    case h_1 id rebuild htask =>
      exact h.release htask rfl rfl rfl rfl (fun other hother => Function.update_of_ne hother ..)
        (by simp)
    case h_2 => exact h
  | cancel caller =>
    dsimp only
    split
    case h_1 id rebuild htask =>
      exact h.release htask rfl rfl rfl rfl (fun _ _ => rfl) (h.closing_status htask)
    case h_2 hother =>
      refine h.put ?_ rfl
      cases htask : s.tasks caller with
      | closing id rebuild => exact absurd htask (hother id rebuild)
      | _ => rfl

theorem rebuilding_update {tasks : κ → HttpTask} {rebuilding : Finset κ}
    (h : ∀ caller, caller ∈ rebuilding ↔ (tasks caller).rebuilds = true) (caller : κ)
    (task : HttpTask) :
    ∃ after : Finset κ,
      (∀ other, other ∈ after ↔ (Function.update tasks caller task other).rebuilds = true) ∧
        after.card + (tasks caller).rebuilds.toNat =
          rebuilding.card + task.rebuilds.toNat := by
  have hothers (other : κ) (hother : other ≠ caller) :
      (Function.update tasks caller task other).rebuilds = (tasks other).rebuilds := by
    rw [Function.update_of_ne hother]
  cases htask : task.rebuilds with
  | false =>
    refine ⟨rebuilding.erase caller, fun other => ?_, ?_⟩
    · by_cases hother : other = caller
      · simp [hother, htask]
      · rw [hothers other hother, ← h other]
        simp [hother]
    · cases hbefore : (tasks caller).rebuilds with
      | false =>
        have hnot : caller ∉ rebuilding := by simp [h, hbefore]
        rw [Finset.erase_eq_of_notMem hnot]
      | true => exact Finset.card_erase_add_one ((h caller).mpr hbefore)
  | true =>
    refine ⟨insert caller rebuilding, fun other => ?_, ?_⟩
    · by_cases hother : other = caller
      · simp [hother, htask]
      · rw [hothers other hother, ← h other]
        simp [hother]
    · cases hbefore : (tasks caller).rebuilds with
      | false =>
        have hnot : caller ∉ rebuilding := by simp [h, hbefore]
        rw [Finset.card_insert_of_notMem hnot]
        rfl
      | true => rw [Finset.insert_eq_of_mem ((h caller).mpr hbefore)]

variable {cancels : ℕ}

theorem Counted.move (h : s.Counted threshold cancels) {s' : AioHttpTransport κ} (caller : κ)
    (task : HttpTask) (lost : ℕ) {cancels' : ℕ}
    (htasks : s'.tasks = Function.update s.tasks caller task)
    (hrow : s'.consecutiveDnsFailures =
      Mark.row (s'.answers.map HttpAnswer.mark) % threshold)
    (hlost : cancels + lost ≤ cancels')
    (hbalance : s'.connectorRebuilds + task.rebuilds.toNat +
        Mark.completed threshold (s.answers.map HttpAnswer.mark) + lost =
      s.connectorRebuilds + (s.tasks caller).rebuilds.toNat +
        Mark.completed threshold (s'.answers.map HttpAnswer.mark)) :
    s'.Counted threshold cancels' := by
  obtain ⟨rebuilding, hmem, hle, hge⟩ := h.rebuilds
  obtain ⟨after, hafter, hcard⟩ := rebuilding_update hmem caller task
  rw [← htasks] at hafter
  exact ⟨hrow, after, hafter, by omega, by omega⟩

theorem Counted.put (h : s.Counted threshold cancels) {caller : κ} {task : HttpTask}
    (hsame : task.rebuilds = (s.tasks caller).rebuilds) :
    (s.put caller task).Counted threshold cancels := by
  refine h.move caller task 0 rfl h.row le_rfl ?_
  rw [hsame]
  rfl

theorem Counted.finish (h : s.Counted threshold cancels) {caller : κ} {rebuild : Bool}
    (hfrom : (s.tasks caller).rebuilds = rebuild) :
    (s.finish caller rebuild).Counted threshold cancels := by
  refine h.move caller .idle 0 rfl h.row le_rfl ?_
  rw [hfrom]
  unfold AioHttpTransport.finish
  cases rebuild with
  | true => rfl
  | false => rfl

theorem answered_spec (threshold : ℕ) (s : AioHttpTransport κ) (caller : κ)
    (answer : HttpAnswer) :
    (s.answered threshold caller answer).answers = s.answers ++ [answer] ∧
    (s.answered threshold caller answer).connectorRebuilds = s.connectorRebuilds ∧
    (s.answered threshold caller answer).consecutiveDnsFailures =
      answer.mark.next threshold s.consecutiveDnsFailures ∧
    (s.answered threshold caller answer).tasks = Function.update s.tasks caller
      (if answer.mark.trips threshold s.consecutiveDnsFailures then .resetting true
        else .idle) := by
  unfold AioHttpTransport.answered
  cases answer.mark with
  | hit =>
    dsimp only
    unfold recordDnsFailure Mark.next Mark.trips
    split
    case isTrue hbelow => simp [put, hbelow.not_ge]
    case isFalse hreached => simp [put, not_lt.mp hreached]
  | miss => exact ⟨rfl, rfl, rfl, rfl⟩
  | pass => exact ⟨rfl, rfl, rfl, rfl⟩

theorem Counted.answered (h : s.Counted threshold cancels) (hpos : 0 < threshold) {caller : κ}
    (hfrom : (s.tasks caller).rebuilds = false) (answer : HttpAnswer) :
    (s.answered threshold caller answer).Counted threshold cancels := by
  obtain ⟨hanswers, hrebuilds, hcount, htasks⟩ :=
    answered_spec threshold s caller answer
  refine h.move caller _ 0 htasks ?_ le_rfl ?_
  · rw [hcount, h.row, hanswers, List.map_append]
    exact Mark.next_row hpos _ _
  · rw [hrebuilds, hanswers, List.map_append, List.map_singleton, Mark.completed_trips hpos,
      ← h.row, hfrom]
    cases answer.mark.trips threshold s.consecutiveDnsFailures with
    | true =>
      simp only [if_pos, HttpTask.rebuilds, Bool.toNat_true, Bool.toNat_false]
      omega
    | false => rfl

theorem Counted.reset (h : s.Counted threshold cancels) {caller : κ} {rebuild : Bool}
    (htask : s.tasks caller = .resetting rebuild) :
    (s.reset caller rebuild).Counted threshold cancels := by
  have hfrom : (s.tasks caller).rebuilds = rebuild := by rw [htask]; rfl
  unfold AioHttpTransport.reset
  split
  case h_1 session _ =>
    refine h.move caller (.closing session rebuild) 0 rfl h.row le_rfl ?_
    rw [hfrom]
    rfl
  case h_2 =>
    have hnone : ({ s with session := none } : AioHttpTransport κ).Counted threshold cancels :=
      ⟨h.row, h.rebuilds⟩
    exact hnone.finish hfrom

theorem Counted.cancel (h : s.Counted threshold cancels) (caller : κ) {s' : AioHttpTransport κ}
    (htasks : s'.tasks = Function.update s.tasks caller .idle)
    (hcount : s'.consecutiveDnsFailures = s.consecutiveDnsFailures)
    (hanswers : s'.answers = s.answers) (hrebuilds : s'.connectorRebuilds = s.connectorRebuilds) :
    s'.Counted threshold (cancels + 1) := by
  refine h.move caller .idle (s.tasks caller).rebuilds.toNat htasks ?_ ?_ ?_
  · rw [hcount, hanswers]
    exact h.row
  · exact Nat.add_le_add_left (Bool.toNat_le _) cancels
  · rw [hanswers, hrebuilds]
    simp only [HttpTask.rebuilds, Bool.toNat_false]
    omega

theorem Counted.step (h : s.Counted threshold cancels) (hpos : 0 < threshold)
    (action : HttpAction κ) :
    (AioHttpTransport.step threshold s action).Counted threshold
      (cancels + action.isCancel.toNat) := by
  unfold AioHttpTransport.step
  cases action with
  | getJson caller https =>
    dsimp only
    split
    case isTrue hidle => exact h.put (by rw [hidle.1]; rfl)
    case isFalse => exact h
  | client caller =>
    dsimp only
    split
    case isTrue hfree =>
      unfold AioHttpTransport.client
      split
      · exact h.put (by rw [hfree.1]; rfl)
      · have hsame : (HttpTask.requesting s.created).rebuilds = (s.tasks caller).rebuilds := by
          rw [hfree.1]
          rfl
        have hput := h.put hsame
        exact ⟨hput.row, hput.rebuilds⟩
    case isFalse => exact h
  | answer caller answer =>
    dsimp only
    split
    case h_1 session htask => exact h.answered hpos (by rw [htask]; rfl) answer
    case h_2 => exact h
  | close caller =>
    dsimp only
    split
    case isTrue hidle => exact h.put (by rw [hidle]; rfl)
    case isFalse => exact h
  | reset caller =>
    dsimp only
    split
    case h_1 rebuild htask hlock => exact h.reset htask
    case h_2 => exact h
  | closed caller =>
    dsimp only
    split
    case h_1 id rebuild htask =>
      have hfrom : (s.tasks caller).rebuilds = rebuild := by rw [htask]; rfl
      have hfinish := h.finish hfrom
      exact ⟨hfinish.row, hfinish.rebuilds⟩
    case h_2 => exact h
  | cancel caller =>
    dsimp only
    split
    case h_1 id rebuild htask => exact h.cancel caller rfl rfl rfl rfl
    case h_2 => exact h.cancel caller rfl rfl rfl rfl

theorem run_current_counted (hpos : 0 < threshold) (actions : List (HttpAction κ)) :
    (run (AioHttpTransport.step threshold) ({} : AioHttpTransport κ) actions).Current ∧
      (run (AioHttpTransport.step threshold) ({} : AioHttpTransport κ) actions).Counted threshold
        (actions.countP HttpAction.isCancel) := by
  induction actions using List.reverseRecOn with
  | nil =>
    refine ⟨⟨by simp, by simp, by simp [HttpTask.holds], by simp⟩, ?_, ∅, ?_, ?_, ?_⟩
    · exact (Nat.zero_mod threshold).symm
    · simp [HttpTask.rebuilds]
    · simp [Mark.completed]
    · simp [Mark.completed]
  | append_singleton actions action ih =>
    rw [run_append, List.countP_append]
    refine ⟨ih.1.step action, ?_⟩
    have hstep := ih.2.step hpos action
    cases hcancel : action.isCancel <;> simpa [hcancel] using hstep

/-- In every run, however the callers interleave and wherever they are cancelled: the one session
that is open is the current one, and the next request starts in an open one; the lock is held by a
caller that closes; and the connector is rebuilt once for each row of failed resolutions that
reaches the threshold, but for the rebuilds under way and those that a cancellation cuts off. -/
theorem sessions_follow_answers (hpos : 0 < threshold) (actions : List (HttpAction κ)) :
    let after := run (AioHttpTransport.step threshold) ({} : AioHttpTransport κ) actions
    (∀ id, after.status id = .opened ↔ after.session = some id) ∧
    (∀ caller, ∃ id, (after.client caller).tasks caller = .requesting id ∧
      (after.client caller).status id = .opened) ∧
    (∀ caller, after.lock = some caller ↔ (after.tasks caller).holds = true) ∧
    after.consecutiveDnsFailures =
      Mark.row (after.answers.map HttpAnswer.mark) % threshold ∧
    ∃ rebuilding : Finset κ,
      (∀ caller, caller ∈ rebuilding ↔ (after.tasks caller).rebuilds = true) ∧
      after.connectorRebuilds + rebuilding.card ≤
        Mark.completed threshold (after.answers.map HttpAnswer.mark) ∧
      Mark.completed threshold (after.answers.map HttpAnswer.mark) ≤
        after.connectorRebuilds + rebuilding.card + actions.countP HttpAction.isCancel := by
  obtain ⟨hcurrent, hcounted⟩ := run_current_counted (κ := κ) hpos actions
  exact ⟨hcurrent.opened, hcurrent.client_requests, hcurrent.holder, hcounted.row,
    hcounted.rebuilds⟩

/-- Two callers fail to resolve the name, and the second one's failure replaces the session. -/
theorem sessions_follow_answers_of_two_failures :
    let failure : HttpAnswer :=
      .failure [{ typeName := "clientconnectordnserror".toList, isClientConnectorError := true }]
    let actions : List (HttpAction Bool) := [.getJson true true, .getJson false true, .client true,
      .client false, .answer true failure, .answer false failure, .reset false, .closed false]
    let after := run (AioHttpTransport.step 2) ({} : AioHttpTransport Bool) actions
    after.session = none ∧ after.created = 1 ∧ after.connectorRebuilds = 1 ∧
    after.consecutiveDnsFailures = Mark.row (after.answers.map HttpAnswer.mark) % 2 := by
  intro failure actions after
  exact ⟨rfl, rfl, by decide, (sessions_follow_answers (by decide) actions).2.2.2.1⟩

end AioHttpTransport

end ChainQuantStudio.Exchanges
