import ChainQuantStudio.Library.QueueWorker
import ChainQuantStudio.Signals.Policy
import Mathlib.Tactic.Linarith

/-!
# The notification dispatcher

A queued notification is sent until the transport takes it, refuses it for good, or has failed as
often as is allowed.
-/

namespace ChainQuantStudio.Notifications

open QueueWorker Signals

structure Notification where
  text : String
  signal : Option Signal := none
  deriving DecidableEq, Repr

structure NotificationStats where
  queued : ℕ := 0
  sent : ℕ := 0
  retried : ℕ := 0
  dropped : ℕ := 0
  failed : ℕ := 0
  deriving DecidableEq, Repr

structure DispatcherConfig where
  queueSize : ℕ := 100
  maxAttempts : ℕ := 3
  retryBaseSeconds : ℚ := 1
  maxRetryDelaySeconds : ℚ := 60
  minimumIntervalSeconds : ℚ := 1
  queueSize_pos : 1 ≤ queueSize
  maxAttempts_pos : 1 ≤ maxAttempts
  retryBase_pos : 0 < retryBaseSeconds
  maxRetryDelay_pos : 0 < maxRetryDelaySeconds
  minimumInterval_nonneg : 0 ≤ minimumIntervalSeconds

structure DispatcherMemory where
  stats : NotificationStats := {}
  lastAttemptAt : Option ℚ := none
  sends : List Notification := []
  deriving DecidableEq

/-- Where `_deliver` waits: for the rate limit, for the notifier, or before the next attempt. -/
inductive Phase
  | limiting (attempt : ℕ)
  | sending (attempt : ℕ)
  | sleeping (attempt : ℕ) (delay : ℚ)
  deriving DecidableEq

inductive Outcome
  | returned
  | permanent
  | retryable (retryAfter : Option ℚ)
  | exception
  | baseException
  deriving DecidableEq

/-- How an await ends, and the clock as the rate limit reads it afterwards. -/
structure Resumption where
  outcome : Outcome
  now : ℚ
  attemptAt : ℚ

/-- What became of a notification, and the calls of the notifier for it. -/
structure Delivery where
  sent : Bool
  sends : ℕ
  deriving DecidableEq, Repr

variable (config : DispatcherConfig)

def callNotifier (memory : DispatcherMemory) (notification : Notification) (attempt : ℕ)
    (attemptAt : ℚ) : DispatcherMemory × Handling Phase Delivery :=
  ({ memory with lastAttemptAt := some attemptAt, sends := memory.sends ++ [notification] },
    .suspended (.sending attempt))

/-- `_respect_rate_limit`, up to its sleep or to the call of the notifier. -/
def respectRateLimit (memory : DispatcherMemory) (notification : Notification) (attempt : ℕ)
    (resumption : Resumption) : DispatcherMemory × Handling Phase Delivery :=
  match memory.lastAttemptAt with
  | some last =>
    if 0 < config.minimumIntervalSeconds - (resumption.now - last) then
      (memory, .suspended (.limiting attempt))
    else callNotifier memory notification attempt resumption.attemptAt
  | none => callNotifier memory notification attempt resumption.attemptAt

def giveUp (memory : DispatcherMemory) (sends : ℕ) : DispatcherMemory × Handling Phase Delivery :=
  ({ memory with stats := { memory.stats with failed := memory.stats.failed + 1 } },
    .finished ⟨false, sends⟩)

def retryDelay (attempt : ℕ) : Option ℚ → Option ℚ
  | some retryAfter => some (min retryAfter config.maxRetryDelaySeconds)
  | none =>
    if attempt - 1 < 1024 then
      some (min (config.retryBaseSeconds * 2 ^ (attempt - 1)) config.maxRetryDelaySeconds)
    else none

/-- One turn of the loop of `_deliver` from where it waits; the sleeps raise no notification
errors. -/
def resumeDelivery (memory : DispatcherMemory) (notification : Notification) (phase : Phase)
    (resumption : Resumption) : DispatcherMemory × Handling Phase Delivery :=
  match phase, resumption.outcome with
  | .limiting attempt, .returned =>
    callNotifier memory notification attempt resumption.attemptAt
  | .limiting _, .baseException => (memory, .raised)
  | .limiting attempt, _ => giveUp memory (attempt - 1)
  | .sending attempt, .returned =>
    ({ memory with stats := { memory.stats with sent := memory.stats.sent + 1 } },
      .finished ⟨true, attempt⟩)
  | .sending attempt, .permanent => giveUp memory attempt
  | .sending attempt, .exception => giveUp memory attempt
  | .sending _, .baseException => (memory, .raised)
  | .sending attempt, .retryable retryAfter =>
    if config.maxAttempts ≤ attempt then giveUp memory attempt
    else
      let memory := { memory with stats := { memory.stats with retried := memory.stats.retried + 1 } }
      match retryDelay config attempt retryAfter with
      | some delay => (memory, .suspended (.sleeping attempt delay))
      | none => (memory, .raised)
  | .sleeping attempt _, .returned =>
    respectRateLimit config memory notification (attempt + 1) resumption
  | .sleeping _ _, _ => (memory, .raised)

/-- `publish` formats its signal first, and raises if that does. -/
def dispatcher : Service Notification DispatcherMemory Phase Resumption Delivery where
  size := config.queueSize
  front memory _ returns := (memory, if returns then .offered else .raised)
  accept memory := { memory with stats := { memory.stats with queued := memory.stats.queued + 1 } }
  refuse memory _ _ _ :=
    ({ memory with stats := { memory.stats with dropped := memory.stats.dropped + 1 } }, true)
  begin memory notification resumption := respectRateLimit config memory notification 1 resumption
  resume := resumeDelivery config
  closeFailed memory := { memory with stats := { memory.stats with failed := memory.stats.failed + 1 } }

abbrev DispatcherState := State Notification DispatcherMemory Phase Delivery

def Phase.sends : Phase → ℕ
  | .limiting attempt => attempt - 1
  | .sending attempt => attempt
  | .sleeping attempt _ => attempt

def Phase.Allowed (phase : Phase) : Prop :=
  match phase with
  | .limiting attempt => 1 ≤ attempt ∧ attempt ≤ config.maxAttempts
  | .sending attempt => 1 ≤ attempt ∧ attempt ≤ config.maxAttempts
  | .sleeping attempt _ => attempt < config.maxAttempts

def sendsFor (handed : List (Notification × Delivery)) : List Notification :=
  handed.flatMap fun entry => List.replicate entry.2.sends entry.1

structure Accounts (memory : DispatcherMemory) (published : List (Notification × Fate))
    (handed : List (Notification × Delivery)) (work : Option (Notification × Phase))
    (failures : ℕ) : Prop where
  queued : memory.stats.queued = published.countP (·.2 = .queued)
  dropped : memory.stats.dropped = published.countP (·.2 = .refused)
  sent : memory.stats.sent = handed.countP (·.2.sent)
  failed : memory.stats.failed = handed.countP (¬ ·.2.sent) + failures
  sends : memory.sends = sendsFor handed ++
    (work.toList.flatMap fun entry => List.replicate entry.2.sends entry.1)
  attempts : ∀ entry ∈ handed, entry.2.sends ≤ config.maxAttempts
  allowed : ∀ entry ∈ work, entry.2.Allowed config

variable {config}

theorem accounts_init : Accounts config {} [] [] none 0 := by
  refine ⟨rfl, rfl, rfl, rfl, rfl, by simp, by simp⟩

variable {memory : DispatcherMemory} {published : List (Notification × Fate)}
  {handed : List (Notification × Delivery)} {failures : ℕ} {notification : Notification}

theorem sendsFor_append (entry : Notification × Delivery) :
    sendsFor (handed ++ [entry]) = sendsFor handed ++ List.replicate entry.2.sends entry.1 := by
  simp [sendsFor, List.flatMap_append]

theorem Accounts.first (h : Accounts config memory published handed none failures) :
    Accounts config memory published handed (some (notification, .limiting 1)) failures := by
  refine { h with sends := ?_, allowed := ?_ }
  · simpa [Phase.sends] using h.sends
  · intro entry hentry
    cases hentry
    exact ⟨le_rfl, config.maxAttempts_pos⟩

theorem Accounts.next {attempt : ℕ} {delay : ℚ}
    (h : Accounts config memory published handed (some (notification, .sleeping attempt delay))
      failures) :
    Accounts config memory published handed (some (notification, .limiting (attempt + 1)))
      failures := by
  have hlt : attempt < config.maxAttempts := h.allowed _ rfl
  refine { h with sends := ?_, allowed := ?_ }
  · simpa [Phase.sends] using h.sends
  · intro entry hentry
    cases hentry
    exact ⟨Nat.le_add_left 1 attempt, hlt⟩

theorem Accounts.callNotifier {attempt : ℕ} {attemptAt : ℚ}
    (h : Accounts config memory published handed (some (notification, .limiting attempt)) failures) :
    State.Settled (Accounts config) published handed failures notification
      (callNotifier memory notification attempt attemptAt) := by
  obtain ⟨hfirst, hlast⟩ : 1 ≤ attempt ∧ attempt ≤ config.maxAttempts := h.allowed _ rfl
  refine { h with sends := ?_, allowed := ?_ }
  · have hsends := h.sends
    simp only [Phase.sends, Option.toList_some, List.flatMap_cons, List.flatMap_nil,
      List.append_nil] at hsends ⊢
    obtain ⟨before, rfl⟩ : ∃ before, attempt = before + 1 := ⟨attempt - 1, by omega⟩
    rw [hsends, List.append_assoc, List.replicate_succ', Nat.add_sub_cancel]
  · intro entry hentry
    cases hentry
    exact ⟨hfirst, hlast⟩

theorem Accounts.respectRateLimit {attempt : ℕ} {resumption : Resumption}
    (h : Accounts config memory published handed (some (notification, .limiting attempt)) failures) :
    State.Settled (Accounts config) published handed failures notification
      (respectRateLimit config memory notification attempt resumption) := by
  unfold Notifications.respectRateLimit
  split
  · split
    · exact h
    · exact h.callNotifier
  · exact h.callNotifier

theorem Accounts.finish {phase : Phase} {memory' : DispatcherMemory} {delivery : Delivery}
    (h : Accounts config memory published handed (some (notification, phase)) failures)
    (hsends : phase.sends = delivery.sends) (hattempts : delivery.sends ≤ config.maxAttempts)
    (hcalls : memory'.sends = memory.sends)
    (hqueued : memory'.stats.queued = memory.stats.queued)
    (hdropped : memory'.stats.dropped = memory.stats.dropped)
    (hsent : memory'.stats.sent = memory.stats.sent + if delivery.sent then 1 else 0)
    (hfailed : memory'.stats.failed = memory.stats.failed + if delivery.sent then 0 else 1) :
    Accounts config memory' published (handed ++ [(notification, delivery)]) none failures := by
  refine ⟨by rw [hqueued, h.queued], by rw [hdropped, h.dropped], ?_, ?_, ?_, ?_, by simp⟩
  · rw [hsent, h.sent, List.countP_append, List.countP_singleton]
  · rw [hfailed, h.failed, List.countP_append, List.countP_singleton]
    cases delivery.sent
    · simp only [Bool.false_eq_true, if_false, not_false_eq_true, decide_true, if_true]
      omega
    · simp
  · rw [hcalls, h.sends, sendsFor_append]
    simp [hsends]
  · intro entry hentry
    rcases List.mem_append.mp hentry with hold | hnew
    · exact h.attempts entry hold
    · rw [List.mem_singleton.mp hnew]
      exact hattempts

theorem Accounts.giveUp {phase : Phase} {sends : ℕ}
    (h : Accounts config memory published handed (some (notification, phase)) failures)
    (hsends : phase.sends = sends) (hattempts : sends ≤ config.maxAttempts) :
    State.Settled (Accounts config) published handed failures notification (giveUp memory sends) :=
  h.finish hsends hattempts rfl rfl rfl rfl rfl

theorem Accounts.resumeDelivery {phase : Phase} {resumption : Resumption}
    (h : Accounts config memory published handed (some (notification, phase)) failures) :
    State.Settled (Accounts config) published handed failures notification
      (resumeDelivery config memory notification phase resumption) := by
  have hallowed : phase.Allowed config := h.allowed _ rfl
  unfold Notifications.resumeDelivery
  split
  · exact h.callNotifier
  · trivial
  · exact h.giveUp rfl (by have := hallowed.2; omega)
  · exact h.finish rfl hallowed.2 rfl rfl rfl rfl rfl
  · exact h.giveUp rfl hallowed.2
  · exact h.giveUp rfl hallowed.2
  · trivial
  · split
    · exact h.giveUp rfl hallowed.2
    · rename_i attempt retryAfter hphase houtcome hagain
      simp only
      split
      · refine { h with sends := h.sends, allowed := ?_ }
        intro entry hentry
        cases hentry
        exact not_le.mp hagain
      · trivial
  · exact h.next.respectRateLimit
  · trivial

theorem accounts_keeps : State.Keeps (dispatcher config) (Accounts config) where
  passed h hfront := by
    simp only [dispatcher, Prod.mk.injEq] at hfront
    split at hfront <;> simp at hfront
  accepted := by
    intro memory memory' published handed work failures item returns h hfront
    obtain rfl : memory = memory' := congrArg Prod.fst hfront
    refine { h with queued := ?_, dropped := ?_ }
    · simp [dispatcher, h.queued, List.countP_append]
    · simp [dispatcher, h.dropped, List.countP_append]
  refused := by
    intro memory memory' memory'' published handed work failures item returns full h hfront hrefuse
    obtain rfl : memory = memory' := congrArg Prod.fst hfront
    obtain rfl := congrArg Prod.fst hrefuse
    refine { h with queued := ?_, dropped := ?_ }
    · simp [dispatcher, h.queued, List.countP_append]
    · simp [dispatcher, h.dropped, List.countP_append]
  began _ _ h := h.first.respectRateLimit
  resumed _ _ _ h := h.resumeDelivery
  closeFailed h := { h with failed := by simp [dispatcher, h.failed, Nat.add_assoc] }

end ChainQuantStudio.Notifications
