import ChainQuantStudio.Library.Backoff
import ChainQuantStudio.Library.Json
import Mathlib.Algebra.Order.Field.Rat
import Mathlib.Tactic.NormNum

/-!
# Retried requests

`retry_exchange_call` calls an operation again after an error that is marked as retryable, with a
delay that the server asks for or that doubles. The client of the aggregate provider has a loop of
its own for that. What an attempt ends with and the random part of a delay are inputs; the random
number of a delay lies between zero and one.
-/

namespace ChainQuantStudio.Exchanges

open Backoff

structure RetryPolicy where
  maxAttempts : ℕ
  baseDelaySeconds : ℚ
  maxDelaySeconds : ℚ
  jitterRatio : ℚ
  one_le_attempts : 1 ≤ maxAttempts
  attempts_le_ten : maxAttempts ≤ 10
  base_pos : 0 < baseDelaySeconds
  base_le_max : baseDelaySeconds ≤ maxDelaySeconds
  jitter_nonneg : 0 ≤ jitterRatio
  jitter_le_one : jitterRatio ≤ 1

/-- What one call of an operation ends with. -/
inductive Attempt (α ε : Type*)
  | returned (value : α)
  | retryable (error : ε) (retryAfter : Option ℚ)
  | raised (error : ε)
  deriving DecidableEq, Repr

namespace RetryPolicy

variable (policy : RetryPolicy) {α ε : Type*}

def delay (attempt : ℕ) (retryAfter : Option ℚ) (random : ℚ) : ℚ :=
  match retryAfter with
  | some retryAfter => min policy.maxDelaySeconds (max 0 retryAfter)
  | none =>
    let backoff := capped 2 policy.baseDelaySeconds policy.maxDelaySeconds (attempt - 1)
    jittered policy.maxDelaySeconds backoff (random * (backoff * policy.jitterRatio))

def leastDelay (attempt : ℕ) : Option ℚ → ℚ
  | some retryAfter => min policy.maxDelaySeconds (max 0 retryAfter)
  | none => capped 2 policy.baseDelaySeconds policy.maxDelaySeconds (attempt - 1)

theorem leastDelay_le (attempt : ℕ) (retryAfter : Option ℚ) {random : ℚ} (hrandom : 0 ≤ random) :
    policy.leastDelay attempt retryAfter ≤ policy.delay attempt retryAfter random := by
  cases retryAfter with
  | some retryAfter => exact le_rfl
  | none =>
    have hbackoff : 0 ≤ capped 2 policy.baseDelaySeconds policy.maxDelaySeconds (attempt - 1) :=
      policy.base_pos.le.trans (base_le_capped one_le_two policy.base_pos.le policy.base_le_max _)
    exact le_jittered (capped_le _ _ _ _)
      (mul_nonneg hrandom (mul_nonneg hbackoff policy.jitter_nonneg))

theorem delay_le (attempt : ℕ) (retryAfter : Option ℚ) (random : ℚ) :
    policy.delay attempt retryAfter random ≤ policy.maxDelaySeconds := by
  cases retryAfter with
  | some retryAfter => exact min_le_left _ _
  | none => exact jittered_le _ _ _

def retryFrom (operation : ℕ → Attempt α ε) (random : ℕ → ℚ) (attempt : ℕ) :
    ℕ → List ℚ × Except ε α
  | 0 =>
    match operation attempt with
    | .returned value => ([], .ok value)
    | .retryable error _ | .raised error => ([], .error error)
  | left + 1 =>
    match operation attempt with
    | .returned value => ([], .ok value)
    | .raised error => ([], .error error)
    | .retryable _ retryAfter =>
      let (slept, result) := retryFrom operation random (attempt + 1) left
      (policy.delay attempt retryAfter (random attempt) :: slept, result)

def retryExchangeCall (operation : ℕ → Attempt α ε) (random : ℕ → ℚ) : List ℚ × Except ε α :=
  policy.retryFrom operation random 1 (policy.maxAttempts - 1)

end RetryPolicy

structure CoinGlassClient where
  maxAttempts : ℕ := 3
  retryBaseSeconds : ℚ
  retryMaxSeconds : ℚ
  one_le_attempts : 1 ≤ maxAttempts
  attempts_le_ten : maxAttempts ≤ 10
  base_pos : 0 < retryBaseSeconds
  base_le_max : retryBaseSeconds ≤ retryMaxSeconds

namespace CoinGlassClient

variable (client : CoinGlassClient)

/-- The checks of a response. `str` is Python's text of a decoded value. -/
def check (str : Json → String) (payload : Json) : Except String Json :=
  match payload with
  | .obj fields =>
    if str ((fields.lookup "code").getD .null) ≠ "0" then
      .error "CoinGlass rejected the market-data request"
    else .ok payload
  | _ => .error "CoinGlass response is not an object"

/-- An attempt of `_request`: what the transport does, and the checks of what it returns. -/
def checked (str : Json → String) (fetched : Attempt Json String) : Attempt Json String :=
  match fetched with
  | .returned payload =>
    match check str payload with
    | .ok payload => .returned payload
    | .error message => .raised message
  | ended => ended

/-- The loop of `_request` from an attempt on, which comes after `_limiter.acquire()`. -/
def requestFrom (str : Json → String) (fetched : ℕ → Attempt Json String) (random : ℕ → ℚ)
    (attempt : ℕ) : ℕ → List ℚ × Except String Json
  | 0 =>
    match fetched attempt with
    | .returned payload => ([], check str payload)
    | .retryable error _ | .raised error => ([], .error error)
  | left + 1 =>
    match fetched attempt with
    | .returned payload => ([], check str payload)
    | .raised error => ([], .error error)
    | .retryable _ retryAfter =>
      let delay :=
        match retryAfter with
        | some retryAfter => min client.retryMaxSeconds (max 0 retryAfter)
        | none =>
          let backoff := min client.retryMaxSeconds (client.retryBaseSeconds * 2 ^ (attempt - 1))
          min client.retryMaxSeconds (backoff + random attempt * (backoff / 4))
      let (slept, result) := requestFrom str fetched random (attempt + 1) left
      (delay :: slept, result)

def request (str : Json → String) (fetched : ℕ → Attempt Json String) (random : ℕ → ℚ) :
    List ℚ × Except String Json :=
  client.requestFrom str fetched random 1 (client.maxAttempts - 1)

theorem quarter_nonneg : (0 : ℚ) ≤ 1 / 4 := by norm_num

theorem quarter_le_one : (1 / 4 : ℚ) ≤ 1 := by norm_num

/-- The policy that the loop follows. -/
def policy : RetryPolicy where
  maxAttempts := client.maxAttempts
  baseDelaySeconds := client.retryBaseSeconds
  maxDelaySeconds := client.retryMaxSeconds
  jitterRatio := 1 / 4
  one_le_attempts := client.one_le_attempts
  attempts_le_ten := client.attempts_le_ten
  base_pos := client.base_pos
  base_le_max := client.base_le_max
  jitter_nonneg := quarter_nonneg
  jitter_le_one := quarter_le_one

end CoinGlassClient

namespace RetryPolicy

variable (policy : RetryPolicy) {α ε : Type*}

/-- A call that ends with an attempt: those before it failed retryably and were slept after. -/
structure EndsAt (operation : ℕ → Attempt α ε) (random : ℕ → ℚ) (first last : ℕ)
    (outcome : List ℚ × Except ε α) : Prop where
  first_le : first ≤ last
  before : ∀ attempt, first ≤ attempt → attempt < last → ∃ error retryAfter,
    operation attempt = .retryable error retryAfter ∧
      outcome.1[attempt - first]? = some (policy.delay attempt retryAfter (random attempt))
  slept : outcome.1.length = last - first
  result : outcome.2 = match operation last with
    | .returned value => .ok value
    | .retryable error _ | .raised error => .error error

variable {policy} {operation : ℕ → Attempt α ε} {random : ℕ → ℚ}

theorem endsAt_here {attempt : ℕ} {result : Except ε α}
    (hresult : result = match operation attempt with
      | .returned value => .ok value
      | .retryable error _ | .raised error => .error error) :
    policy.EndsAt operation random attempt attempt ([], result) where
  first_le := le_rfl
  before _ hle hlt := absurd hle (not_le.mpr hlt)
  slept := (Nat.sub_self attempt).symm
  result := hresult

theorem EndsAt.cons {attempt last : ℕ} {slept : List ℚ} {result : Except ε α}
    (h : policy.EndsAt operation random (attempt + 1) last (slept, result)) {error : ε}
    {retryAfter : Option ℚ} (hretry : operation attempt = .retryable error retryAfter) :
    policy.EndsAt operation random attempt last
      (policy.delay attempt retryAfter (random attempt) :: slept, result) where
  first_le := (Nat.le_succ attempt).trans h.first_le
  before other hle hlt := by
    rcases hle.eq_or_lt with rfl | hlater
    · exact ⟨error, retryAfter, hretry, by rw [Nat.sub_self]; rfl⟩
    · obtain ⟨error', retryAfter', hother, hdelay⟩ := h.before other hlater hlt
      refine ⟨error', retryAfter', hother, ?_⟩
      have hindex : other - attempt = other - (attempt + 1) + 1 := by omega
      rw [hindex]
      exact hdelay
  slept := by
    have hlength : slept.length = last - (attempt + 1) := h.slept
    have hle : attempt + 1 ≤ last := h.first_le
    simp only [List.length_cons]
    omega
  result := h.result

theorem retryFrom_endsAt (operation : ℕ → Attempt α ε) (random : ℕ → ℚ) (attempt left : ℕ) :
    ∃ last, last ≤ attempt + left ∧
      policy.EndsAt operation random attempt last
        (policy.retryFrom operation random attempt left) ∧
      (last < attempt + left → ∀ error retryAfter,
        operation last ≠ .retryable error retryAfter) := by
  induction left generalizing attempt with
  | zero =>
    refine ⟨attempt, le_rfl, ?_, fun hlt => absurd hlt (lt_irrefl _)⟩
    unfold retryFrom
    cases hended : operation attempt <;> exact endsAt_here (by rw [hended])
  | succ left ih =>
    unfold retryFrom
    cases hended : operation attempt with
    | returned value =>
      refine ⟨attempt, Nat.le_add_right _ _, endsAt_here (by rw [hended]), fun _ error after => ?_⟩
      rw [hended]
      exact fun h => by cases h
    | raised raised =>
      refine ⟨attempt, Nat.le_add_right _ _, endsAt_here (by rw [hended]), fun _ error after => ?_⟩
      rw [hended]
      exact fun h => by cases h
    | retryable error retryAfter =>
      obtain ⟨last, hle, hends, hlast⟩ := ih (attempt + 1)
      exact ⟨last, by omega, hends.cons hended, fun hlt => hlast (by omega)⟩

end RetryPolicy

namespace CoinGlassClient

variable (client : CoinGlassClient)

theorem requestFrom_eq (str : Json → String) (fetched : ℕ → Attempt Json String) (random : ℕ → ℚ)
    (attempt left : ℕ) :
    client.requestFrom str fetched random attempt left =
      client.policy.retryFrom (fun n => checked str (fetched n)) random attempt left := by
  induction left generalizing attempt with
  | zero =>
    unfold requestFrom RetryPolicy.retryFrom checked
    cases hfetched : fetched attempt with
    | returned payload =>
      dsimp only
      cases check str payload <;> rfl
    | retryable error retryAfter => rfl
    | raised error => rfl
  | succ left ih =>
    unfold requestFrom RetryPolicy.retryFrom
    rw [ih]
    cases hfetched : fetched attempt with
    | returned payload =>
      simp only [checked]
      cases check str payload <;> rfl
    | raised error => rfl
    | retryable error retryAfter =>
      cases retryAfter with
      | some retryAfter => rfl
      | none =>
        simp only [checked, RetryPolicy.delay, jittered, capped, policy, mul_one_div]

/-- The loop of the client is the common one under its policy: it ends with an attempt whose
predecessors all failed retryably, each slept after by its delay, with the last allowed one or one
that did not fail so. -/
theorem request_retries (str : Json → String) (fetched : ℕ → Attempt Json String)
    (random : ℕ → ℚ) :
    client.request str fetched random =
        client.policy.retryExchangeCall (fun n => checked str (fetched n)) random ∧
      ∃ last, 1 ≤ last ∧ last ≤ client.maxAttempts ∧
        client.policy.EndsAt (fun n => checked str (fetched n)) random 1 last
          (client.request str fetched random) ∧
        (last < client.maxAttempts → ∀ error retryAfter,
          checked str (fetched last) ≠ .retryable error retryAfter) := by
  have heq : client.request str fetched random =
      client.policy.retryExchangeCall (fun n => checked str (fetched n)) random :=
    client.requestFrom_eq str fetched random 1 _
  have hattempts : 1 + (client.maxAttempts - 1) = client.maxAttempts := by
    have hone := client.one_le_attempts
    omega
  obtain ⟨last, hle, hends, hlast⟩ := client.policy.retryFrom_endsAt
    (fun n => checked str (fetched n)) random 1 (client.maxAttempts - 1)
  rw [hattempts] at hle hlast
  refine ⟨heq, last, hends.first_le, hle, ?_, hlast⟩
  rw [heq]
  exact hends

end CoinGlassClient

end ChainQuantStudio.Exchanges
