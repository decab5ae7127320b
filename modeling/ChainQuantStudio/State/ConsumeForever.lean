import ChainQuantStudio.Data.Models
import ChainQuantStudio.Library.Backoff
import ChainQuantStudio.Library.Run
import Mathlib.Algebra.Order.BigOperators.Group.Finset
import Mathlib.Algebra.Order.Field.Rat
import Mathlib.Data.Nat.Log
import Mathlib.Data.Rat.Floor

/-!
# The loops that keep consumers alive

`_consume_forever` runs the generations of an adapter's stream, and `_consume_isolated_lane_forever`
those of one of its lanes. Both count the failures since the last stable generation, remember since
when the consumer is disconnected, and wait before they go on; they differ in when they recover and
in what. Clock readings, failures and the random part of a delay are inputs. Times are seconds of the
event loop's clock.
-/

namespace ChainQuantStudio.State.Supervisor

open Backoff Data Run

structure ReconnectSettings where
  reconnectBaseSeconds : ℚ
  reconnectMaxSeconds : ℚ
  reconnectStableSeconds : ℚ
  reconnectJitterRatio : ℚ
  fullRecoveryAfterSeconds : ℚ
  base_pos : 0 < reconnectBaseSeconds
  stable_pos : 0 < reconnectStableSeconds
  full_pos : 0 < fullRecoveryAfterSeconds
  base_le_max : reconnectBaseSeconds ≤ reconnectMaxSeconds
  jitter_nonneg : 0 ≤ reconnectJitterRatio
  jitter_le_one : reconnectJitterRatio ≤ 1

namespace ReconnectSettings

theorem default_base_pos : (0 : ℚ) < 1 := by norm_num

theorem default_stable_pos : (0 : ℚ) < 60 := by norm_num

theorem default_full_pos : (0 : ℚ) < 300 := by norm_num

theorem default_base_le_max : (1 : ℚ) ≤ 30 := by norm_num

theorem default_jitter_nonneg : (0 : ℚ) ≤ 1 / 4 := by norm_num

theorem default_jitter_le_one : (1 / 4 : ℚ) ≤ 1 := by norm_num

def default : ReconnectSettings where
  reconnectBaseSeconds := 1
  reconnectMaxSeconds := 30
  reconnectStableSeconds := 60
  reconnectJitterRatio := 1 / 4
  fullRecoveryAfterSeconds := 300
  base_pos := default_base_pos
  stable_pos := default_stable_pos
  full_pos := default_full_pos
  base_le_max := default_base_le_max
  jitter_nonneg := default_jitter_nonneg
  jitter_le_one := default_jitter_le_one

variable (settings : ReconnectSettings)

/-- `ceil(log2(maximum / base))`. -/
def maximumExponent : ℕ :=
  Nat.clog 2 ⌈settings.reconnectMaxSeconds / settings.reconnectBaseSeconds⌉₊

def backoff (attempt : ℕ) : ℚ :=
  capped 2 settings.reconnectBaseSeconds settings.reconnectMaxSeconds
    (min (attempt - 1) settings.maximumExponent)

def delay (attempt : ℕ) (jitter : ℚ) : ℚ :=
  jittered settings.reconnectMaxSeconds (settings.backoff attempt) jitter

def doubling (failures : ℕ) : ℚ :=
  capped 2 settings.reconnectBaseSeconds settings.reconnectMaxSeconds failures

theorem backoff_eq (attempt : ℕ) : settings.backoff attempt = settings.doubling (attempt - 1) := by
  have hbase := settings.base_pos
  refine capped_min one_le_two hbase.le ?_ (attempt - 1)
  have hceil : settings.reconnectMaxSeconds / settings.reconnectBaseSeconds ≤
      (⌈settings.reconnectMaxSeconds / settings.reconnectBaseSeconds⌉₊ : ℚ) := Nat.le_ceil _
  have hpow : (⌈settings.reconnectMaxSeconds / settings.reconnectBaseSeconds⌉₊ : ℚ) ≤
      2 ^ settings.maximumExponent := by
    exact_mod_cast Nat.le_pow_clog (by decide) _
  rw [div_le_iff₀ hbase] at hceil
  calc settings.reconnectMaxSeconds
      ≤ (⌈settings.reconnectMaxSeconds / settings.reconnectBaseSeconds⌉₊ : ℚ) *
          settings.reconnectBaseSeconds := hceil
    _ ≤ 2 ^ settings.maximumExponent * settings.reconnectBaseSeconds :=
        mul_le_mul_of_nonneg_right hpow hbase.le
    _ = settings.reconnectBaseSeconds * 2 ^ settings.maximumExponent := mul_comm _ _

theorem doubling_le_delay (attempt : ℕ) {jitter : ℚ} (hjitter : 0 ≤ jitter) :
    settings.doubling (attempt - 1) ≤ settings.delay attempt jitter := by
  rw [← settings.backoff_eq attempt]
  exact le_jittered (capped_le _ _ _ _) hjitter

theorem delay_le (attempt : ℕ) (jitter : ℚ) :
    settings.delay attempt jitter ≤ settings.reconnectMaxSeconds := jittered_le _ _ _

theorem doubling_nonneg (failures : ℕ) : 0 ≤ settings.doubling failures :=
  settings.base_pos.le.trans (base_le_capped one_le_two settings.base_pos.le settings.base_le_max failures)

end ReconnectSettings

structure Break where
  stable : Bool
  failedAt : ℚ
  jitter : ℚ
  deriving DecidableEq, Repr

structure Waiting where
  attempt : ℕ := 0
  disconnectedSince : Option ℚ := none
  resumedAt : ℚ
  deriving DecidableEq, Repr

namespace Waiting

variable (settings : ReconnectSettings)

def fail (waiting : Waiting) (broken : Break) : Waiting :=
  let attempt := (if broken.stable then 0 else waiting.attempt) + 1
  { attempt
    disconnectedSince :=
      if waiting.disconnectedSince = none ∨ broken.stable then some broken.failedAt
      else waiting.disconnectedSince
    resumedAt := broken.failedAt + settings.delay attempt broken.jitter }

/-- The clock goes on, and the random part of the delay is in its range. -/
def InTime (waiting : Waiting) (broken : Break) : Prop :=
  waiting.resumedAt ≤ broken.failedAt ∧ 0 ≤ broken.jitter ∧
    broken.jitter ≤
      settings.backoff (waiting.fail settings broken).attempt * settings.reconnectJitterRatio

def outageSeconds (waiting : Waiting) (now : ℚ) : ℚ :=
  match waiting.disconnectedSince with
  | none => 0
  | some disconnectedSince => max 0 (now - disconnectedSince)

structure Since (breaks : List Break) (since : Break) (rest : List Break) (waiting : Waiting) :
    Prop where
  breaks_eq : ∃ front, breaks = front ++ since :: rest ∧ (front = [] ∨ since.stable = true)
  unstable : ∀ broken ∈ rest, broken.stable = false
  disconnectedSince : waiting.disconnectedSince = some since.failedAt
  attempt : waiting.attempt = rest.length + 1
  elapsed : since.failedAt + ∑ i ∈ Finset.range (rest.length + 1), settings.doubling i ≤
    waiting.resumedAt

variable {settings}

theorem since_of_attempt_one {breaks : List Break} {broken : Break} {waiting : Waiting}
    (hstart : waiting.disconnectedSince = none ∧ breaks = [] ∧ waiting.attempt = 0 ∨
      broken.stable = true) (hin : waiting.InTime settings broken) :
    Since settings (breaks ++ [broken]) broken [] (waiting.fail settings broken) := by
  have hattempt : (waiting.fail settings broken).attempt = 1 := by
    rcases hstart with ⟨-, -, hzero⟩ | hstable
    · simp [fail, hzero]
    · simp [fail, hstable]
  refine ⟨⟨breaks, rfl, ?_⟩, fun _ hmem => absurd hmem List.not_mem_nil, ?_, hattempt, ?_⟩
  · rcases hstart with ⟨-, hnil, -⟩ | hstable
    · exact Or.inl hnil
    · exact Or.inr hstable
  · rcases hstart with ⟨hnone, -, -⟩ | hstable
    · simp [fail, hnone]
    · simp [fail, hstable]
  · have hdelay := settings.doubling_le_delay 1 hin.2.1
    have hresumed : (waiting.fail settings broken).resumedAt =
        broken.failedAt + settings.delay 1 broken.jitter := by
      rw [← hattempt]
      rfl
    rw [hresumed]
    simpa using hdelay

theorem Since.fail {breaks : List Break} {since : Break} {rest : List Break} {waiting : Waiting}
    (h : Since settings breaks since rest waiting) {broken : Break}
    (hin : waiting.InTime settings broken) :
    ∃ since' rest', Since settings (breaks ++ [broken]) since' rest'
      (waiting.fail settings broken) := by
  cases hstable : broken.stable with
  | true => exact ⟨broken, [], since_of_attempt_one (Or.inr hstable) hin⟩
  | false =>
    obtain ⟨front, hbreaks, hfront⟩ := h.breaks_eq
    have hattempt : (waiting.fail settings broken).attempt = rest.length + 2 := by
      simp [Waiting.fail, hstable, h.attempt]
    refine ⟨since, rest ++ [broken], ⟨front, by simp [hbreaks], hfront⟩, fun other hmem => ?_, ?_,
      by simp [hattempt], ?_⟩
    · rcases List.mem_append.mp hmem with hold | hnew
      · exact h.unstable other hold
      · rw [List.mem_singleton.mp hnew]
        exact hstable
    · simp [Waiting.fail, hstable, h.disconnectedSince]
    · have hdelay : settings.doubling (rest.length + 1) ≤
          settings.delay (rest.length + 2) broken.jitter :=
        settings.doubling_le_delay (rest.length + 2) hin.2.1
      have hresumedAt : (waiting.fail settings broken).resumedAt =
          broken.failedAt + settings.delay (rest.length + 2) broken.jitter := by
        rw [← hattempt]
        rfl
      have helapsed := h.elapsed
      have hresumed := hin.1
      rw [List.length_append, List.length_singleton, Finset.sum_range_succ, hresumedAt]
      linarith

theorem since_run {now : ℚ} {breaks : List Break} (hne : breaks ≠ [])
    (h : Guarded (fail settings) (InTime settings) { resumedAt := now } breaks) :
    ∃ since rest,
      Since settings breaks since rest (run (fail settings) { resumedAt := now } breaks) := by
  induction breaks using List.reverseRecOn with
  | nil => exact absurd rfl hne
  | append_singleton breaks broken ih =>
    obtain ⟨hbreaks, hbroken, -⟩ := guarded_append.mp h
    rw [run_append]
    rcases breaks with _ | ⟨first, breaks⟩
    · exact ⟨broken, [], since_of_attempt_one (Or.inl ⟨rfl, rfl, rfl⟩) hbroken⟩
    · obtain ⟨since, rest, hsince⟩ := ih (by simp) hbreaks
      exact hsince.fail hbroken

theorem Since.outageSeconds_eq {breaks : List Break} {since : Break} {rest : List Break}
    {waiting : Waiting} (h : Since settings breaks since rest waiting) {now : ℚ}
    (hnow : waiting.resumedAt ≤ now) :
    waiting.outageSeconds now = now - since.failedAt ∧
      ∑ i ∈ Finset.range (rest.length + 1), settings.doubling i ≤ waiting.outageSeconds now := by
  have hnonneg : 0 ≤ ∑ i ∈ Finset.range (rest.length + 1), settings.doubling i :=
    Finset.sum_nonneg fun i _ => settings.doubling_nonneg i
  have helapsed := h.elapsed.trans hnow
  have houtage : waiting.outageSeconds now = now - since.failedAt := by
    simp only [outageSeconds, h.disconnectedSince]
    exact max_eq_right (by linarith)
  refine ⟨houtage, ?_⟩
  rw [houtage]
  linarith

end Waiting

inductive RecoveryMode
  | orderBook
  | shortDisconnect
  | full
  deriving DecidableEq, Repr

/-- What ends a generation or a recovery: `_OrderBookStreamGap`, or any other exception. -/
inductive Failure
  | orderBookStreamGap (instrument : Instrument)
  | other
  deriving DecidableEq, Repr

/-- A turn of `_consume_forever`. Without a start its recovery has failed. -/
structure Turn where
  measuredAt : ℚ
  startedAt : Option ℚ
  failedAt : ℚ
  failure : Failure
  jitter : ℚ
  deriving DecidableEq, Repr

structure Reconnecting extends Waiting where
  recoveryMode : Option RecoveryMode := none
  deriving DecidableEq, Repr

namespace Turn

def broken (settings : ReconnectSettings) (turn : Turn) : Break where
  stable := turn.startedAt.any fun startedAt =>
    settings.reconnectStableSeconds ≤ turn.failedAt - startedAt
  failedAt := turn.failedAt
  jitter := turn.jitter

/-- The mode that the `except` branch leaves for the next turn. -/
def recoveryMode (turn : Turn) : RecoveryMode :=
  match turn.failure with
  | .orderBookStreamGap _ => .orderBook
  | .other => .shortDisconnect

end Turn

namespace Reconnecting

variable (settings : ReconnectSettings)

def begin (now : ℚ) : Reconnecting := { resumedAt := now }

def effectiveMode (reconnecting : Reconnecting) (mode : RecoveryMode) (now : ℚ) : RecoveryMode :=
  if mode = .shortDisconnect ∧
      settings.fullRecoveryAfterSeconds ≤ reconnecting.outageSeconds now then .full
  else mode

def step (reconnecting : Reconnecting) (turn : Turn) : Reconnecting :=
  { reconnecting.toWaiting.fail settings (turn.broken settings) with
    recoveryMode := some turn.recoveryMode }

/-- The clock goes on, and only a recovery can fail before a start. -/
def InTime (reconnecting : Reconnecting) (turn : Turn) : Prop :=
  reconnecting.resumedAt ≤ turn.measuredAt ∧ turn.measuredAt ≤ turn.failedAt ∧
    (∀ startedAt, turn.startedAt = some startedAt →
      turn.measuredAt ≤ startedAt ∧ startedAt ≤ turn.failedAt) ∧
    (turn.startedAt = none → reconnecting.recoveryMode ≠ none) ∧
    reconnecting.toWaiting.InTime settings (turn.broken settings)

variable {settings}

theorem run_toWaiting (reconnecting : Reconnecting) (turns : List Turn) :
    (run (step settings) reconnecting turns).toWaiting =
      run (Waiting.fail settings) reconnecting.toWaiting (turns.map (Turn.broken settings)) := by
  induction turns generalizing reconnecting with
  | nil => rfl
  | cons turn turns ih => exact ih (reconnecting.step settings turn)

theorem guarded_toWaiting {reconnecting : Reconnecting} {turns : List Turn}
    (h : Guarded (step settings) (InTime settings) reconnecting turns) :
    Guarded (Waiting.fail settings) (Waiting.InTime settings) reconnecting.toWaiting
      (turns.map (Turn.broken settings)) := by
  induction turns generalizing reconnecting with
  | nil => trivial
  | cons turn turns ih => exact ⟨h.1.2.2.2.2, ih h.2⟩

theorem run_recoveryMode (reconnecting : Reconnecting) (turns : List Turn) (last : Turn) :
    (run (step settings) reconnecting (turns ++ [last])).recoveryMode =
      some last.recoveryMode := by
  rw [run_append]
  rfl

/-- In every run a recovery is told an outage that reaches back to the end of the last stable
generation, or to the first failure; all delays since then are in it. A gap in a book alone asks for
its book, anything else for what an outage of this length needs. -/
theorem recovery_reaches_last_stable (settings : ReconnectSettings) (now : ℚ) (turns : List Turn)
    (hin : Guarded (step settings) (InTime settings) (begin now) turns) (before : List Turn)
    (last turn : Turn) (hinitial : before ++ [last] ++ [turn] <+: turns) :
    let reconnecting := run (step settings) (begin now) (before ++ [last])
    ∃ front since rest,
      (before ++ [last]).map (Turn.broken settings) = front ++ since :: rest ∧
      (front = [] ∨ since.stable = true) ∧ (∀ broken ∈ rest, broken.stable = false) ∧
      reconnecting.outageSeconds turn.measuredAt = turn.measuredAt - since.failedAt ∧
      ∑ i ∈ Finset.range (rest.length + 1), settings.doubling i ≤
        reconnecting.outageSeconds turn.measuredAt ∧
      reconnecting.recoveryMode.map
          (reconnecting.effectiveMode settings · turn.measuredAt) =
        some (match last.failure with
          | .orderBookStreamGap _ => .orderBook
          | .other =>
            if settings.fullRecoveryAfterSeconds ≤ turn.measuredAt - since.failedAt then .full
            else .shortDisconnect) := by
  intro reconnecting
  obtain ⟨more, rfl⟩ := hinitial
  obtain ⟨hguarded, hturn, -⟩ := guarded_append.mp (guarded_append.mp hin).1
  obtain ⟨since, rest, hsince⟩ := Waiting.since_run (by simp) (guarded_toWaiting hguarded)
  obtain ⟨front, hfront, hstable⟩ := hsince.breaks_eq
  have hwaiting : reconnecting.toWaiting = run (Waiting.fail settings) { resumedAt := now }
      ((before ++ [last]).map (Turn.broken settings)) := run_toWaiting (begin now) _
  rw [← hwaiting] at hsince
  obtain ⟨houtage, helapsed⟩ := hsince.outageSeconds_eq hturn.1
  refine ⟨front, since, rest, hfront, hstable, hsince.unstable, houtage, helapsed, ?_⟩
  have hmode : reconnecting.recoveryMode = some last.recoveryMode :=
    run_recoveryMode (begin now) before last
  rw [hmode]
  unfold Turn.recoveryMode
  cases last.failure with
  | orderBookStreamGap instrument => simp [effectiveMode]
  | other => simp [effectiveMode, houtage]

/-! A stable generation, a failed recovery, and a generation that is too short. -/

def stableTurn : Turn where
  measuredAt := 0
  startedAt := some 0
  failedAt := 100
  failure := .other
  jitter := 0

def failedRecovery : Turn where
  measuredAt := 101
  startedAt := none
  failedAt := 105
  failure := .other
  jitter := 1 / 4

def shortTurn : Turn where
  measuredAt := 110
  startedAt := some 112
  failedAt := 120
  failure := .other
  jitter := 0

theorem inTime_of_short_turns :
    Guarded (step .default) (InTime .default) (begin 0) [stableTurn, failedRecovery, shortTurn] := by
  refine ⟨⟨by decide +kernel, by decide +kernel, fun startedAt h => ?_, (fun h => by cases h), ?_⟩,
    ⟨by decide +kernel, by decide +kernel, (fun startedAt h => by cases h),
      (fun _ h => by cases h), ?_⟩,
    ⟨by decide +kernel, by decide +kernel, fun startedAt h => ?_, (fun h => by cases h), ?_⟩,
    trivial⟩
  · obtain rfl := Option.some.inj h
    decide +kernel
  · exact ⟨by decide +kernel, by decide +kernel, by decide +kernel⟩
  · exact ⟨by decide +kernel, by decide +kernel, by decide +kernel⟩
  · obtain rfl := Option.some.inj h
    decide +kernel
  · exact ⟨by decide +kernel, by decide +kernel, by decide +kernel⟩

theorem recovery_reaches_last_stable_of_short_turns :
    let reconnecting := run (step .default) (begin 0) ([stableTurn] ++ [failedRecovery])
    ∃ front since rest,
      ([stableTurn] ++ [failedRecovery]).map (Turn.broken .default) = front ++ since :: rest ∧
      (front = [] ∨ since.stable = true) ∧ (∀ broken ∈ rest, broken.stable = false) ∧
      reconnecting.outageSeconds 110 = 110 - since.failedAt ∧
      ∑ i ∈ Finset.range (rest.length + 1), ReconnectSettings.default.doubling i ≤
        reconnecting.outageSeconds 110 ∧
      reconnecting.recoveryMode.map (reconnecting.effectiveMode .default · 110) =
        some (if ReconnectSettings.default.fullRecoveryAfterSeconds ≤ 110 - since.failedAt then
          .full else .shortDisconnect) :=
  recovery_reaches_last_stable .default 0 [stableTurn, failedRecovery, shortTurn]
    inTime_of_short_turns [stableTurn] failedRecovery shortTurn List.prefix_rfl

end Reconnecting

end ChainQuantStudio.State.Supervisor
