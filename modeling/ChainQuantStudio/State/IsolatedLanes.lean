import ChainQuantStudio.State.ConsumeForever
import ChainQuantStudio.State.RecoveryBackfill

/-!
# Lanes that reconnect on their own

`_consume_isolated_lane_forever` keeps one lane of an adapter running. It waits after a failure,
measures the outage, and a lane of candles then recovers them: all of them after a long outage,
otherwise as many bars as the outage has, and two more. A recovery that fails changes nothing, and
the lane is started again.
-/

namespace ChainQuantStudio.State.Supervisor

open Data Run

/-- A generation of a lane, and when the outage was measured after its delay. -/
structure LaneTurn where
  startedAt : ℚ
  failedAt : ℚ
  jitter : ℚ
  measuredAt : ℚ
  deriving DecidableEq, Repr

namespace LaneTurn

variable (settings : ReconnectSettings)

def broken (turn : LaneTurn) : Break where
  stable := settings.reconnectStableSeconds ≤ turn.failedAt - turn.startedAt
  failedAt := turn.failedAt
  jitter := turn.jitter

def step (waiting : Waiting) (turn : LaneTurn) : Waiting :=
  waiting.fail settings (turn.broken settings)

/-- `max(0.0, now - (disconnected_since or now))`: a clock reading of zero counts as none. -/
def outageSeconds (waiting : Waiting) (now : ℚ) : ℚ :=
  max 0 (now - (waiting.disconnectedSince.filter (· ≠ 0)).getD now)

def recovery (waiting : Waiting) (now : ℚ) : RecoveryMode :=
  if settings.fullRecoveryAfterSeconds ≤ outageSeconds waiting now then .full else .shortDisconnect

def InTime (waiting : Waiting) (turn : LaneTurn) : Prop :=
  waiting.resumedAt ≤ turn.startedAt ∧ turn.startedAt ≤ turn.failedAt ∧
    (step settings waiting turn).resumedAt ≤ turn.measuredAt ∧
    waiting.InTime settings (turn.broken settings)

variable {settings}

theorem outageSeconds_eq {waiting : Waiting} {since : ℚ}
    (h : waiting.disconnectedSince = some since) (hne : since ≠ 0) (now : ℚ) :
    outageSeconds waiting now = waiting.outageSeconds now := by
  have hfilter : (some since).filter (· ≠ 0) = some since := by
    rw [Option.filter_eq_some_iff]
    exact ⟨rfl, decide_eq_true hne⟩
  simp only [outageSeconds, Waiting.outageSeconds, h, hfilter, Option.getD_some]

theorem run_eq (waiting : Waiting) (turns : List LaneTurn) :
    run (step settings) waiting turns =
      run (Waiting.fail settings) waiting (turns.map (broken settings)) := by
  induction turns generalizing waiting with
  | nil => rfl
  | cons turn turns ih => exact ih (step settings waiting turn)

theorem guarded_waiting {waiting : Waiting} {turns : List LaneTurn}
    (h : Guarded (step settings) (InTime settings) waiting turns) :
    Guarded (Waiting.fail settings) (Waiting.InTime settings) waiting
      (turns.map (broken settings)) := by
  induction turns generalizing waiting with
  | nil => trivial
  | cons turn turns ih => exact ⟨h.1.2.2.2, ih h.2⟩

end LaneTurn

theorem Waiting.le_failedAt {settings : ReconnectSettings} {waiting : Waiting}
    {breaks : List Break}
    (h : Guarded (Waiting.fail settings) (Waiting.InTime settings) waiting breaks) :
    ∀ broken ∈ breaks, waiting.resumedAt ≤ broken.failedAt := by
  induction breaks generalizing waiting with
  | nil => exact fun _ hmem => absurd hmem List.not_mem_nil
  | cons first breaks ih =>
    intro broken hmem
    rcases List.mem_cons.mp hmem with rfl | hmem
    · exact h.1.1
    · have hdelay := settings.doubling_le_delay (waiting.fail settings first).attempt h.1.2.1
      have hnonneg := settings.doubling_nonneg ((waiting.fail settings first).attempt - 1)
      have hresumed : (waiting.fail settings first).resumedAt =
          first.failedAt + settings.delay (waiting.fail settings first).attempt first.jitter := rfl
      calc waiting.resumedAt
          ≤ first.failedAt := h.1.1
        _ ≤ (waiting.fail settings first).resumedAt := by linarith
        _ ≤ broken.failedAt := ih h.2 broken hmem

theorem le_recoveryLimit_mul (candleWarmupSize : ℕ) (outage : ℚ) {duration : ℤ}
    (hduration : 0 < duration) :
    min (candleWarmupSize * totalSeconds duration) (outage + 2 * totalSeconds duration) ≤
      Candles.recoveryLimit candleWarmupSize outage duration * totalSeconds duration := by
  have hpos : 0 < totalSeconds duration := by
    unfold totalSeconds
    have : (0 : ℚ) < duration := by exact_mod_cast hduration
    positivity
  have hceil : outage / totalSeconds duration ≤ (⌈outage / totalSeconds duration⌉ : ℚ) :=
    Int.le_ceil _
  rw [div_le_iff₀ hpos] at hceil
  unfold Candles.recoveryLimit
  rcases min_cases (candleWarmupSize : ℤ) (max 2 (⌈outage / totalSeconds duration⌉ + 2)) with
    ⟨hmin, -⟩ | ⟨hmin, -⟩
  · rw [hmin]
    exact min_le_of_left_le (by push_cast; exact le_rfl)
  · rw [hmin]
    refine min_le_of_right_le ?_
    have hmax : ⌈outage / totalSeconds duration⌉ + 2 ≤
        max 2 (⌈outage / totalSeconds duration⌉ + 2) := le_max_right _ _
    have hcast : (⌈outage / totalSeconds duration⌉ : ℚ) + 2 ≤
        ((max 2 (⌈outage / totalSeconds duration⌉ + 2) : ℤ) : ℚ) := by exact_mod_cast hmax
    calc outage + 2 * totalSeconds duration
        ≤ ((⌈outage / totalSeconds duration⌉ : ℚ) + 2) * totalSeconds duration := by linarith
      _ ≤ _ := mul_le_mul_of_nonneg_right hcast hpos.le

namespace LaneTurn

/-- In every run of a lane a recovery takes everything when the end of the last stable generation,
or the first failure, is long ago. Otherwise the bars that it asks for reach back past that moment,
or are as many as the stores hold. -/
theorem lane_recovers_since_last_stable (settings : ReconnectSettings) (now : ℚ) (hnow : 0 < now)
    (turns : List LaneTurn)
    (hin : Guarded (step settings) (InTime settings) { resumedAt := now } turns)
    (before : List LaneTurn) (last : LaneTurn) (hinitial : before ++ [last] <+: turns)
    (candleWarmupSize : ℕ) (duration : ℤ) (hduration : 0 < duration) :
    let waiting := run (step settings) { resumedAt := now } (before ++ [last])
    ∃ front since rest,
      (before ++ [last]).map (broken settings) = front ++ since :: rest ∧
      (front = [] ∨ since.stable = true) ∧ (∀ broken ∈ rest, broken.stable = false) ∧
      recovery settings waiting last.measuredAt =
        (if settings.fullRecoveryAfterSeconds ≤ last.measuredAt - since.failedAt then .full
          else .shortDisconnect) ∧
      min (candleWarmupSize * totalSeconds duration)
          (last.measuredAt - since.failedAt + 2 * totalSeconds duration) ≤
        Candles.recoveryLimit candleWarmupSize (outageSeconds waiting last.measuredAt) duration *
          totalSeconds duration := by
  intro waiting
  obtain ⟨more, rfl⟩ := hinitial
  obtain ⟨hguarded, -⟩ := guarded_append.mp hin
  have hmeasured : waiting.resumedAt ≤ last.measuredAt := by
    obtain ⟨-, hlast, -⟩ := guarded_append.mp hguarded
    have hwaiting : waiting = step settings (run (step settings) { resumedAt := now } before) last := by
      simp only [waiting, run_append, run_cons, run_nil]
    rw [hwaiting]
    exact hlast.2.2.1
  have hbreaks := guarded_waiting hguarded
  obtain ⟨since, rest, hsince⟩ := Waiting.since_run (by simp) hbreaks
  rw [← run_eq] at hsince
  obtain ⟨front, hfront, hstable⟩ := hsince.breaks_eq
  have hfailed : 0 < since.failedAt :=
    hnow.trans_le (Waiting.le_failedAt hbreaks since (by simp [hfront]))
  have houtage : outageSeconds waiting last.measuredAt = last.measuredAt - since.failedAt := by
    obtain ⟨hsame, -⟩ := hsince.outageSeconds_eq hmeasured
    rw [← hsame]
    exact outageSeconds_eq hsince.disconnectedSince hfailed.ne' _
  refine ⟨front, since, rest, hfront, hstable, hsince.unstable, ?_, ?_⟩
  · rw [recovery, houtage]
  · rw [houtage]
    exact le_recoveryLimit_mul candleWarmupSize _ hduration

/-! Two generations that are too short. -/

def firstLaneTurn : LaneTurn where
  startedAt := 1
  failedAt := 31
  jitter := 0
  measuredAt := 32

def secondLaneTurn : LaneTurn where
  startedAt := 33
  failedAt := 63
  jitter := 0
  measuredAt := 65

theorem inTime_of_two_lane_turns :
    Guarded (step .default) (InTime .default) { resumedAt := 1 }
      [firstLaneTurn, secondLaneTurn] :=
  ⟨⟨by decide +kernel, by decide +kernel, by decide +kernel, by decide +kernel, by decide +kernel,
      by decide +kernel⟩,
    ⟨by decide +kernel, by decide +kernel, by decide +kernel, by decide +kernel, by decide +kernel,
      by decide +kernel⟩, trivial⟩

theorem lane_recovers_since_last_stable_of_two_turns :
    let waiting := run (step .default) { resumedAt := 1 } ([firstLaneTurn] ++ [secondLaneTurn])
    ∃ front since rest,
      ([firstLaneTurn] ++ [secondLaneTurn]).map (broken .default) = front ++ since :: rest ∧
      (front = [] ∨ since.stable = true) ∧ (∀ broken ∈ rest, broken.stable = false) ∧
      recovery .default waiting 65 =
        (if ReconnectSettings.default.fullRecoveryAfterSeconds ≤ 65 - since.failedAt then .full
          else .shortDisconnect) ∧
      min ((200 : ℕ) * totalSeconds 60000000) (65 - since.failedAt + 2 * totalSeconds 60000000) ≤
        Candles.recoveryLimit 200 (outageSeconds waiting 65) 60000000 * totalSeconds 60000000 :=
  lane_recovers_since_last_stable .default 1 (by decide +kernel) [firstLaneTurn, secondLaneTurn]
    inTime_of_two_lane_turns [firstLaneTurn] secondLaneTurn List.prefix_rfl 200 60000000
    (by decide)

end LaneTurn

end ChainQuantStudio.State.Supervisor
