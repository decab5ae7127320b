import ChainQuantStudio.Exchanges.RateLimiter
import ChainQuantStudio.Exchanges.Retry

/-!
# Requests of an adapter

The requests of an adapter run side by side. Each of their attempts first acquires the limiter and
then calls the transport; after a retryable error a request sleeps and tries again. Requests may be
cancelled wherever they wait. What the transport answers to an attempt is an input.
-/

namespace ChainQuantStudio.Exchanges

open AsyncRateLimiter Run SlidingWindow

namespace AsyncRateLimiter

section Callers

variable {κ R : Type*}

/-- The caller is in `acquire`. -/
def Waits (s : State κ R) (caller : κ) : Prop := caller ∈ s.waiting ∨ s.holder = some caller

def Moves (before after : State κ R) (caller : κ) (now : R) : Prop :=
  after.cancelled = before.cancelled ∧
  ((after.granted = before.granted ++ [(caller, now)] ∧
      ∀ other, Waits after other ↔ Waits before other ∧ other ≠ caller) ∨
    (after.granted = before.granted ∧ ∀ other, Waits after other ↔ Waits before other))

theorem waiting_nodup {s : State κ R} (h : (places s).Nodup) : s.waiting.Nodup :=
  (List.nodup_append.mp (List.nodup_append.mp h).2.1).1

theorem holder_not_waiting {s : State κ R} (h : (places s).Nodup) {caller : κ}
    (hholder : s.holder = some caller) : caller ∉ s.waiting := by
  intro hmem
  rw [places, hholder] at h
  exact (List.nodup_cons.mp (by exact h)).1 (List.mem_append_left _ hmem)

variable [AddCommGroup R] [LinearOrder R] {limiter : AsyncRateLimiter R}

theorem pass_cases (limiter : AsyncRateLimiter R) (s : State κ R) (caller : κ) (now : R) :
    (limiter.pass s caller now).cancelled = s.cancelled ∧
      (limiter.pass s caller now).waiting = s.waiting ∧
      (((limiter.pass s caller now).granted = s.granted ++ [(caller, now)] ∧
          (limiter.pass s caller now).holder = none) ∨
        ((limiter.pass s caller now).granted = s.granted ∧
          (limiter.pass s caller now).holder = some caller)) := by
  unfold pass
  dsimp only
  split_ifs
  · exact ⟨rfl, rfl, Or.inl ⟨rfl, rfl⟩⟩
  · exact ⟨rfl, rfl, Or.inr ⟨rfl, rfl⟩⟩

variable [DecidableEq κ] {s : State κ R} {caller : κ} {now : R}

theorem moves_enter (hplaces : (places s).Nodup) :
    Moves s (limiter.step s (.enter caller now)) caller now := by
  unfold step
  dsimp only
  split_ifs with hfree
  · have hmem (other : κ) : other ∈ s.waiting.erase caller ↔
        other ∈ s.waiting ∧ other ≠ caller := by
      rw [(waiting_nodup hplaces).mem_erase_iff]
      exact and_comm
    obtain ⟨hcancelled, hwaiting, hcases⟩ :=
      limiter.pass_cases { s with waiting := s.waiting.erase caller } caller now
    generalize limiter.pass { s with waiting := s.waiting.erase caller } caller now = after at *
    refine ⟨hcancelled, ?_⟩
    rcases hcases with ⟨hgranted, hholder⟩ | ⟨hgranted, hholder⟩
    · refine Or.inl ⟨hgranted, fun other => ?_⟩
      simp only [Waits, hwaiting, hholder, hfree.1, hmem, reduceCtorEq, or_false]
    · refine Or.inr ⟨hgranted, fun other => ?_⟩
      simp only [Waits, hwaiting, hholder, hfree.1, hmem, reduceCtorEq, or_false, Option.some.injEq]
      by_cases hother : other = caller
      · simp [hother, hfree.2]
      · simp [hother, Ne.symm hother]
  · exact ⟨rfl, Or.inr ⟨rfl, fun _ => Iff.rfl⟩⟩

theorem moves_wake (hplaces : (places s).Nodup) (hholder : s.holder = some caller) :
    Moves s (limiter.step s (.wake now)) caller now := by
  have hnot := holder_not_waiting hplaces hholder
  have hstep : limiter.step s (.wake now) = limiter.pass s caller now := by
    simp only [step, hholder]
  rw [hstep]
  obtain ⟨hcancelled, hwaiting, hcases⟩ := limiter.pass_cases s caller now
  refine ⟨hcancelled, ?_⟩
  rcases hcases with ⟨hgranted, hfree⟩ | ⟨hgranted, hheld⟩
  · refine Or.inl ⟨hgranted, fun other => ?_⟩
    simp only [Waits, hwaiting, hfree, hholder, reduceCtorEq, or_false, Option.some.injEq]
    constructor
    · exact fun hmem => ⟨Or.inl hmem, fun heq => hnot (heq ▸ hmem)⟩
    · exact fun h => h.1.resolve_right fun heq => h.2 heq.symm
  · exact Or.inr ⟨hgranted, fun other => by rw [Waits, Waits, hwaiting, hheld, hholder]⟩

theorem waits_acquire (limiter : AsyncRateLimiter R) (hnew : caller ∉ places s) (other : κ) :
    Waits (limiter.step s (.acquire caller)) other ↔ Waits s other ∨ other = caller := by
  have hknown : ¬ known s caller = true := fun h => hnew (known_iff.mp h)
  simp only [Waits, step, if_neg hknown, List.mem_append, List.mem_singleton]
  tauto

theorem granted_acquire (limiter : AsyncRateLimiter R) (s : State κ R) (caller : κ) :
    (limiter.step s (.acquire caller)).granted = s.granted ∧
      (limiter.step s (.acquire caller)).cancelled = s.cancelled := by
  unfold step
  dsimp only
  split_ifs
  · exact ⟨rfl, rfl⟩
  · exact ⟨rfl, rfl⟩

theorem waits_cancel (limiter : AsyncRateLimiter R) (hplaces : (places s).Nodup)
    (caller other : κ) :
    Waits (limiter.step s (.cancel caller)) other ↔ Waits s other ∧ other ≠ caller := by
  unfold step
  dsimp only
  split_ifs with hwaiting hholder
  · have hnot : s.holder ≠ some caller := fun h => holder_not_waiting hplaces h hwaiting
    simp only [Waits, (waiting_nodup hplaces).mem_erase_iff]
    constructor
    · rintro (⟨hne, hmem⟩ | hheld)
      · exact ⟨Or.inl hmem, hne⟩
      · exact ⟨Or.inr hheld, fun heq => hnot (heq ▸ hheld)⟩
    · rintro ⟨hmem | hheld, hne⟩
      · exact Or.inl ⟨hne, hmem⟩
      · exact Or.inr hheld
  · simp only [Waits, hholder, reduceCtorEq, or_false, Option.some.injEq]
    constructor
    · exact fun hmem => ⟨Or.inl hmem, fun heq => hwaiting (heq ▸ hmem)⟩
    · exact fun h => h.1.resolve_right fun heq => h.2 heq.symm
  · refine ⟨fun h => ⟨h, fun heq => ?_⟩, And.left⟩
    rcases h with hmem | hheld
    · exact hwaiting (heq ▸ hmem)
    · exact hholder (heq ▸ hheld)

theorem mem_cancelled_cancel (limiter : AsyncRateLimiter R) {other : κ}
    (h : other ∈ (limiter.step s (.cancel caller)).cancelled) :
    other ∈ s.cancelled ∨ other = caller := by
  unfold step at h
  dsimp only at h
  split_ifs at h
  · exact (List.mem_append.mp h).imp_right List.mem_singleton.mp
  · exact (List.mem_append.mp h).imp_right List.mem_singleton.mp
  · exact Or.inl h

end Callers

end AsyncRateLimiter

inductive RequestPhase
  | acquiring (attempt : ℕ)
  | calling (attempt : ℕ)
  | sleeping (attempt : ℕ) (wakesAt : ℚ)
  | ended
  deriving DecidableEq, Repr

structure Venue where
  limiter : AsyncRateLimiter ℚ
  policy : RetryPolicy

/-- The limiter, whose callers are the attempts, and the last reading of the clock. -/
structure Requests (κ : Type*) where
  limiter : AsyncRateLimiter.State (κ × ℕ) ℚ := {}
  phase : κ → Option RequestPhase := fun _ => none
  clock : ℚ := 0

inductive RequestAction (κ : Type*)
  | request (key : κ)
  | enter (key : κ) (now : ℚ)
  | wake (now : ℚ)
  | answer (key : κ) (now random : ℚ)
  | resume (key : κ) (now : ℚ)
  | cancel (key : κ)

namespace Requests

variable {κ α ε : Type*} [DecidableEq κ] (venue : Venue) (answers : κ → ℕ → Attempt α ε)

def setPhase (s : Requests κ) (key : κ) (phase : RequestPhase) : Requests κ :=
  { s with phase := Function.update s.phase key (some phase) }

def hand (s : Requests κ) (limiter : AsyncRateLimiter.State (κ × ℕ) ℚ) (caller : κ × ℕ) (now : ℚ) :
    Requests κ :=
  let s := { s with limiter, clock := now }
  if caller ∈ limiter.granted.map Prod.fst then s.setPhase caller.1 (.calling caller.2) else s

/-- The start of an attempt. -/
def acquire (s : Requests κ) (key : κ) (attempt : ℕ) : Requests κ :=
  { s with limiter := venue.limiter.step s.limiter (.acquire (key, attempt)) }.setPhase key
    (.acquiring attempt)

def step (s : Requests κ) : RequestAction κ → Requests κ
  | .request key => if s.phase key = none then s.acquire venue key 1 else s
  | .enter key now =>
    match s.phase key with
    | some (.acquiring attempt) =>
      s.hand (venue.limiter.step s.limiter (.enter (key, attempt) now)) (key, attempt) now
    | _ => s
  | .wake now =>
    match s.limiter.holder with
    | some caller => s.hand (venue.limiter.step s.limiter (.wake now)) caller now
    | none => s
  | .answer key now random =>
    match s.phase key with
    | some (.calling attempt) =>
      match answers key attempt with
      | .retryable _ retryAfter =>
        if venue.policy.maxAttempts ≤ attempt then { s with clock := now }.setPhase key .ended
        else { s with clock := now }.setPhase key
          (.sleeping attempt (now + venue.policy.delay attempt retryAfter random))
      | _ => { s with clock := now }.setPhase key .ended
    | _ => s
  | .resume key now =>
    match s.phase key with
    | some (.sleeping attempt _) => { s with clock := now }.acquire venue key (attempt + 1)
    | _ => s
  | .cancel key =>
    match s.phase key with
    | some (.acquiring attempt) =>
      { s with limiter := venue.limiter.step s.limiter (.cancel (key, attempt)) }.setPhase key .ended
    | some _ => s.setPhase key .ended
    | none => s

def sleepsUntil (s : Requests κ) (key : κ) : Option ℚ :=
  match s.phase key with
  | some (.sleeping _ wakesAt) => some wakesAt
  | _ => none

/-- The clock does not go back, a sleep lasts its time, and random numbers are not negative. -/
def Timely (s : Requests κ) : RequestAction κ → Prop
  | .enter _ now => s.clock ≤ now
  | .wake now => s.clock ≤ now
  | .answer _ now random => s.clock ≤ now ∧ 0 ≤ random
  | .resume key now => s.clock ≤ now ∧ ∀ wakesAt ∈ s.sleepsUntil key, wakesAt ≤ now
  | .request _ => True
  | .cancel _ => True

instance (s : Requests κ) : ∀ action, Decidable (Timely s action)
  | .enter _ _ => inferInstanceAs (Decidable (_ ≤ _))
  | .wake _ => inferInstanceAs (Decidable (_ ≤ _))
  | .answer _ _ _ => inferInstanceAs (Decidable (_ ∧ _))
  | .resume _ _ => inferInstanceAs (Decidable (_ ∧ _))
  | .request _ => inferInstanceAs (Decidable True)
  | .cancel _ => inferInstanceAs (Decidable True)

/-- The numbers of the attempts with which a request called the transport. -/
def attempts (granted : List ((κ × ℕ) × ℚ)) (key : κ) : List ℕ :=
  (granted.filter fun grant => grant.1.1 = key).map fun grant => grant.1.2

def due (key : κ) (attempt : ℕ) : ℚ :=
  venue.policy.leastDelay attempt (match answers key attempt with
    | .retryable _ retryAfter => retryAfter
    | _ => none)

theorem attempts_append (granted : List ((κ × ℕ) × ℚ)) (caller : κ × ℕ) (now : ℚ) (key : κ) :
    attempts (granted ++ [(caller, now)]) key =
      attempts granted key ++ if caller.1 = key then [caller.2] else [] := by
  unfold attempts
  by_cases hkey : caller.1 = key
  · simp [List.filter_append, hkey]
  · simp [List.filter_append, hkey]

theorem mem_attempts {granted : List ((κ × ℕ) × ℚ)} {key : κ} {attempt : ℕ} :
    attempt ∈ attempts granted key ↔ (key, attempt) ∈ granted.map Prod.fst := by
  unfold attempts
  simp only [List.mem_map, List.mem_filter, decide_eq_true_eq]
  constructor
  · rintro ⟨⟨⟨key', attempt'⟩, now⟩, ⟨hmem, rfl⟩, rfl⟩
    exact ⟨_, hmem, rfl⟩
  · rintro ⟨⟨caller, now⟩, hmem, rfl⟩
    exact ⟨_, ⟨hmem, rfl⟩, rfl⟩

def Counts (venue : Venue) (made : ℕ) : Option RequestPhase → Prop
  | none => made = 0
  | some (.acquiring attempt) => attempt = made + 1 ∧ made < venue.policy.maxAttempts
  | some (.calling attempt) => attempt = made
  | some (.sleeping attempt _) => attempt = made ∧ made < venue.policy.maxAttempts
  | some .ended => True

/-- The attempts made are the first ones, and the request is in `acquire` where its phase says so. -/
def Standing (venue : Venue) (s : Requests κ) (key : κ) : Prop :=
  ∃ made ≤ venue.policy.maxAttempts,
    attempts s.limiter.granted key = List.range' 1 made ∧ Counts venue made (s.phase key) ∧
      ∀ attempt, Waits s.limiter (key, attempt) ↔ s.phase key = some (.acquiring attempt)

structure Consistent (venue : Venue) (answers : κ → ℕ → Attempt α ε) (s : Requests κ) : Prop where
  places : (places s.limiter).Nodup
  remembers : venue.limiter.Remembers s.limiter
  reading : ∀ earlier ∈ s.limiter.reading, earlier ≤ s.clock
  times_le : ∀ time ∈ times s.limiter, time ≤ s.clock
  cancelled : ∀ caller ∈ s.limiter.cancelled, s.phase caller.1 = some .ended
  standing : ∀ key, Standing venue s key
  slept : ∀ key attempt wakesAt, s.phase key = some (.sleeping attempt wakesAt) →
    ∀ time, ((key, attempt), time) ∈ s.limiter.granted →
      time + due venue answers key attempt ≤ wakesAt
  waited : ∀ key attempt, s.phase key = some (.acquiring (attempt + 1)) →
    ∀ time, ((key, attempt), time) ∈ s.limiter.granted →
      time + due venue answers key attempt ≤ s.clock
  spaced : ∀ key attempt time later, ((key, attempt), time) ∈ s.limiter.granted →
    ((key, attempt + 1), later) ∈ s.limiter.granted →
      time + due venue answers key attempt ≤ later

variable {venue answers} {s : Requests κ}

theorem not_granted_of_range {made attempt : ℕ} {key : κ} {granted : List ((κ × ℕ) × ℚ)}
    (h : attempts granted key = List.range' 1 made) (hlate : made < attempt) (time : ℚ) :
    ((key, attempt), time) ∉ granted := by
  intro hmem
  have hattempt : attempt ∈ attempts granted key :=
    mem_attempts.mpr (List.mem_map_of_mem (f := Prod.fst) hmem)
  rw [h, List.mem_range'_1] at hattempt
  omega

theorem Consistent.tick (h : Consistent venue answers s) {now : ℚ} (hclock : s.clock ≤ now) :
    Consistent venue answers { s with clock := now } where
  places := h.places
  remembers := h.remembers
  reading earlier hearlier := (h.reading earlier hearlier).trans hclock
  times_le time htime := (h.times_le time htime).trans hclock
  cancelled := h.cancelled
  standing := h.standing
  slept := h.slept
  waited key attempt hphase time htime := (h.waited key attempt hphase time htime).trans hclock
  spaced := h.spaced

theorem Consistent.setPhase (h : Consistent venue answers s) {key : κ} {phase : RequestPhase}
    (hbefore : ∀ attempt, s.phase key ≠ some (.acquiring attempt))
    (hafter : ∀ attempt, phase ≠ .acquiring attempt)
    (hcancelled : s.phase key = some .ended → phase = .ended)
    (hcounts : ∀ made, made ≤ venue.policy.maxAttempts → Counts venue made (s.phase key) →
      Counts venue made (some phase))
    (hslept : ∀ attempt wakesAt, phase = .sleeping attempt wakesAt →
      ∀ time, ((key, attempt), time) ∈ s.limiter.granted →
        time + due venue answers key attempt ≤ wakesAt) :
    Consistent venue answers (s.setPhase key phase) where
  places := h.places
  remembers := h.remembers
  reading := h.reading
  times_le := h.times_le
  cancelled caller hcaller := by
    have hended := h.cancelled caller hcaller
    by_cases hkey : caller.1 = key
    · rw [hkey] at hended ⊢
      simp only [Requests.setPhase, Function.update_self, hcancelled hended]
    · simpa only [Requests.setPhase, Function.update_of_ne hkey] using hended
  standing other := by
    obtain ⟨made, hle, hattempts, hmade, hwaits⟩ := h.standing other
    refine ⟨made, hle, hattempts, ?_⟩
    by_cases hkey : other = key
    · subst hkey
      simp only [Requests.setPhase, Function.update_self, Option.some.injEq]
      refine ⟨hcounts made hle hmade, fun attempt => ?_⟩
      rw [hwaits attempt]
      exact iff_of_false (hbefore attempt) (hafter attempt)
    · simp only [Requests.setPhase, Function.update_of_ne hkey]
      exact ⟨hmade, hwaits⟩
  slept other attempt wakesAt hphase := by
    by_cases hkey : other = key
    · subst hkey
      simp only [Requests.setPhase, Function.update_self, Option.some.injEq] at hphase
      exact hslept attempt wakesAt hphase
    · simp only [Requests.setPhase, Function.update_of_ne hkey] at hphase
      exact h.slept other attempt wakesAt hphase
  waited other attempt hphase := by
    by_cases hkey : other = key
    · subst hkey
      simp only [Requests.setPhase, Function.update_self, Option.some.injEq] at hphase
      exact absurd hphase (hafter _)
    · simp only [Requests.setPhase, Function.update_of_ne hkey] at hphase
      exact h.waited other attempt hphase
  spaced := h.spaced

theorem Consistent.acquire (h : Consistent venue answers s) {key : κ} {made : ℕ}
    (hattempts : attempts s.limiter.granted key = List.range' 1 made)
    (hmade : made < venue.policy.maxAttempts)
    (hbefore : ∀ attempt, s.phase key ≠ some (.acquiring attempt))
    (hended : s.phase key ≠ some .ended)
    (hwaited : ∀ time, ((key, made), time) ∈ s.limiter.granted →
      time + due venue answers key made ≤ s.clock) :
    Consistent venue answers (s.acquire venue key (made + 1)) := by
  obtain ⟨hgranted, hcancelled⟩ := venue.limiter.granted_acquire s.limiter (key, made + 1)
  obtain ⟨-, -, -, -, hwaits⟩ := h.standing key
  have hnew : (key, made + 1) ∉ AsyncRateLimiter.places s.limiter := by
    intro hmem
    rw [AsyncRateLimiter.places, ← List.append_assoc, List.mem_append] at hmem
    rcases hmem with hwaiting | hgone
    · refine hbefore (made + 1) ((hwaits _).mp ?_)
      rcases List.mem_append.mp hwaiting with hholder | hwaiting
      · exact Or.inr (Option.mem_toList.mp hholder)
      · exact Or.inl hwaiting
    · rcases List.mem_append.mp hgone with hgrant | hgone
      · obtain ⟨⟨caller, time⟩, hmem, rfl⟩ := List.mem_map.mp hgrant
        exact not_granted_of_range hattempts (Nat.lt_succ_self made) time hmem
      · exact hended (h.cancelled _ hgone)
  have hafter := venue.limiter.waits_acquire hnew
  have hreading : (venue.limiter.step s.limiter (.acquire (key, made + 1))).reading =
      s.limiter.reading := by
    rcases reading_step venue.limiter s.limiter (.acquire (key, made + 1)) with hsame | hsame
    · exact hsame
    · unfold AsyncRateLimiter.step
      dsimp only
      split_ifs <;> rfl
  have hremembers : venue.limiter.Remembers
      (venue.limiter.step s.limiter (.acquire (key, made + 1))) :=
    h.remembers.step fun now hnow => by cases hnow
  refine ⟨nodup_step h.places _, hremembers, ?_, ?_, ?_, ?_, ?_, ?_, ?_⟩
  · intro earlier hearlier
    refine h.reading earlier ?_
    rw [← hreading]
    exact hearlier
  · intro time htime
    refine h.times_le time ?_
    rw [times, ← hgranted]
    exact htime
  · intro caller hcaller
    have hgone := h.cancelled caller (hcancelled ▸ hcaller)
    have hkey : caller.1 ≠ key := fun heq => hended (heq ▸ hgone)
    simpa only [Requests.acquire, Requests.setPhase, Function.update_of_ne hkey] using hgone
  · intro other
    obtain ⟨made', hle, hattempts', hcounts, hwaits'⟩ := h.standing other
    by_cases hkey : other = key
    · subst hkey
      refine ⟨made, hmade.le, ?_, ?_, fun attempt => ?_⟩
      · exact (congrArg (attempts · other) hgranted).trans hattempts
      · simp only [Requests.acquire, Requests.setPhase, Function.update_self, Counts, hmade,
          and_self]
      · simp only [Requests.acquire, Requests.setPhase, Function.update_self, hafter, hwaits,
          Prod.mk.injEq, true_and, Option.some.injEq, RequestPhase.acquiring.injEq]
        constructor
        · exact fun hor => (hor.resolve_left (hbefore attempt)).symm
        · exact fun heq => Or.inr heq.symm
    · refine ⟨made', hle, (congrArg (attempts · other) hgranted).trans hattempts', ?_, ?_⟩
      · simpa only [Requests.acquire, Requests.setPhase, Function.update_of_ne hkey] using hcounts
      · intro attempt
        simp only [Requests.acquire, Requests.setPhase, Function.update_of_ne hkey, hafter, hwaits',
          Prod.mk.injEq, hkey, false_and, or_false]
  · intro other attempt wakesAt hphase time htime
    by_cases hkey : other = key
    · subst hkey
      simp only [Requests.acquire, Requests.setPhase, Function.update_self, Option.some.injEq,
        reduceCtorEq] at hphase
    · simp only [Requests.acquire, Requests.setPhase, Function.update_of_ne hkey] at hphase
      exact h.slept other attempt wakesAt hphase time (hgranted ▸ htime)
  · intro other attempt hphase time htime
    by_cases hkey : other = key
    · subst hkey
      simp only [Requests.acquire, Requests.setPhase, Function.update_self, Option.some.injEq,
        RequestPhase.acquiring.injEq, Nat.add_right_cancel_iff] at hphase
      subst hphase
      exact hwaited time (hgranted ▸ htime)
    · simp only [Requests.acquire, Requests.setPhase, Function.update_of_ne hkey] at hphase
      exact h.waited other attempt hphase time (hgranted ▸ htime)
  · intro other attempt time later htime hlater
    exact h.spaced other attempt time later (hgranted ▸ htime) (hgranted ▸ hlater)

theorem Consistent.hand (h : Consistent venue answers s)
    {limiter : AsyncRateLimiter.State (κ × ℕ) ℚ} {key : κ} {attempt : ℕ} {now : ℚ}
    (hclock : s.clock ≤ now) (hphase : s.phase key = some (.acquiring attempt))
    (hplaces : (AsyncRateLimiter.places limiter).Nodup)
    (hremembers : venue.limiter.Remembers limiter)
    (hreading : ∀ earlier ∈ limiter.reading, earlier ≤ now)
    (hmoves : Moves s.limiter limiter (key, attempt) now) :
    Consistent venue answers (s.hand limiter (key, attempt) now) := by
  obtain ⟨made, hle, hattempts, hcounts, hwaits⟩ := h.standing key
  rw [hphase] at hcounts
  obtain ⟨rfl, hmade⟩ := hcounts
  have hnew (time : ℚ) : ((key, made + 1), time) ∉ s.limiter.granted :=
    not_granted_of_range hattempts (Nat.lt_succ_self made) time
  obtain ⟨hcancelled, ⟨hgranted, hleft⟩ | ⟨hgranted, hstayed⟩⟩ := hmoves
  · have hmem : (key, made + 1) ∈ limiter.granted.map Prod.fst := by
      rw [hgranted, List.map_append]
      exact List.mem_append_right _ (List.mem_singleton_self _)
    have hand : s.hand limiter (key, made + 1) now =
        { s with limiter, clock := now }.setPhase key (.calling (made + 1)) := if_pos hmem
    have hgrant {grant : (κ × ℕ) × ℚ} : grant ∈ limiter.granted ↔
        grant ∈ s.limiter.granted ∨ grant = ((key, made + 1), now) := by
      rw [hgranted, List.mem_append, List.mem_singleton]
    rw [hand]
    refine ⟨hplaces, hremembers, hreading, ?_, ?_, ?_, ?_, ?_, ?_⟩
    · intro time htime
      obtain ⟨grant, hgrant', rfl⟩ := List.mem_map.mp htime
      rcases hgrant.mp hgrant' with hold | rfl
      · exact (h.times_le _ (List.mem_map_of_mem hold)).trans hclock
      · exact le_rfl
    · intro caller hcaller
      have hended := h.cancelled caller (hcancelled ▸ hcaller)
      have hkey : caller.1 ≠ key := by
        intro heq
        rw [heq, hphase] at hended
        cases hended
      simpa only [Requests.setPhase, Function.update_of_ne hkey] using hended
    · intro other
      by_cases hkey : other = key
      · subst hkey
        refine ⟨made + 1, hmade, ?_, ?_, fun attempt => ?_⟩
        · change attempts limiter.granted other = _
          rw [hgranted, attempts_append, hattempts, if_pos rfl, List.range'_1_concat]
          simp [Nat.add_comm]
        · simp only [Requests.setPhase, Function.update_self, Counts]
        · simp only [Requests.setPhase, Function.update_self, hleft, hwaits, hphase,
            Option.some.injEq, RequestPhase.acquiring.injEq, ne_eq, Prod.mk.injEq, true_and,
            reduceCtorEq, iff_false, not_and, not_not]
          exact fun heq => heq.symm
      · obtain ⟨made', hle', hattempts', hcounts', hwaits'⟩ := h.standing other
        refine ⟨made', hle', ?_, ?_, fun attempt => ?_⟩
        · change attempts limiter.granted other = _
          rw [hgranted, attempts_append, hattempts', if_neg (Ne.symm hkey), List.append_nil]
        · simpa only [Requests.setPhase, Function.update_of_ne hkey] using hcounts'
        · simp only [Requests.setPhase, Function.update_of_ne hkey, hleft, hwaits', ne_eq,
            Prod.mk.injEq, hkey, false_and, not_false_eq_true, and_true]
    · intro other attempt wakesAt hsleep time htime
      have hkey : other ≠ key := by
        rintro rfl
        simp only [Requests.setPhase, Function.update_self, Option.some.injEq, reduceCtorEq]
          at hsleep
      simp only [Requests.setPhase, Function.update_of_ne hkey] at hsleep
      rcases hgrant.mp htime with hold | heq
      · exact h.slept other attempt wakesAt hsleep time hold
      · cases heq
        exact absurd rfl hkey
    · intro other attempt hwaiting time htime
      have hkey : other ≠ key := by
        rintro rfl
        simp only [Requests.setPhase, Function.update_self, Option.some.injEq, reduceCtorEq]
          at hwaiting
      simp only [Requests.setPhase, Function.update_of_ne hkey] at hwaiting
      rcases hgrant.mp htime with hold | heq
      · exact (h.waited other attempt hwaiting time hold).trans hclock
      · cases heq
        exact absurd rfl hkey
    · intro other attempt time later htime hlater
      rcases hgrant.mp htime with hold | heq
      · rcases hgrant.mp hlater with hlater | heq
        · exact h.spaced other attempt time later hold hlater
        · cases heq
          exact (h.waited key made hphase time hold).trans hclock
      · cases heq
        rcases hgrant.mp hlater with hlater | heq
        · exact absurd hlater (not_granted_of_range hattempts (by omega) later)
        · cases heq
  · have hmem : (key, made + 1) ∉ limiter.granted.map Prod.fst := by
      rw [hgranted]
      intro hin
      obtain ⟨⟨caller, time⟩, hin, rfl⟩ := List.mem_map.mp hin
      exact hnew time hin
    have hand : s.hand limiter (key, made + 1) now = { s with limiter, clock := now } :=
      if_neg hmem
    rw [hand]
    refine ⟨hplaces, hremembers, hreading, ?_, ?_, ?_, ?_, ?_, ?_⟩
    · intro time htime
      refine (h.times_le time ?_).trans hclock
      rw [times, ← hgranted]
      exact htime
    · exact fun caller hcaller => h.cancelled caller (hcancelled ▸ hcaller)
    · intro other
      obtain ⟨made', hle', hattempts', hcounts', hwaits'⟩ := h.standing other
      refine ⟨made', hle', ?_, hcounts', fun attempt => (hstayed _).trans (hwaits' attempt)⟩
      exact (congrArg (attempts · other) hgranted).trans hattempts'
    · intro other attempt wakesAt hsleep time htime
      exact h.slept other attempt wakesAt hsleep time (hgranted ▸ htime)
    · intro other attempt hwaiting time htime
      exact (h.waited other attempt hwaiting time (hgranted ▸ htime)).trans hclock
    · intro other attempt time later htime hlater
      exact h.spaced other attempt time later (hgranted ▸ htime) (hgranted ▸ hlater)

theorem Consistent.cancel (h : Consistent venue answers s) {key : κ} {attempt : ℕ}
    (hphase : s.phase key = some (.acquiring attempt)) :
    Consistent venue answers ({ s with
      limiter := venue.limiter.step s.limiter (.cancel (key, attempt)) }.setPhase key .ended) := by
  have hgranted : (venue.limiter.step s.limiter (.cancel (key, attempt))).granted =
      s.limiter.granted := (step_cancel s.limiter (key, attempt)).2
  have hafter := venue.limiter.waits_cancel h.places (key, attempt)
  have hremembers : venue.limiter.Remembers
      (venue.limiter.step s.limiter (.cancel (key, attempt))) :=
    h.remembers.step fun now hnow => by cases hnow
  have hreading : (venue.limiter.step s.limiter (.cancel (key, attempt))).reading =
      s.limiter.reading := by
    unfold AsyncRateLimiter.step
    dsimp only
    split_ifs <;> rfl
  refine ⟨nodup_step h.places _, hremembers, ?_, ?_, ?_, ?_, ?_, ?_, ?_⟩
  · intro earlier hearlier
    refine h.reading earlier ?_
    rw [← hreading]
    exact hearlier
  · intro time htime
    refine h.times_le time ?_
    rw [times, ← hgranted]
    exact htime
  · intro caller hcaller
    by_cases hkey : caller.1 = key
    · simp only [Requests.setPhase, hkey, Function.update_self]
    · simp only [Requests.setPhase, Function.update_of_ne hkey]
      refine h.cancelled caller ((venue.limiter.mem_cancelled_cancel hcaller).resolve_right ?_)
      exact fun heq => hkey (congrArg Prod.fst heq)
  · intro other
    obtain ⟨made, hle, hattempts, hcounts, hwaits⟩ := h.standing other
    refine ⟨made, hle, (congrArg (attempts · other) hgranted).trans hattempts, ?_, ?_⟩
    · by_cases hkey : other = key
      · simp only [Requests.setPhase, hkey, Function.update_self, Counts]
      · simpa only [Requests.setPhase, Function.update_of_ne hkey] using hcounts
    · intro number
      by_cases hkey : other = key
      · subst hkey
        simp only [Requests.setPhase, Function.update_self, hafter, hwaits, hphase,
          Option.some.injEq, RequestPhase.acquiring.injEq, ne_eq, Prod.mk.injEq, true_and,
          reduceCtorEq, iff_false, not_and, not_not]
        exact fun heq => heq.symm
      · simp only [Requests.setPhase, Function.update_of_ne hkey, hafter, hwaits, ne_eq,
          Prod.mk.injEq, hkey, false_and, not_false_eq_true, and_true]
  · intro other number wakesAt hsleep time htime
    by_cases hkey : other = key
    · simp only [Requests.setPhase, hkey, Function.update_self, Option.some.injEq,
        reduceCtorEq] at hsleep
    · simp only [Requests.setPhase, Function.update_of_ne hkey] at hsleep
      exact h.slept other number wakesAt hsleep time (hgranted ▸ htime)
  · intro other number hwaiting time htime
    by_cases hkey : other = key
    · simp only [Requests.setPhase, hkey, Function.update_self, Option.some.injEq,
        reduceCtorEq] at hwaiting
    · simp only [Requests.setPhase, Function.update_of_ne hkey] at hwaiting
      exact h.waited other number hwaiting time (hgranted ▸ htime)
  · intro other number time later htime hlater
    exact h.spaced other number time later (hgranted ▸ htime) (hgranted ▸ hlater)

theorem Consistent.step (h : Consistent venue answers s) {action : RequestAction κ}
    (htimely : Timely s action) : Consistent venue answers (s.step venue answers action) := by
  cases action with
  | request key =>
    simp only [Requests.step]
    split_ifs with hnone
    · obtain ⟨made, -, hattempts, hcounts, -⟩ := h.standing key
      rw [hnone] at hcounts
      obtain rfl : made = 0 := hcounts
      have hzero (time : ℚ) : ((key, 0), time) ∉ s.limiter.granted := by
        intro hmem
        have hin := mem_attempts.mpr (List.mem_map_of_mem (f := Prod.fst) hmem)
        rw [hattempts] at hin
        cases hin
      refine h.acquire hattempts venue.policy.one_le_attempts (fun n => ?_) ?_ fun time htime => ?_
      · rw [hnone]
        exact fun heq => by cases heq
      · rw [hnone]
        exact fun heq => by cases heq
      · exact absurd htime (hzero time)
    · exact h
  | enter key now =>
    cases hphase : s.phase key with
    | none => simpa only [Requests.step, hphase] using h
    | some phase =>
      cases phase with
      | acquiring attempt =>
        simp only [Requests.step, hphase]
        have hremembers : venue.limiter.Remembers
            (venue.limiter.step s.limiter (.enter (key, attempt) now)) := by
          refine h.remembers.step fun reading hreading earlier hearlier => ?_
          cases hreading
          exact (h.reading earlier hearlier).trans htimely
        refine h.hand htimely hphase (nodup_step h.places _) hremembers ?_ (moves_enter h.places)
        intro earlier hearlier
        rcases reading_step venue.limiter s.limiter (.enter (key, attempt) now) with hsame | hread
        · rw [hsame] at hearlier
          exact (h.reading earlier hearlier).trans htimely
        · rw [hread] at hearlier
          cases hearlier
          exact le_rfl
      | calling attempt => simpa only [Requests.step, hphase] using h
      | sleeping attempt wakesAt => simpa only [Requests.step, hphase] using h
      | ended => simpa only [Requests.step, hphase] using h
  | wake now =>
    cases hholder : s.limiter.holder with
    | none => simpa only [Requests.step, hholder] using h
    | some caller =>
      simp only [Requests.step, hholder]
      obtain ⟨-, -, -, -, hwaits⟩ := h.standing caller.1
      have hremembers : venue.limiter.Remembers (venue.limiter.step s.limiter (.wake now)) := by
        refine h.remembers.step fun reading hreading earlier hearlier => ?_
        cases hreading
        exact (h.reading earlier hearlier).trans htimely
      refine h.hand htimely ((hwaits caller.2).mp (Or.inr hholder)) (nodup_step h.places _)
        hremembers ?_ (moves_wake h.places hholder)
      intro earlier hearlier
      rcases reading_step venue.limiter s.limiter (.wake now) with hsame | hread
      · rw [hsame] at hearlier
        exact (h.reading earlier hearlier).trans htimely
      · rw [hread] at hearlier
        cases hearlier
        exact le_rfl
  | answer key now random =>
    obtain ⟨hclock, hrandom⟩ := htimely
    cases hphase : s.phase key with
    | none => simpa only [Requests.step, hphase] using h
    | some phase =>
      cases phase with
      | calling attempt =>
        have hlater := h.tick hclock
        have hended : Consistent venue answers ({ s with clock := now }.setPhase key .ended) := by
          refine hlater.setPhase (fun n => ?_) (fun n => by simp) (fun _ => rfl)
            (fun _ _ _ => trivial) fun n wakesAt heq => by cases heq
          rw [show ({ s with clock := now } : Requests κ).phase key = _ from hphase]
          exact fun heq => by cases heq
        simp only [Requests.step, hphase]
        cases hanswer : answers key attempt with
        | returned value => exact hended
        | raised error => exact hended
        | retryable error retryAfter =>
          dsimp only
          split_ifs with hlast
          · exact hended
          · refine hlater.setPhase (fun n => ?_) (fun n => by simp) (fun heq => ?_) ?_ ?_
            · rw [show ({ s with clock := now } : Requests κ).phase key = _ from hphase]
              exact fun heq => by cases heq
            · rw [show ({ s with clock := now } : Requests κ).phase key = _ from hphase] at heq
              cases heq
            · intro made _ hcounts
              rw [show ({ s with clock := now } : Requests κ).phase key = _ from hphase] at hcounts
              obtain rfl : attempt = made := hcounts
              exact ⟨rfl, not_le.mp hlast⟩
            · intro number wakesAt heq time htime
              cases heq
              have hgranted : time ≤ now :=
                (h.times_le time (List.mem_map_of_mem (f := Prod.snd) htime)).trans hclock
              have hdelay := venue.policy.leastDelay_le attempt retryAfter hrandom
              simp only [due, hanswer]
              linarith
      | acquiring attempt => simpa only [Requests.step, hphase] using h
      | sleeping attempt wakesAt => simpa only [Requests.step, hphase] using h
      | ended => simpa only [Requests.step, hphase] using h
  | resume key now =>
    obtain ⟨hclock, hslept⟩ := htimely
    cases hphase : s.phase key with
    | none => simpa only [Requests.step, hphase] using h
    | some phase =>
      cases phase with
      | sleeping attempt wakesAt =>
        simp only [Requests.step, hphase]
        obtain ⟨made, -, hattempts, hcounts, -⟩ := h.standing key
        rw [hphase] at hcounts
        obtain ⟨rfl, hmade⟩ := hcounts
        refine (h.tick hclock).acquire hattempts hmade (fun n => ?_) ?_ fun time htime => ?_
        · rw [show ({ s with clock := now } : Requests κ).phase key = _ from hphase]
          exact fun heq => by cases heq
        · rw [show ({ s with clock := now } : Requests κ).phase key = _ from hphase]
          exact fun heq => by cases heq
        · exact (h.slept key attempt wakesAt hphase time htime).trans
            (hslept wakesAt (by rw [sleepsUntil, hphase]; rfl))
      | acquiring attempt => simpa only [Requests.step, hphase] using h
      | calling attempt => simpa only [Requests.step, hphase] using h
      | ended => simpa only [Requests.step, hphase] using h
  | cancel key =>
    cases hphase : s.phase key with
    | none => simpa only [Requests.step, hphase] using h
    | some phase =>
      have hother (hnot : ∀ n, phase ≠ .acquiring n) :
          Consistent venue answers (s.setPhase key .ended) := by
        refine h.setPhase (fun n => ?_) (fun n => by simp) (fun _ => rfl) (fun _ _ _ => trivial)
          fun n wakesAt heq => by cases heq
        rw [hphase]
        exact fun heq => hnot n (Option.some.inj heq)
      cases phase with
      | acquiring attempt =>
        simp only [Requests.step, hphase]
        exact h.cancel hphase
      | calling attempt =>
        simp only [Requests.step, hphase]
        exact hother fun n heq => by cases heq
      | sleeping attempt wakesAt =>
        simp only [Requests.step, hphase]
        exact hother fun n heq => by cases heq
      | ended =>
        simp only [Requests.step, hphase]
        exact hother fun n heq => by cases heq

theorem consistent_start : Consistent venue answers ({} : Requests κ) where
  places := List.nodup_nil
  remembers := ⟨List.Pairwise.nil, bounded_nil, fun _ => ⟨rfl, rfl⟩, fun now h => by cases h⟩
  reading earlier h := by cases h
  times_le time h := by cases h
  cancelled caller h := by cases h
  standing key := by
    refine ⟨0, Nat.zero_le _, rfl, rfl, fun attempt => ⟨fun h => ?_, fun h => by cases h⟩⟩
    rcases h with h | h
    · cases h
    · cases h
  slept key attempt wakesAt h := by cases h
  waited key attempt h := by cases h
  spaced key attempt time later h := by cases h

/-- In every run of the requests of an adapter, however they interleave, fail and are cancelled: no
window of the limiter's period holds more calls of the transport than it allows; the attempts of a
request are numbered from one on, and are no more than allowed; and between two of them lies at
least the delay that the policy has for the answer to the first. -/
theorem requests_stay_limited (venue : Venue) (answers : κ → ℕ → Attempt α ε)
    (actions : List (RequestAction κ))
    (htimely : Guarded (step venue answers) Timely ({} : Requests κ) actions) :
    let granted := (run (step venue answers) ({} : Requests κ) actions).limiter.granted
    (∀ t, (within venue.limiter.periodSeconds t (granted.map Prod.snd)).length ≤
      venue.limiter.maxCalls) ∧
    (∀ key, ∃ made ≤ venue.policy.maxAttempts, attempts granted key = List.range' 1 made) ∧
    ∀ key attempt time later, ((key, attempt), time) ∈ granted →
      ((key, attempt + 1), later) ∈ granted → time + due venue answers key attempt ≤ later := by
  intro granted
  have hconsistent := run_invariant_of_guarded (Consistent venue answers)
    (fun s action (h : Consistent venue answers s) htimely => h.step htimely) consistent_start
    htimely
  refine ⟨hconsistent.remembers.bounded, fun key => ?_, hconsistent.spaced⟩
  obtain ⟨made, hle, hattempts, -⟩ := hconsistent.standing key
  exact ⟨made, hle, hattempts⟩

section

theorem half_pos : (0 : ℚ) < 1 / 2 := by norm_num

theorem half_le_one : (1 / 2 : ℚ) ≤ 1 := by norm_num

theorem two_attempts_pos : 1 ≤ 2 := by decide

theorem two_attempts_le : 2 ≤ 10 := by decide

theorem half_jitter_nonneg : (0 : ℚ) ≤ 1 / 2 := half_pos.le

def twoAttempts : RetryPolicy where
  maxAttempts := 2
  baseDelaySeconds := 1 / 2
  maxDelaySeconds := 1
  jitterRatio := 1 / 2
  one_le_attempts := two_attempts_pos
  attempts_le_ten := two_attempts_le
  base_pos := half_pos
  base_le_max := half_le_one
  jitter_nonneg := half_jitter_nonneg
  jitter_le_one := half_le_one

def failsFirst (key attempt : ℕ) : Attempt ℕ ℕ :=
  if key = 0 ∧ attempt = 1 then .retryable 503 none else .returned 200

def twoRequests : List (RequestAction ℕ) :=
  [.request 0, .request 1, .enter 0 0, .answer 0 (1 / 4) 0, .enter 1 (1 / 2), .resume 0 (3 / 4),
   .wake 1, .enter 0 1, .wake 2, .answer 0 2 0]

theorem requests_stay_limited_of_twoRequests :
    (run (step ⟨oneEachSecond, twoAttempts⟩ failsFirst) {} twoRequests).limiter.granted =
        [((0, 1), 0), ((1, 1), 1), ((0, 2), 2)] ∧
      (within 1 2 [(0 : ℚ), 1, 2]).length ≤ 1 ∧
      (0 : ℚ) + due ⟨oneEachSecond, twoAttempts⟩ failsFirst 0 1 ≤ 2 := by
  have hgranted : (run (step ⟨oneEachSecond, twoAttempts⟩ failsFirst) {} twoRequests).limiter.granted
      = [((0, 1), 0), ((1, 1), 1), ((0, 2), 2)] := by decide +kernel
  have htimely : Guarded (step ⟨oneEachSecond, twoAttempts⟩ failsFirst) Timely {} twoRequests := by
    decide +kernel
  obtain ⟨hwindow, -, hspaced⟩ := requests_stay_limited ⟨oneEachSecond, twoAttempts⟩ failsFirst
    twoRequests htimely
  rw [hgranted] at hwindow hspaced
  exact ⟨hgranted, hwindow 2, hspaced 0 1 0 2 (by simp) (by simp)⟩

end

end Requests

end ChainQuantStudio.Exchanges
