import ChainQuantStudio.Studio.Gateway

/-!
# The quota circuit

A quota failure opens one circuit for all work orders, until the reset that its text names or for
the default cooldown. A clock time is moved to the next day when it is over, but a dated reset and
an ISO stamp are taken as they are, and a text may well name one that is over.
-/

namespace ChainQuantStudio.Studio

open DateTimes PythonText

variable {Z : Type} [DecidableEq Z] (z : Zones Z)

namespace CircuitBreaker

/-- The answers of `is_open` to one query after another. -/
def queries (b : CircuitBreaker Z) : List (Aware Z) → List Bool × CircuitBreaker Z
  | [] => ([], b)
  | now :: later =>
    let (answer, next) := b.isOpen z now
    let (answers, last) := next.queries later
    (answer :: answers, last)

end CircuitBreaker

/-- A stamp or a dated reset is not over yet; the next day and the cooldown are within the years. -/
def CircuitBreaker.ResetsLater (b : CircuitBreaker Z) (reason : String) (now : Aware Z) : Prop :=
  match resetOf reason.toList with
  | .stamp utc => Ranged utc ∧ z.instant now < utc
  | .dated reading => now.wall < reading
  | .clock time => now.wall < now.startOfDay + time ∨ Ranged (now.startOfDay + dayLength)
  | .unnamed =>
    0 < b.defaultCooldownSeconds ∧ Ranged (now.wall + b.defaultCooldownSeconds * 1000000)

/-- The circuit is opened until a later time: up to it every query is answered with yes and, where
the zone of the clock has a fixed offset, a worker without a work order claims none. -/
structure CircuitBreaker.BlocksUntil (b : CircuitBreaker Z) (reason : String) (now until_ : Aware Z) :
    Prop where
  returned : (b.openCircuit z reason now).1 = .ok until_
  later : z.before now until_ = true
  answers : ∀ moments, (∀ moment ∈ moments, z.before moment until_ = true) →
    (b.openCircuit z reason now).2.queries z moments =
      (moments.map fun _ => true, (b.openCircuit z reason now).2)
  worker : (∀ wall fold, z.offset now.zone wall fold = z.offset now.zone now.wall now.fold) →
    z.instant now < z.instant until_ ∧
    ∀ (g : Gateway), ∀ time < z.instant until_,
      let failed : Gateway :=
        { g with durable := g.durable.openCircuit reason (z.instant until_) }
      failed.claim time = failed

namespace CircuitBreaker

variable {z} {b : CircuitBreaker Z} {reason : String} {now until_ : Aware Z}

theorem queries_of_before (hstate : b.state = .opened) (huntil : b.openUntil = some until_)
    {moments : List (Aware Z)} (h : ∀ moment ∈ moments, z.before moment until_ = true) :
    b.queries z moments = (moments.map fun _ => true, b) := by
  induction moments with
  | nil => rfl
  | cons moment moments ih =>
    have hopen : b.isOpen z moment = (true, b) := by
      unfold isOpen
      rw [huntil]
      exact if_pos ⟨hstate, h moment List.mem_cons_self⟩
    have hrest := ih fun later hlater => h later (List.mem_cons_of_mem moment hlater)
    unfold queries
    rw [hopen]
    dsimp only
    rw [hrest]
    rfl

theorem openCircuit_of_ok (h : b.endOf z reason now = .ok until_) :
    (b.openCircuit z reason now).2.state = .opened ∧
      (b.openCircuit z reason now).2.openUntil = some until_ := by
  unfold openCircuit
  rw [h]
  exact ⟨rfl, rfl⟩

theorem claim_openCircuit {g : Gateway} {openUntil time : ℤ} (h : time < openUntil) :
    ({ g with durable := g.durable.openCircuit reason openUntil } : Gateway).claim time =
      { g with durable := g.durable.openCircuit reason openUntil } := by
  unfold Gateway.claim
  split
  · have hopen : ((g.durable.openCircuit reason openUntil).store.codexCircuit.any
        (time < ·.openUntil)) = true := decide_eq_true h
    rw [if_pos hopen]
  · rfl

theorem blocksUntil_of_before (hreturned : b.endOf z reason now = .ok until_)
    (hlater : z.before now until_ = true) : b.BlocksUntil z reason now until_ := by
  obtain ⟨hstate, huntil⟩ := openCircuit_of_ok hreturned
  refine ⟨(openCircuit_fst z).trans hreturned, hlater,
    fun moments => queries_of_before hstate huntil, fun hfixed => ?_⟩
  exact ⟨instant_lt_of_before hfixed hlater, fun g time htime => claim_openCircuit htime⟩

theorem blocks_iff :
    (∃ until_, b.BlocksUntil z reason now until_) ↔
      ∃ until_, b.endOf z reason now = .ok until_ ∧ z.before now until_ = true := by
  constructor
  · rintro ⟨until_, h⟩
    exact ⟨until_, (openCircuit_fst z).symm.trans h.returned, h.later⟩
  · rintro ⟨until_, hreturned, hlater⟩
    exact ⟨until_, blocksUntil_of_before hreturned hlater⟩

theorem plus_later_iff {duration : ℤ} :
    (∃ until_, now.plus duration = some until_ ∧ z.before now until_ = true) ↔
      0 < duration ∧ Ranged (now.wall + duration) := by
  unfold Aware.plus
  split_ifs with h
  · simp only [Option.some.injEq, exists_eq_left', and_iff_left h]
    have hlater :
        z.before now { wall := now.wall + duration, zone := now.zone, ranged := h } = true ↔
          now.wall < now.wall + duration := before_of_sameZone rfl
    rw [hlater]
    exact lt_add_iff_pos_right _
  · simp [h]

theorem nextDay_later_iff (now : Aware Z) (time : { time : ℤ // 0 ≤ time ∧ time < dayLength }) :
    (∃ until_, (now.combine time).plus dayLength = some until_ ∧ z.before now until_ = true) ↔
      Ranged (now.startOfDay + dayLength) := by
  have hranged : Ranged ((now.combine time).wall + dayLength) ↔
      Ranged (now.startOfDay + dayLength) := ranged_nextDay_iff now time
  unfold Aware.plus
  split_ifs with h
  · let next : Aware Z :=
      { wall := (now.combine time).wall + dayLength, zone := now.zone, ranged := h }
    have hlater : z.before now next = true ↔ now.wall < now.startOfDay + time + dayLength :=
      before_of_sameZone rfl
    refine iff_of_true ⟨_, rfl, hlater.mpr ?_⟩ (hranged.mp h)
    have hend := lt_startOfDay_add now
    have htime := time.2.1
    omega
  · refine iff_of_false ?_ (mt hranged.mpr h)
    rintro ⟨until_, hnone, -⟩
    cases hnone

theorem endOf_later_iff :
    (∃ until_, b.endOf z reason now = .ok until_ ∧ z.before now until_ = true) ↔
      b.ResetsLater z reason now := by
  unfold endOf ResetsLater
  rw [retryAt_eq]
  cases resetOf reason.toList with
  | stamp utc =>
    unfold Reset.moment
    dsimp only
    split_ifs with h
    · simp only [bind, Except.bind, pure, Except.pure, Except.ok.injEq, exists_eq_left', h, true_and]
      exact before_utc rfl
    · simp [bind, Except.bind, h]
  | dated reading =>
    simp only [Reset.moment, bind, Except.bind, pure, Except.pure, Except.ok.injEq, exists_eq_left']
    exact before_of_sameZone rfl
  | clock time =>
    have hsame : z.before now (now.combine time) = true ↔ now.wall < now.startOfDay + time :=
      before_of_sameZone rfl
    unfold Reset.moment
    dsimp only
    split_ifs with h
    · simp only [bind, Except.bind, pure, Except.pure, Except.ok.injEq, exists_eq_left', h,
        hsame.mp h, true_or]
    · rw [hsame] at h
      simp only [h, false_or]
      rw [← nextDay_later_iff (z := z) now time]
      cases (now.combine time).plus dayLength <;>
        simp [inRange, Except.map, bind, Except.bind, pure, Except.pure]
  | unnamed =>
    simp only [Reset.moment, bind, Except.bind, inRange_ok]
    rw [plus_later_iff]
    simp

end CircuitBreaker

/-- Opening the circuit blocks exactly if the reset that the text names is not over. -/
theorem open_blocks_iff (b : CircuitBreaker Z) (reason : String) (now : Aware Z) :
    (∃ until_, b.BlocksUntil z reason now until_) ↔ b.ResetsLater z reason now :=
  CircuitBreaker.blocks_iff.trans CircuitBreaker.endOf_later_iff

section

/-- A single zone, which is UTC. -/
def utcOnly : Zones Unit where
  offset _ _ _ := 0
  utc := ()
  offset_utc _ _ := rfl

def quotaFailedAt : Aware Unit where
  wall := 1789835480000000
  zone := ()
  ranged := by decide

theorem not_blocks_of_wall (text : String) (wall : ℤ)
    (h : ((({} : CircuitBreaker Unit).openCircuit utcOnly text quotaFailedAt).1.toOption.map
      fun moment => moment.wall) = some wall) (hpast : wall ≤ quotaFailedAt.wall) :
    ¬ ∃ until_, CircuitBreaker.BlocksUntil utcOnly {} text quotaFailedAt until_ := by
  rintro ⟨until_, hblocks⟩
  rw [hblocks.returned] at h
  have hzone : quotaFailedAt.zone = until_.zone := rfl
  have hlater := (before_of_sameZone hzone).mp hblocks.later
  have hwall : until_.wall = wall := Option.some.inj h
  rw [hwall] at hlater
  exact absurd hlater (not_lt.mpr hpast)

/-- The reset is named to the minute, and this minute has begun; a stamp is no better. -/
theorem past_reset_does_not_block :
    (¬ ∃ until_, CircuitBreaker.BlocksUntil utcOnly {}
      "You've hit your usage limit; try again at Sep 19th, 2026 4:31 PM." quotaFailedAt until_) ∧
    ¬ ∃ until_, CircuitBreaker.BlocksUntil utcOnly {}
      "usage limit; try again at 2026-09-19T16:31:00+00:00" quotaFailedAt until_ := by
  refine ⟨?_, ?_⟩
  · exact not_blocks_of_wall _ 1789835460000000 (by decide +kernel) (by decide)
  · exact not_blocks_of_wall _ 1789835460000000 (by decide +kernel) (by decide)

end

end ChainQuantStudio.Studio
