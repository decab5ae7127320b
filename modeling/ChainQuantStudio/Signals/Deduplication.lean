import ChainQuantStudio.Signals.Policy

/-!
# The deduplicator as a filter over the history of calls

`SignalDeduplicator` keeps a bounded memory of occurrences and the signals whose cooldown is not
over. The reference filter has the whole history instead: an occurrence goes on record when it is
submitted while it is not among the last ones on record, and a cooldown runs from every signal that
was accepted.
-/

namespace ChainQuantStudio.Signals

open BoundedDeque Data State.Supervisor

/-- A signal and the clock reading it is submitted with. -/
abbrev Submission := Signal × Instant

/-- The occurrences on record. One that has left the last `capacity` goes on record again. -/
def recorded (capacity : ℕ) (submissions : List Submission) : List OccurrenceKey :=
  submissions.foldl (fun keys submission =>
    if submission.1.occurrenceKey ∈ keys.rtake capacity then keys
    else keys ++ [submission.1.occurrenceKey]) []

abbrev Answer := Submission × Bool

/-- Neither is the occurrence among the last on record, nor was a signal of its strategy and
fingerprint accepted less than the cooldown ago. -/
def Allows (capacity : ℕ) (cooldownSeconds : ℚ) (history : List Answer) (submission : Submission) :
    Prop :=
  submission.1.occurrenceKey ∉ (recorded capacity (history.map Prod.fst)).rtake capacity ∧
    ∀ answer ∈ history, answer.2 = true → answer.1.1.key = submission.1.key →
      cooldownSeconds ≤ totalSeconds (submission.2 - answer.1.2)

instance (capacity : ℕ) (cooldownSeconds : ℚ) (history : List Answer) (submission : Submission) :
    Decidable (Allows capacity cooldownSeconds history submission) :=
  inferInstanceAs (Decidable (_ ∧ _))

/-- The answers of the reference filter. -/
def filtered (capacity : ℕ) (cooldownSeconds : ℚ) (submissions : List Submission) : List Answer :=
  submissions.foldl (fun history submission =>
    history ++ [(submission, decide (Allows capacity cooldownSeconds history submission))]) []

namespace SignalDeduplicator

def new (cooldownSeconds : ℚ) (occurrenceCapacity : ℕ) (cooldown_nonneg : 0 ≤ cooldownSeconds)
    (capacity_pos : 0 < occurrenceCapacity) : SignalDeduplicator where
  cooldownSeconds
  occurrenceCapacity
  cooldown_nonneg
  capacity_pos

/-- The answers to a list of calls. -/
def answers (deduplicator : SignalDeduplicator) : List Submission → List Answer
  | [] => []
  | submission :: rest =>
    (submission, (deduplicator.accept submission.1 submission.2).2) ::
      answers (deduplicator.accept submission.1 submission.2).1 rest

variable {deduplicator : SignalDeduplicator} {signal : Signal} {now : Instant}

theorem accept_occurrenceCapacity :
    (deduplicator.accept signal now).1.occurrenceCapacity = deduplicator.occurrenceCapacity := by
  unfold accept
  dsimp only
  split
  · rfl
  split
  · rfl
  split
  · split <;> rfl
  · rfl

def Runs (deduplicator : SignalDeduplicator) (key : String × String) (now : Instant) : Prop :=
  ∃ instant, (key, instant) ∈ deduplicator.lastEmitted ∧
    totalSeconds (now - instant) < deduplicator.cooldownSeconds

theorem accept_running (now : Instant) (hcooldown : deduplicator.cooldownSeconds ≠ 0)
    (hfresh : signal.occurrenceKey ∉ deduplicator.seenOccurrences) :
    let running := deduplicator.lastEmitted.filter fun entry =>
      totalSeconds (now - entry.2) < deduplicator.cooldownSeconds
    (deduplicator.Runs signal.key now ∧ (deduplicator.accept signal now).2 = false ∧
      (deduplicator.accept signal now).1.lastEmitted = running) ∨
    (¬ deduplicator.Runs signal.key now ∧ (deduplicator.accept signal now).2 = true ∧
      (deduplicator.accept signal now).1.lastEmitted = Dict.set running signal.key now) := by
  intro running
  have hmem : ∀ instant, (signal.key, instant) ∈ running ↔
      (signal.key, instant) ∈ deduplicator.lastEmitted ∧
        totalSeconds (now - instant) < deduplicator.cooldownSeconds := by
    intro instant
    simp [running]
  cases hget : Dict.get? running signal.key with
  | some previous =>
    obtain ⟨hlast, hless⟩ := (hmem previous).mp (Dict.mem_of_get? hget)
    left
    refine ⟨⟨previous, hlast, hless⟩, ?_, ?_⟩
    · simp only [accept, if_neg hfresh, if_neg hcooldown, running, hget] at hget ⊢
      simp [hless]
    · simp only [accept, if_neg hfresh, if_neg hcooldown, running, hget] at hget ⊢
      simp [hless]
  | none =>
    right
    refine ⟨?_, ?_, ?_⟩
    · rintro ⟨instant, hlast, hless⟩
      exact Dict.get?_eq_none.mp hget _ ((hmem instant).mpr ⟨hlast, hless⟩) rfl
    · simp only [accept, if_neg hfresh, if_neg hcooldown, running] at hget ⊢
      simp [hget]
    · simp only [accept, if_neg hfresh, if_neg hcooldown, running] at hget ⊢
      simp [hget]

theorem recorded_concat (capacity : ℕ) (submissions : List Submission) (submission : Submission) :
    recorded capacity (submissions ++ [submission]) =
      if submission.1.occurrenceKey ∈ (recorded capacity submissions).rtake capacity then
        recorded capacity submissions
      else recorded capacity submissions ++ [submission.1.occurrenceKey] := by
  unfold recorded
  rw [List.foldl_append]
  rfl

structure Follows (deduplicator : SignalDeduplicator) (history : List Answer) (latest : Instant) :
    Prop where
  occurrences : deduplicator.seenOccurrences =
    (recorded deduplicator.occurrenceCapacity (history.map Prod.fst)).rtake
      deduplicator.occurrenceCapacity
  past : ∀ answer ∈ history, answer.1.2 ≤ latest
  cooldowns : deduplicator.cooldownSeconds ≠ 0 → ∀ key, ∀ now ≥ latest,
    (deduplicator.Runs key now ↔ ∃ answer ∈ history, answer.2 = true ∧ answer.1.1.key = key ∧
      totalSeconds (now - answer.1.2) < deduplicator.cooldownSeconds)

theorem follows_new (cooldownSeconds : ℚ) (capacity : ℕ) (hnonneg : 0 ≤ cooldownSeconds)
    (hpos : 0 < capacity) (latest : Instant) :
    (new cooldownSeconds capacity hnonneg hpos).Follows [] latest := by
  refine ⟨?_, by simp, ?_⟩
  · simp [new, recorded, List.rtake]
  · simp [new, Runs]

theorem totalSeconds_mono {a b : ℤ} (h : a ≤ b) : totalSeconds a ≤ totalSeconds b := by
  have hcast : (a : ℚ) ≤ b := Int.cast_le.mpr h
  exact div_le_div_of_nonneg_right hcast (by norm_num)

theorem totalSeconds_nonneg {a : ℤ} (h : 0 ≤ a) : 0 ≤ totalSeconds a := by
  have hcast : (0 : ℚ) ≤ a := Int.cast_nonneg h
  exact div_nonneg hcast (by norm_num)

variable {history : List Answer} {latest : Instant}

theorem Follows.accept_eq (h : deduplicator.Follows history latest) (hnow : latest ≤ now) :
    (deduplicator.accept signal now).2 =
      decide (Allows deduplicator.occurrenceCapacity deduplicator.cooldownSeconds history
        (signal, now)) := by
  by_cases hseen : signal.occurrenceKey ∈ deduplicator.seenOccurrences
  · have hno : ¬ Allows deduplicator.occurrenceCapacity deduplicator.cooldownSeconds history
        (signal, now) := fun hallows => hallows.1 (h.occurrences ▸ hseen)
    simp [accept, hseen, hno]
  · have hfresh : signal.occurrenceKey ∉ (recorded deduplicator.occurrenceCapacity
        (history.map Prod.fst)).rtake deduplicator.occurrenceCapacity := h.occurrences ▸ hseen
    by_cases hcooldown : deduplicator.cooldownSeconds = 0
    · have hallows : Allows deduplicator.occurrenceCapacity deduplicator.cooldownSeconds history
          (signal, now) := by
        refine ⟨hfresh, fun answer hanswer _ _ => ?_⟩
        rw [hcooldown]
        have hpast := h.past answer hanswer
        exact totalSeconds_nonneg (Int.sub_nonneg.mpr (hpast.trans hnow))
      rw [accept_of_zero hcooldown hseen, decide_eq_true hallows]
    · have hruns := h.cooldowns hcooldown signal.key now hnow
      rcases accept_running now hcooldown hseen with ⟨hrun, hanswer, -⟩ | ⟨hrun, hanswer, -⟩
      · obtain ⟨answer, hmem, haccepted, hkey, hless⟩ := hruns.mp hrun
        have hno : ¬ Allows deduplicator.occurrenceCapacity deduplicator.cooldownSeconds history
            (signal, now) := fun hallows =>
          absurd (hallows.2 answer hmem haccepted hkey) (not_le.mpr hless)
        rw [hanswer, decide_eq_false hno]
      · have hallows : Allows deduplicator.occurrenceCapacity deduplicator.cooldownSeconds history
            (signal, now) := by
          refine ⟨hfresh, fun answer hmem haccepted hkey => ?_⟩
          by_contra hless
          exact hrun (hruns.mpr ⟨answer, hmem, haccepted, hkey, not_le.mp hless⟩)
        rw [hanswer, decide_eq_true hallows]

theorem accept_runs (hcooldown : deduplicator.cooldownSeconds ≠ 0)
    (hfresh : signal.occurrenceKey ∉ deduplicator.seenOccurrences) {key : String × String}
    {later : Instant} (hlater : now ≤ later) :
    (deduplicator.accept signal now).1.Runs key later ↔
      deduplicator.Runs key later ∨ (deduplicator.accept signal now).2 = true ∧ signal.key = key ∧
        totalSeconds (later - now) < deduplicator.cooldownSeconds := by
  have hmono : ∀ instant, totalSeconds (later - instant) < deduplicator.cooldownSeconds →
      totalSeconds (now - instant) < deduplicator.cooldownSeconds := by
    intro instant hless
    refine lt_of_le_of_lt (totalSeconds_mono ?_) hless
    exact Int.sub_le_sub_right hlater instant
  unfold Runs
  rw [accept_cooldownSeconds]
  rcases accept_running now hcooldown hfresh with
    ⟨-, hanswer, hlast⟩ | ⟨hrun, hanswer, hlast⟩
  · rw [hanswer, hlast]
    constructor
    · rintro ⟨instant, hmem, hless⟩
      exact .inl ⟨instant, List.mem_of_mem_filter hmem, hless⟩
    · rintro (⟨instant, hmem, hless⟩ | ⟨hfalse, -⟩)
      · exact ⟨instant, List.mem_filter.mpr ⟨hmem, by simpa using hmono instant hless⟩, hless⟩
      · cases hfalse
  · rw [hanswer, hlast]
    constructor
    · rintro ⟨instant, hmem, hless⟩
      rcases Dict.mem_set hmem with hold | hnew
      · exact .inl ⟨instant, List.mem_of_mem_filter hold, hless⟩
      · obtain ⟨rfl, rfl⟩ := Prod.mk.inj hnew
        exact .inr ⟨rfl, rfl, hless⟩
    · rintro (⟨instant, hmem, hless⟩ | ⟨-, rfl, hless⟩)
      · refine ⟨instant, Dict.mem_set_of_ne ?_ ?_ now, hless⟩
        · exact List.mem_filter.mpr ⟨hmem, by simpa using hmono instant hless⟩
        · rintro rfl
          exact hrun ⟨instant, hmem, hmono instant hless⟩
      · exact ⟨now, Dict.mem_set_self _ _ _, hless⟩

theorem accept_of_seen (hseen : signal.occurrenceKey ∈ deduplicator.seenOccurrences) :
    deduplicator.accept signal now = (deduplicator, false) := by
  simp [accept, hseen]

theorem Follows.step (h : deduplicator.Follows history latest) (signal : Signal)
    (hnow : latest ≤ now) :
    (deduplicator.accept signal now).1.Follows
      (history ++ [((signal, now), (deduplicator.accept signal now).2)]) now := by
  have hpast : ∀ answer ∈ history, answer.1.2 ≤ now := fun answer hanswer =>
    (h.past answer hanswer).trans hnow
  constructor
  case occurrences =>
    rw [accept_occurrenceCapacity, List.map_append, List.map_singleton, recorded_concat,
      ← h.occurrences]
    split
    case isTrue hseen => rw [accept_of_seen hseen, h.occurrences]
    case isFalse hfresh => rw [accept_seenOccurrences hfresh, h.occurrences, pushBack_rtake]
  case past =>
    intro answer hanswer
    rcases List.mem_append.mp hanswer with hold | hnew
    · exact hpast answer hold
    · rw [List.mem_singleton.mp hnew]
  case cooldowns =>
    intro hcooldown key later hlater
    rw [accept_cooldownSeconds] at hcooldown ⊢
    have hbefore := h.cooldowns hcooldown key later (hnow.trans hlater)
    by_cases hseen : signal.occurrenceKey ∈ deduplicator.seenOccurrences
    · rw [accept_of_seen hseen, hbefore]
      simp
    · rw [accept_runs hcooldown hseen hlater, hbefore]
      simp only [List.mem_append, List.mem_singleton]
      constructor
      · rintro (⟨answer, hmem, hrest⟩ | ⟨hanswer, hkey, hless⟩)
        · exact ⟨answer, .inl hmem, hrest⟩
        · exact ⟨_, .inr rfl, hanswer, hkey, hless⟩
      · rintro ⟨answer, hmem | rfl, hrest⟩
        · exact .inl ⟨answer, hmem, hrest⟩
        · exact .inr hrest

theorem Follows.answers_eq (h : deduplicator.Follows history latest) (submissions : List Submission)
    (hlatest : ∀ submission ∈ submissions, latest ≤ submission.2)
    (hsorted : submissions.Pairwise (·.2 ≤ ·.2)) :
    history ++ deduplicator.answers submissions =
      submissions.foldl (fun history submission => history ++
        [(submission, decide (Allows deduplicator.occurrenceCapacity deduplicator.cooldownSeconds
          history submission))]) history := by
  induction submissions generalizing deduplicator history latest with
  | nil => simp [answers]
  | cons submission rest ih =>
    obtain ⟨signal, now⟩ := submission
    obtain ⟨hfirst, hrest⟩ := List.pairwise_cons.mp hsorted
    have hnow : latest ≤ now := hlatest _ List.mem_cons_self
    have hstep := ih (h.step signal hnow) hfirst hrest
    rw [accept_occurrenceCapacity, accept_cooldownSeconds] at hstep
    rw [List.foldl_cons, answers, ← h.accept_eq hnow, ← hstep]
    simp

theorem Follows.allows (h : deduplicator.Follows history latest) (submissions : List Submission)
    (hlatest : ∀ submission ∈ submissions, latest ≤ submission.2)
    (hsorted : submissions.Pairwise (·.2 ≤ ·.2)) {before : List Answer} {answer : Answer}
    (hanswered : before ++ [answer] <+: deduplicator.answers submissions) :
    answer.2 = decide (Allows deduplicator.occurrenceCapacity deduplicator.cooldownSeconds
      (history ++ before) answer.1) := by
  induction submissions generalizing deduplicator history latest before with
  | nil => simp [answers] at hanswered
  | cons submission rest ih =>
    obtain ⟨signal, now⟩ := submission
    obtain ⟨hfirst, hrest⟩ := List.pairwise_cons.mp hsorted
    have hnow : latest ≤ now := hlatest _ List.mem_cons_self
    cases before with
    | nil =>
      obtain ⟨rfl, -⟩ := List.cons_prefix_cons.mp hanswered
      rw [List.append_nil]
      exact h.accept_eq hnow
    | cons first before =>
      obtain ⟨rfl, hlater⟩ := List.cons_prefix_cons.mp hanswered
      have hstep := ih (h.step signal hnow) hfirst hrest hlater
      rw [accept_occurrenceCapacity, accept_cooldownSeconds, List.append_assoc] at hstep
      exact hstep

end SignalDeduplicator

open SignalDeduplicator

/-- With a clock that does not go back the answers are those of the reference filter: a signal is
accepted exactly when the calls before it allow it, and an occurrence among the last on record is
suppressed whatever became of it before. -/
theorem answers_eq_filtered (cooldownSeconds : ℚ) (capacity : ℕ) (hnonneg : 0 ≤ cooldownSeconds)
    (hpos : 0 < capacity) (submissions : List Submission)
    (hsorted : submissions.Pairwise (·.2 ≤ ·.2)) :
    (new cooldownSeconds capacity hnonneg hpos).answers submissions =
        filtered capacity cooldownSeconds submissions ∧
      ∀ before answer,
        before ++ [answer] <+: (new cooldownSeconds capacity hnonneg hpos).answers submissions →
        (answer.2 = true ↔ Allows capacity cooldownSeconds before answer.1) ∧
        (answer.1.1.occurrenceKey ∈ (recorded capacity (before.map Prod.fst)).rtake capacity →
          answer.2 = false) := by
  -- The first instant bounds the others, and the empty memories follow the empty history.
  have hfollows : ∀ latest, (new cooldownSeconds capacity hnonneg hpos).Follows [] latest :=
    follows_new cooldownSeconds capacity hnonneg hpos
  obtain ⟨latest, hlatest⟩ : ∃ latest : Instant, ∀ submission ∈ submissions,
      latest ≤ submission.2 := by
    cases submissions with
    | nil => exact ⟨0, by simp⟩
    | cons first rest =>
      refine ⟨first.2, fun submission hmem => ?_⟩
      rcases List.mem_cons.mp hmem with rfl | hmem
      · exact le_refl _
      · exact (List.pairwise_cons.mp hsorted).1 submission hmem
  refine ⟨(hfollows latest).answers_eq submissions hlatest hsorted,
    fun before answer hanswered => ?_⟩
  have hallows : answer.2 = decide (Allows capacity cooldownSeconds before answer.1) :=
    (hfollows latest).allows submissions hlatest hsorted hanswered
  rw [hallows]
  exact ⟨decide_eq_true_iff, fun hseen => decide_eq_false fun h => h.1 hseen⟩

def firstSubmitted (submissions : List Submission) : List OccurrenceKey :=
  (submissions.map fun submission => submission.1.occurrenceKey).eraseDups

def occurrence (fingerprint : String) : Submission :=
  ({ strategyName := "a", strategyVersion := "1.0.0", canonicalSymbol := "BTCUSDT", occurredAt := 0
     fingerprint }, 0)

/-- An occurrence that has left a memory of one, was accepted again and is in the memory again, is
suppressed, though the last occurrence to be submitted for the first time is another. -/
theorem resubmitted_suppressed :
    ((new 0 1 (by decide) (by decide)).answers
        [occurrence "x", occurrence "y", occurrence "x", occurrence "x"]).map Prod.snd =
      [true, true, true, false] ∧
    (occurrence "x").1.occurrenceKey ∉
      (firstSubmitted [occurrence "x", occurrence "y", occurrence "x"]).rtake 1 ∧
    ∀ earlier ∈ [occurrence "x", occurrence "y", occurrence "x"],
      0 ≤ totalSeconds ((occurrence "x").2 - earlier.2) := by
  decide +kernel

/-- Half a minute of cooldown and a memory of two. -/
theorem answers_eq_filtered_cooling :
    (new 30 2 (by decide) (by decide)).answers
        [occurrence "x", occurrence "y", ((occurrence "x").1, 31000000)] =
      filtered 2 30 [occurrence "x", occurrence "y", ((occurrence "x").1, 31000000)] :=
  (answers_eq_filtered 30 2 (by decide) (by decide)
    [occurrence "x", occurrence "y", ((occurrence "x").1, 31000000)] (by decide +kernel)).1

end ChainQuantStudio.Signals
