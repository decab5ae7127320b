import ChainQuantStudio.Signals.Engine

/-!
# Definitions that share an engine

All definitions share one memory of occurrences and one of running cooldowns. Beside the memories
of the engine a run carries those of a deduplicator that is given the signals of one definition
alone. As long as the shared memories have not lost what the definition submits again, it gets the
answers of its own deduplicator, so that what it gets does not depend on the others.
-/

namespace ChainQuantStudio.Signals

open BoundedDeque Data Run State.Market State.Supervisor

def SignalDeduplicator.ofDefinition (deduplicator : SignalDeduplicator) (name : String) :
    SignalDeduplicator :=
  { deduplicator with
    lastEmitted := deduplicator.lastEmitted.filter fun entry => entry.1.1 = name
    seenOccurrences := deduplicator.seenOccurrences.filter fun key => key.1 = name }

structure Memories where
  shared : SignalDeduplicator
  own : SignalDeduplicator

namespace Memories

variable (memories : Memories) (name : String)

def step (submission : Submission) : Memories where
  shared := (memories.shared.accept submission.1 submission.2).1
  own := if submission.1.strategyName = name then
      (memories.own.accept submission.1 submission.2).1
    else memories.own

def Keeps (submission : Submission) : Prop :=
  submission.1.strategyName = name →
    (submission.1.occurrenceKey ∈ memories.own.seenOccurrences →
      submission.1.occurrenceKey ∈ memories.shared.seenOccurrences) ∧
    (memories.own.Runs submission.1.key submission.2 →
      memories.shared.Runs submission.1.key submission.2)

structure Nested : Prop where
  occurrenceCapacity : memories.own.occurrenceCapacity = memories.shared.occurrenceCapacity
  cooldownSeconds : memories.own.cooldownSeconds = memories.shared.cooldownSeconds
  occurrences : memories.shared.seenOccurrences.filter (fun key => decide (key.1 = name)) <:+
    memories.own.seenOccurrences
  cooldowns : ∀ entry ∈ memories.shared.lastEmitted, entry.1.1 = name →
    entry ∈ memories.own.lastEmitted

end Memories

namespace SignalDeduplicator

variable {deduplicator : SignalDeduplicator} {signal : Signal} {now : Instant}

theorem accept_lastEmitted_of_zero (hzero : deduplicator.cooldownSeconds = 0) :
    (deduplicator.accept signal now).1.lastEmitted = deduplicator.lastEmitted := by
  by_cases hseen : signal.occurrenceKey ∈ deduplicator.seenOccurrences <;>
    simp [accept, hseen, hzero]

theorem mem_accept_lastEmitted {entry : (String × String) × Instant}
    (h : entry ∈ (deduplicator.accept signal now).1.lastEmitted) :
    entry ∈ deduplicator.lastEmitted ∨ entry = (signal.key, now) := by
  by_cases hseen : signal.occurrenceKey ∈ deduplicator.seenOccurrences
  · rw [accept_of_seen hseen] at h
    exact .inl h
  by_cases hzero : deduplicator.cooldownSeconds = 0
  · rw [accept_lastEmitted_of_zero hzero] at h
    exact .inl h
  rcases accept_running now hzero hseen with ⟨-, -, hlast⟩ | ⟨-, -, hlast⟩
  · rw [hlast] at h
    exact .inl (List.mem_of_mem_filter h)
  · rw [hlast] at h
    exact (Dict.mem_set h).imp_left List.mem_of_mem_filter

end SignalDeduplicator

namespace Memories

open SignalDeduplicator

variable {memories : Memories} {name : String} {signal : Signal} {now : Instant}

@[simp] theorem step_shared (memories : Memories) (name : String) (submission : Submission) :
    (memories.step name submission).shared =
      (memories.shared.accept submission.1 submission.2).1 := rfl

theorem step_own_self (hname : signal.strategyName = name) :
    (memories.step name (signal, now)).own = (memories.own.accept signal now).1 := if_pos hname

theorem step_own_other (hname : signal.strategyName ≠ name) :
    (memories.step name (signal, now)).own = memories.own := if_neg hname

theorem nested_ofDefinition (deduplicator : SignalDeduplicator) (name : String) :
    Nested ⟨deduplicator, deduplicator.ofDefinition name⟩ name where
  occurrenceCapacity := rfl
  cooldownSeconds := rfl
  occurrences := List.suffix_refl _
  cooldowns := fun entry hmem hname => List.mem_filter.mpr ⟨hmem, by simpa using hname⟩

theorem Nested.mem_own (h : memories.Nested name) (hname : signal.strategyName = name)
    (hseen : signal.occurrenceKey ∈ memories.shared.seenOccurrences) :
    signal.occurrenceKey ∈ memories.own.seenOccurrences := by
  apply h.occurrences.subset
  exact List.mem_filter.mpr ⟨hseen, decide_eq_true hname⟩

theorem Nested.runs_own (h : memories.Nested name) (hname : signal.strategyName = name)
    (hruns : memories.shared.Runs signal.key now) : memories.own.Runs signal.key now := by
  obtain ⟨instant, hmem, hless⟩ := hruns
  refine ⟨instant, h.cooldowns _ hmem hname, ?_⟩
  rwa [h.cooldownSeconds]

theorem Nested.step_other (h : memories.Nested name) (hname : signal.strategyName ≠ name) :
    (memories.step name (signal, now)).Nested name := by
  have hown := @step_own_other memories name signal now hname
  constructor
  case occurrenceCapacity =>
    rw [hown, h.occurrenceCapacity]
    exact accept_occurrenceCapacity.symm
  case cooldownSeconds =>
    rw [hown, h.cooldownSeconds]
    exact accept_cooldownSeconds.symm
  case occurrences =>
    rw [hown]
    by_cases hseen : signal.occurrenceKey ∈ memories.shared.seenOccurrences
    · simp only [step, accept_of_seen hseen]
      exact h.occurrences
    · simp only [step, accept_seenOccurrences hseen]
      exact filter_pushBack_other (decide_eq_false hname) h.occurrences
  case cooldowns =>
    intro entry hmem hentry
    rw [hown]
    rcases mem_accept_lastEmitted hmem with hold | rfl
    · exact h.cooldowns entry hold hentry
    · exact absurd hentry hname

theorem Nested.accept_own (h : memories.Nested name) (hname : signal.strategyName = name)
    (hkeeps : memories.Keeps name (signal, now)) :
    (memories.shared.accept signal now).2 = (memories.own.accept signal now).2 := by
  obtain ⟨hseen, hruns⟩ := hkeeps hname
  by_cases hshared : signal.occurrenceKey ∈ memories.shared.seenOccurrences
  · rw [accept_of_seen hshared, accept_of_seen (h.mem_own hname hshared)]
  have howned : signal.occurrenceKey ∉ memories.own.seenOccurrences := fun hown =>
    hshared (hseen hown)
  by_cases hzero : memories.shared.cooldownSeconds = 0
  · rw [accept_of_zero hzero hshared, accept_of_zero (h.cooldownSeconds.trans hzero) howned]
  have hcooldown : memories.own.cooldownSeconds ≠ 0 := h.cooldownSeconds ▸ hzero
  have hiff : memories.shared.Runs signal.key now ↔ memories.own.Runs signal.key now :=
    ⟨h.runs_own hname, hruns⟩
  rcases accept_running now hzero hshared with ⟨hrun, hanswer, -⟩ | ⟨hrun, hanswer, -⟩ <;>
    rcases accept_running now hcooldown howned with ⟨hrun', hanswer', -⟩ | ⟨hrun', hanswer', -⟩
  · rw [hanswer, hanswer']
  · exact absurd (hiff.mp hrun) hrun'
  · exact absurd (hiff.mpr hrun') hrun
  · rw [hanswer, hanswer']

theorem Nested.step_own (h : memories.Nested name) (hname : signal.strategyName = name)
    (hkeeps : memories.Keeps name (signal, now)) :
    (memories.step name (signal, now)).Nested name := by
  have hown := @step_own_self memories name signal now hname
  have hanswer := h.accept_own hname hkeeps
  obtain ⟨hseen, hruns⟩ := hkeeps hname
  by_cases hshared : signal.occurrenceKey ∈ memories.shared.seenOccurrences
  · have hsame : memories.step name (signal, now) = memories := by
      simp [step, hname, accept_of_seen hshared, accept_of_seen (h.mem_own hname hshared)]
    rwa [hsame]
  have howned : signal.occurrenceKey ∉ memories.own.seenOccurrences := fun hmem =>
    hshared (hseen hmem)
  constructor
  case occurrenceCapacity =>
    rw [hown, accept_occurrenceCapacity, h.occurrenceCapacity]
    exact accept_occurrenceCapacity.symm
  case cooldownSeconds =>
    rw [hown, accept_cooldownSeconds, h.cooldownSeconds]
    exact accept_cooldownSeconds.symm
  case occurrences =>
    rw [hown, accept_seenOccurrences howned, h.occurrenceCapacity]
    simp only [step, accept_seenOccurrences hshared]
    exact filter_pushBack_own (decide_eq_true hname) h.occurrences
  case cooldowns =>
    intro entry hmem hentry
    rw [hown]
    change entry ∈ (memories.shared.accept signal now).1.lastEmitted at hmem
    by_cases hzero : memories.shared.cooldownSeconds = 0
    · rw [accept_lastEmitted_of_zero hzero] at hmem
      rw [accept_lastEmitted_of_zero (h.cooldownSeconds.trans hzero)]
      exact h.cooldowns entry hmem hentry
    have hcooldown : memories.own.cooldownSeconds ≠ 0 := h.cooldownSeconds ▸ hzero
    have hrunning : ∀ entry ∈ memories.shared.lastEmitted.filter (fun entry =>
        decide (totalSeconds (now - entry.2) < memories.shared.cooldownSeconds)),
        entry.1.1 = name → entry ∈ memories.own.lastEmitted.filter (fun entry =>
          decide (totalSeconds (now - entry.2) < memories.own.cooldownSeconds)) := by
      intro entry hmem hentry
      obtain ⟨hold, hless⟩ := List.mem_filter.mp hmem
      rw [h.cooldownSeconds]
      exact List.mem_filter.mpr ⟨h.cooldowns entry hold hentry, hless⟩
    -- The answers agree, so either both start the cooldown or neither does.
    rcases accept_running now hzero hshared with ⟨-, hfalse, hlast⟩ | ⟨hrun, htrue, hlast⟩ <;>
      rcases accept_running now hcooldown howned with ⟨-, hfalse', hlast'⟩ | ⟨-, htrue', hlast'⟩
    · rw [hlast] at hmem
      rw [hlast']
      exact hrunning entry hmem hentry
    · rw [hfalse, htrue'] at hanswer
      cases hanswer
    · rw [htrue, hfalse'] at hanswer
      cases hanswer
    · rw [hlast] at hmem
      rw [hlast']
      rcases Dict.mem_set hmem with hold | rfl
      · by_cases hkey : entry.1 = signal.key
        · obtain ⟨hlasted, hless⟩ := List.mem_filter.mp hold
          refine absurd ⟨entry.2, ?_, of_decide_eq_true hless⟩ hrun
          rwa [← hkey]
        · exact Dict.mem_set_of_ne (hrunning entry hold hentry) hkey now
      · exact Dict.mem_set_self _ _ _

theorem Nested.answers_own (h : memories.Nested name) {submissions : List Submission}
    (hkeeps : Guarded (step · name) (Keeps · name) memories submissions) :
    (memories.shared.answers submissions).filter (fun answer =>
        decide (answer.1.1.strategyName = name)) =
      memories.own.answers (submissions.filter fun submission =>
        decide (submission.1.strategyName = name)) := by
  induction submissions generalizing memories with
  | nil => rfl
  | cons submission rest ih =>
    obtain ⟨signal, now⟩ := submission
    obtain ⟨hfirst, hrest⟩ := hkeeps
    by_cases hname : signal.strategyName = name
    · have hlater := ih (h.step_own hname hfirst) hrest
      rw [step_own_self hname] at hlater
      simp only [answers, List.filter_cons, hname, decide_true, if_true,
        h.accept_own hname hfirst]
      exact congrArg _ hlater
    · have hlater := ih (h.step_other hname) hrest
      rw [step_own_other hname, step_shared] at hlater
      simpa [answers, hname] using hlater

theorem accept_runs_iff {deduplicator : SignalDeduplicator} {key : String × String}
    {later : Instant} (hlater : now ≤ later) :
    (deduplicator.accept signal now).1.Runs key later ↔
      deduplicator.Runs key later ∨ (deduplicator.accept signal now).2 = true ∧
        deduplicator.cooldownSeconds ≠ 0 ∧ signal.key = key ∧
        totalSeconds (later - now) < deduplicator.cooldownSeconds := by
  by_cases hseen : signal.occurrenceKey ∈ deduplicator.seenOccurrences
  · simp [accept_of_seen hseen]
  by_cases hzero : deduplicator.cooldownSeconds = 0
  · unfold Runs
    rw [accept_lastEmitted_of_zero hzero, accept_cooldownSeconds]
    simp [hzero]
  · rw [accept_runs hzero hseen hlater]
    simp [hzero]

/-- The shared memories have lost nothing of the definition. -/
structure Complete (memories : Memories) (name : String) (latest : Instant) : Prop where
  nested : memories.Nested name
  occurrences : ∀ key ∈ memories.own.seenOccurrences, key ∈ memories.shared.seenOccurrences
  cooldowns : ∀ key now, latest ≤ now → memories.own.Runs key now → memories.shared.Runs key now

theorem complete_ofDefinition (deduplicator : SignalDeduplicator) (name : String)
    (latest : Instant) : Complete ⟨deduplicator, deduplicator.ofDefinition name⟩ name latest where
  nested := nested_ofDefinition deduplicator name
  occurrences := fun _ hmem => List.mem_of_mem_filter hmem
  cooldowns := fun _ _ _ ⟨instant, hmem, hless⟩ => ⟨instant, List.mem_of_mem_filter hmem, hless⟩

variable {latest : Instant}

theorem Complete.keeps (h : memories.Complete name latest) (hnow : latest ≤ now) :
    memories.Keeps name (signal, now) := fun _ =>
  ⟨h.occurrences _, h.cooldowns _ _ hnow⟩

theorem mem_accept_of_room {deduplicator : SignalDeduplicator}
    (hroom : deduplicator.seenOccurrences.length < deduplicator.occurrenceCapacity)
    {key : OccurrenceKey} :
    key ∈ (deduplicator.accept signal now).1.seenOccurrences ↔
      key ∈ deduplicator.seenOccurrences ∨ key = signal.occurrenceKey := by
  by_cases hseen : signal.occurrenceKey ∈ deduplicator.seenOccurrences
  · rw [accept_of_seen hseen]
    exact ⟨.inl, fun h => h.elim id fun heq => heq ▸ hseen⟩
  · rw [accept_seenOccurrences hseen, pushBack_of_lt hroom]
    simp

theorem Complete.step (h : memories.Complete name latest) (hnow : latest ≤ now)
    (hroom : memories.shared.seenOccurrences.length < memories.shared.occurrenceCapacity) :
    (memories.step name (signal, now)).Complete name now := by
  by_cases hname : signal.strategyName = name
  · have hown := @step_own_self memories name signal now hname
    have hkeeps : memories.Keeps name (signal, now) := h.keeps hnow
    refine ⟨h.nested.step_own hname hkeeps, ?_, ?_⟩
    · intro key hmem
      rw [hown] at hmem
      rw [step_shared, mem_accept_of_room hroom]
      by_cases hseen : signal.occurrenceKey ∈ memories.own.seenOccurrences
      · rw [accept_of_seen hseen] at hmem
        exact .inl (h.occurrences key hmem)
      · rw [accept_seenOccurrences hseen] at hmem
        exact (mem_of_mem_pushBack hmem).imp_left (h.occurrences key)
    · intro key later hlater hruns
      rw [hown, accept_runs_iff hlater, ← h.nested.accept_own hname hkeeps,
        h.nested.cooldownSeconds] at hruns
      rw [step_shared, accept_runs_iff hlater]
      exact hruns.imp_left (h.cooldowns key later (hnow.trans hlater))
  · have hown := @step_own_other memories name signal now hname
    refine ⟨h.nested.step_other hname, ?_, ?_⟩
    · intro key hmem
      rw [hown] at hmem
      rw [step_shared, mem_accept_of_room hroom]
      exact .inl (h.occurrences key hmem)
    · intro key later hlater hruns
      rw [hown] at hruns
      rw [step_shared, accept_runs_iff hlater]
      exact .inl (h.cooldowns key later (hnow.trans hlater) hruns)

theorem length_accept_le (deduplicator : SignalDeduplicator) (signal : Signal) (now : Instant) :
    (deduplicator.accept signal now).1.seenOccurrences.length ≤
      deduplicator.seenOccurrences.length + 1 := by
  by_cases hseen : signal.occurrenceKey ∈ deduplicator.seenOccurrences
  · rw [accept_of_seen hseen]
    exact Nat.le_succ _
  · rw [accept_seenOccurrences hseen, length_pushBack]
    exact Nat.min_le_left ..

theorem Complete.guarded (h : memories.Complete name latest) {submissions : List Submission}
    (hlatest : ∀ submission ∈ submissions, latest ≤ submission.2)
    (hsorted : submissions.Pairwise (·.2 ≤ ·.2))
    (hroom : memories.shared.seenOccurrences.length + submissions.length ≤
      memories.shared.occurrenceCapacity) :
    Guarded (Memories.step · name) (Memories.Keeps · name) memories submissions := by
  induction submissions generalizing memories latest with
  | nil => trivial
  | cons submission rest ih =>
    obtain ⟨signal, now⟩ := submission
    obtain ⟨hfirst, hrest⟩ := List.pairwise_cons.mp hsorted
    have hnow : latest ≤ now := hlatest _ List.mem_cons_self
    have hlength := length_accept_le memories.shared signal now
    have hcapacity : (memories.shared.accept signal now).1.occurrenceCapacity =
        memories.shared.occurrenceCapacity := accept_occurrenceCapacity
    rw [List.length_cons] at hroom
    refine ⟨h.keeps hnow, ih (h.step hnow (by omega)) hfirst hrest ?_⟩
    rw [step_shared, hcapacity]
    dsimp only
    omega

end Memories

/-- An event with the market state, the clock reading and what the definitions do that the engine
finds at it. -/
structure Occasion where
  event : MarketEvent
  view : MarketStateView
  now : Instant
  evaluate : SignalDefinition → Evaluation

/-- Two occasions that differ in what other definitions do. -/
structure SameFor (definition : SignalDefinition) (occasion occasion' : Occasion) : Prop where
  event : occasion.event = occasion'.event
  view : occasion.view = occasion'.view
  now : occasion.now = occasion'.now
  evaluate : occasion.evaluate definition = occasion'.evaluate definition

def SignalDefinition.own (definition : SignalDefinition) (submissions : List Submission) :
    List Submission :=
  submissions.filter fun submission => submission.1.strategyName = definition.name

theorem SignalDefinition.own_append (definition : SignalDefinition)
    (first second : List Submission) :
    definition.own (first ++ second) = definition.own first ++ definition.own second :=
  List.filter_append ..

namespace SignalEngine

variable (engine : SignalEngine)

def evaluate (occasion : Occasion) : Evaluated :=
  engine.evaluateEvent occasion.view occasion.event occasion.now occasion.evaluate

/-- The signals that the engine accepts over a run. An exception that leaves an event is its
caller's, and the run goes on with the next event. -/
def accepted (engine : SignalEngine) : List Occasion → List Signal
  | [] => []
  | occasion :: rest =>
    (engine.evaluate occasion).accepted ++ accepted (engine.evaluate occasion).engine rest

def acceptedOf (definition : SignalDefinition) (occasions : List Occasion) : List Signal :=
  (engine.accepted occasions).filter fun signal => signal.strategyName = definition.name

def submissions (occasion : Occasion) : List Submission :=
  submitted engine.policy occasion.view occasion.event occasion.now occasion.evaluate
    (triggered engine.registry occasion.event)

/-- No exception of a definition that comes first ends the event. -/
def Reaches (definition : SignalDefinition) (occasion : Occasion)
    (definitions : List SignalDefinition) : Prop :=
  ∀ other ∈ definitions.takeWhile (fun other => other.name ≠ definition.name),
    isReady other.requirements occasion.view occasion.event occasion.now = .ok true →
      (occasion.evaluate other).escapes = false

/-- The definition has its turn in every event, and the shared memories have not lost what it
submits again. -/
structure Undisturbed (definition : SignalDefinition) (occasions : List Occasion) : Prop where
  reached : ∀ occasion ∈ occasions,
    Reaches definition occasion (triggered engine.registry occasion.event)
  kept : Guarded (Memories.step · definition.name) (Memories.Keeps · definition.name)
    ⟨engine.deduplicator, engine.deduplicator.ofDefinition definition.name⟩
    (occasions.flatMap engine.submissions)

variable {engine} {definition : SignalDefinition} {occasion occasion' : Occasion}

theorem accepted_eq (engine : SignalEngine) (occasions : List Occasion) :
    engine.accepted occasions =
      engine.deduplicator.acceptedSignals (occasions.flatMap engine.submissions) := by
  induction occasions generalizing engine with
  | nil => rfl
  | cons occasion rest ih =>
    have hanswers := @evaluateEvent_answers occasion.view occasion.event occasion.now engine
      occasion.evaluate
    have hsubmissions : (engine.evaluate occasion).engine.submissions = engine.submissions := by
      funext other
      simp only [submissions, evaluate, hanswers.policy, hanswers.registry]
    rw [accepted, ih, hsubmissions, List.flatMap_cons,
      SignalDeduplicator.acceptedSignals_append]
    exact congrArg₂ _ hanswers.accepted (by rw [evaluate, hanswers.deduplicator]; rfl)

theorem strategyName_of_valid {policy : SignalPolicy} {event : MarketEvent} {now : Instant}
    {value : Value} {signal : Signal}
    (h : validateSignal policy definition event now value = .ok signal) :
    signal.strategyName = definition.name := by
  cases value with
  | other => cases h
  | signal given expiresAt =>
    simp only [validateSignal] at h
    split at h
    · cases h
    · rename_i hidentity
      split_ifs at h
      cases h
      rw [not_or, not_not] at hidentity
      exact hidentity.1

theorem strategyName_of_mem {policy : SignalPolicy} {event : MarketEvent} {now : Instant}
    {values : List Value} {submission : Submission}
    (h : submission ∈ validSubmissions policy definition event now values) :
    submission.1.strategyName = definition.name := by
  obtain ⟨value, -, hvalue⟩ := List.mem_filterMap.mp h
  split at hvalue
  · rename_i signal hvalid
    obtain rfl := Option.some.inj hvalue
    exact strategyName_of_valid hvalid
  · cases hvalue

theorem own_validSubmissions_other {other : SignalDefinition}
    (hname : other.name ≠ definition.name) (policy : SignalPolicy) (event : MarketEvent)
    (now : Instant) (values : List Value) :
    definition.own (validSubmissions policy other event now values) = [] := by
  apply List.filter_eq_nil_iff.mpr
  intro submission hmem
  rw [strategyName_of_mem hmem]
  simpa using hname

theorem own_submitted_others (policy : SignalPolicy) (occasion : Occasion)
    {definitions : List SignalDefinition}
    (hothers : ∀ other ∈ definitions, other.name ≠ definition.name) :
    definition.own (submitted policy occasion.view occasion.event occasion.now occasion.evaluate
      definitions) = [] := by
  induction definitions with
  | nil => rfl
  | cons other rest ih =>
    have hrest := ih fun later hmem => hothers later (List.mem_cons_of_mem _ hmem)
    have hfirst := own_validSubmissions_other (hothers other List.mem_cons_self) policy
      occasion.event occasion.now (occasion.evaluate other).values
    rw [submitted]
    split
    · rfl
    · exact hrest
    · rw [SignalDefinition.own_append, hfirst]
      split
      · rfl
      · exact hrest

theorem own_submitted_eq (policy : SignalPolicy) (hsame : SameFor definition occasion occasion')
    {definitions : List SignalDefinition} (hunique : (definitions.map SignalDefinition.name).Nodup)
    (hself : ∀ other ∈ definitions, other.name = definition.name → other = definition)
    (hreaches : Reaches definition occasion definitions)
    (hreaches' : Reaches definition occasion' definitions) :
    definition.own (submitted policy occasion.view occasion.event occasion.now occasion.evaluate
        definitions) =
      definition.own (submitted policy occasion'.view occasion'.event occasion'.now
        occasion'.evaluate definitions) := by
  induction definitions with
  | nil => rfl
  | cons other rest ih =>
    obtain ⟨hfresh, hunique⟩ := List.nodup_cons.mp hunique
    have hready : isReady other.requirements occasion'.view occasion'.event occasion'.now =
        isReady other.requirements occasion.view occasion.event occasion.now := by
      rw [hsame.view, hsame.event, hsame.now]
    rw [submitted, submitted, hready]
    by_cases hname : other.name = definition.name
    · -- the definition itself: those behind it have other names
      have hothers : ∀ later ∈ rest, later.name ≠ definition.name := by
        intro later hmem heq
        exact hfresh (List.mem_map.mpr ⟨later, hmem, heq.trans hname.symm⟩)
      obtain rfl := hself other List.mem_cons_self hname
      have hnone := own_submitted_others policy occasion hothers
      have hnone' := own_submitted_others policy occasion' hothers
      split
      · rfl
      · rw [hnone, hnone']
      · rw [SignalDefinition.own_append, SignalDefinition.own_append, ← hsame.evaluate,
          ← hsame.event, ← hsame.now]
        split
        · rfl
        · rw [hnone, hsame.event, hsame.now, hnone']
    · -- a definition before it submits nothing of its name and lets the event go on
      have hbefore : Reaches definition occasion rest := fun later hmem =>
        hreaches later (by rw [List.takeWhile_cons_of_pos (by simpa using hname)]
                           exact List.mem_cons_of_mem _ hmem)
      have hbefore' : Reaches definition occasion' rest := fun later hmem =>
        hreaches' later (by rw [List.takeWhile_cons_of_pos (by simpa using hname)]
                            exact List.mem_cons_of_mem _ hmem)
      have hrest := ih hunique (fun later hmem => hself later (List.mem_cons_of_mem _ hmem))
        hbefore hbefore'
      have hfirst : other ∈ (other :: rest).takeWhile
          (fun other => decide (other.name ≠ definition.name)) := by
        rw [List.takeWhile_cons_of_pos (by simpa using hname)]
        exact List.mem_cons_self
      split
      · rfl
      · exact hrest
      · rename_i hok
        rw [hreaches other hfirst hok, hreaches' other hfirst (hready.trans hok)]
        rw [SignalDefinition.own_append, SignalDefinition.own_append,
          own_validSubmissions_other hname, own_validSubmissions_other hname]
        exact hrest

theorem acceptedOf_eq {occasions : List Occasion} (h : engine.Undisturbed definition occasions) :
    engine.acceptedOf definition occasions =
      (engine.deduplicator.ofDefinition definition.name).acceptedSignals
        (definition.own (occasions.flatMap engine.submissions)) := by
  have hnested := Memories.nested_ofDefinition engine.deduplicator definition.name
  have hanswers := hnested.answers_own h.kept
  rw [acceptedOf, accepted_eq, SignalDeduplicator.acceptedSignals, List.filter_map,
    List.filter_comm, SignalDeduplicator.acceptedSignals, SignalDefinition.own, ← hanswers]
  rfl

theorem own_submissions_eq {occasions occasions' : List Occasion}
    (hmem : definition ∈ engine.registry.definitions)
    (hsame : List.Forall₂ (SameFor definition) occasions occasions')
    (hreached : ∀ occasion ∈ occasions,
      Reaches definition occasion (triggered engine.registry occasion.event))
    (hreached' : ∀ occasion ∈ occasions',
      Reaches definition occasion (triggered engine.registry occasion.event)) :
    definition.own (occasions.flatMap engine.submissions) =
      definition.own (occasions'.flatMap engine.submissions) := by
  induction hsame with
  | nil => rfl
  | @cons occasion occasion' rest rest' hfirst hsame ih =>
    have hsublist := triggered_sublist engine.registry occasion.event
    have hself : ∀ other ∈ triggered engine.registry occasion.event,
        other.name = definition.name → other = definition := fun other hother hname =>
      List.inj_on_of_nodup_map engine.registry.unique (hsublist.subset hother) hmem hname
    have hown := own_submitted_eq engine.policy hfirst
      (engine.registry.unique.sublist (hsublist.map SignalDefinition.name)) hself
      (hreached occasion List.mem_cons_self)
      (hfirst.event ▸ hreached' occasion' List.mem_cons_self)
    have hrest := ih (fun other hother => hreached other (List.mem_cons_of_mem _ hother))
      fun other hother => hreached' other (List.mem_cons_of_mem _ hother)
    rw [List.flatMap_cons, List.flatMap_cons, SignalDefinition.own_append,
      SignalDefinition.own_append, hrest]
    have hfirst : definition.own (engine.submissions occasion) =
        definition.own (engine.submissions occasion') := by
      rw [submissions, submissions, ← hfirst.event] at *
      exact hown
    rw [hfirst]

/-- What the other definitions do in two undisturbed runs makes no difference to the signals of a
definition that are accepted. -/
theorem accepted_unaffected (hmem : definition ∈ engine.registry.definitions)
    {occasions occasions' : List Occasion}
    (hsame : List.Forall₂ (SameFor definition) occasions occasions')
    (h : engine.Undisturbed definition occasions)
    (h' : engine.Undisturbed definition occasions') :
    engine.acceptedOf definition occasions = engine.acceptedOf definition occasions' := by
  rw [acceptedOf_eq h, acceptedOf_eq h', own_submissions_eq hmem hsame h.reached h'.reached]

theorem reading_of_mem (engine : SignalEngine) {occasion : Occasion} {submission : Submission}
    (h : submission ∈ engine.submissions occasion) : submission.2 = occasion.now := by
  unfold submissions at h
  generalize triggered engine.registry occasion.event = definitions at h
  induction definitions with
  | nil => cases h
  | cons other rest ih =>
    rw [submitted] at h
    split at h
    · cases h
    · exact ih h
    · rcases List.mem_append.mp h with hfirst | hrest
      · obtain ⟨value, -, hvalue⟩ := List.mem_filterMap.mp hfirst
        split at hvalue
        · rw [← Option.some.inj hvalue]
        · cases hvalue
      · split at hrest
        · cases hrest
        · exact ih hrest

theorem undisturbed_of_room {occasions : List Occasion}
    (hreached : ∀ occasion ∈ occasions,
      Reaches definition occasion (triggered engine.registry occasion.event))
    (hsorted : occasions.Pairwise (·.now ≤ ·.now))
    (hroom : engine.deduplicator.seenOccurrences.length +
      (occasions.flatMap engine.submissions).length ≤ engine.deduplicator.occurrenceCapacity) :
    engine.Undisturbed definition occasions := by
  have hpairwise : (occasions.flatMap engine.submissions).Pairwise (·.2 ≤ ·.2) := by
    rw [List.pairwise_flatMap]
    constructor
    · intro occasion _
      apply List.pairwise_of_forall_mem_list
      intro first hfirst second hsecond
      rw [reading_of_mem engine hfirst, reading_of_mem engine hsecond]
    · refine hsorted.imp fun hle first hfirst second hsecond => ?_
      rwa [reading_of_mem engine hfirst, reading_of_mem engine hsecond]
  obtain ⟨latest, hlatest⟩ : ∃ latest : Instant, ∀ occasion ∈ occasions,
      latest ≤ occasion.now := by
    cases occasions with
    | nil => exact ⟨0, by simp⟩
    | cons first rest =>
      obtain ⟨hfirst, -⟩ := List.pairwise_cons.mp hsorted
      exact ⟨first.now, List.forall_mem_cons.mpr ⟨le_refl _, hfirst⟩⟩
  refine ⟨hreached, (Memories.complete_ofDefinition engine.deduplicator definition.name
    latest).guarded ?_ hpairwise hroom⟩
  intro submission hmem
  obtain ⟨occasion, hoccasion, hsubmission⟩ := List.mem_flatMap.mp hmem
  rw [reading_of_mem engine hsubmission]
  exact hlatest occasion hoccasion

end SignalEngine

open SignalEngine

instance (definition : SignalDefinition) (occasion : Occasion)
    (definitions : List SignalDefinition) : Decidable (Reaches definition occasion definitions) :=
  inferInstanceAs (Decidable (∀ other ∈ _, _ → _))

def tickerDefinition (name : String) : SignalDefinition where
  name
  version := "1.0.0"
  requirements := { triggerKinds := [.ticker] }

def twoDefinitions : SignalRegistry where
  definitions := [tickerDefinition "b", tickerDefinition "a"]
  named := by decide
  unique := by decide

def freshView : MarketStateView where
  snapshot := fun _ _ => .ok [⟨btcUsdt .binance .linearPerpetual, fun _ => true⟩]
  getCandles := fun _ _ => []
  isFresh := fun _ _ _ => true
  isCandleFresh := fun _ _ _ => .ok true

def tickerSignal (name fingerprint : String) : Signal where
  strategyName := name
  strategyVersion := "1.0.0"
  canonicalSymbol := "BTC/USDT"
  occurredAt := 0
  fingerprint

def tickerOccasion (other : Evaluation) : Occasion where
  event := .ticker
    { metadata := .numbered (btcUsdt .binance .linearPerpetual) 1 0, lastPrice := none }
  view := freshView
  now := 0
  evaluate := fun definition =>
    if definition.name = "a" then .returned [.signal (tickerSignal "a" "x") none] else other

def twoEngine (historySize : ℕ) (h : 0 < historySize) : SignalEngine :=
  .new twoDefinitions ⟨0, 30, historySize, by decide, by decide, h⟩

def otherReturns (fingerprint : String) : Evaluation :=
  .returned [.signal (tickerSignal "b" fingerprint) none]

/-- With a memory of one occurrence the other definition's signals let the repeated one through. -/
theorem other_definition_interferes :
    ¬ ∀ (engine : SignalEngine) (definition : SignalDefinition)
        (occasions occasions' : List Occasion), definition ∈ engine.registry.definitions →
      List.Forall₂ (SameFor definition) occasions occasions' →
      engine.acceptedOf definition occasions = engine.acceptedOf definition occasions' := by
  intro h
  have hsame : List.Forall₂ (SameFor (tickerDefinition "a"))
      [tickerOccasion (.returned []), tickerOccasion (.returned [])]
      [tickerOccasion (otherReturns "y"), tickerOccasion (otherReturns "z")] :=
    .cons ⟨rfl, rfl, rfl, rfl⟩ (.cons ⟨rfl, rfl, rfl, rfl⟩ .nil)
  have hmem : tickerDefinition "a" ∈ (twoEngine 1 (by decide)).registry.definitions :=
    List.mem_cons_of_mem _ List.mem_cons_self
  have hequal := h _ _ _ _ hmem hsame
  revert hequal
  decide +kernel

/-- The other definition is silent or emits a signal of its own. -/
theorem accepted_unaffected_ticker :
    (twoEngine 1000 (by decide)).acceptedOf (tickerDefinition "a")
        [tickerOccasion (.returned []), tickerOccasion (.returned [])] =
      (twoEngine 1000 (by decide)).acceptedOf (tickerDefinition "a")
        [tickerOccasion (otherReturns "y"), tickerOccasion .failed] := by
  apply accepted_unaffected
  · exact List.mem_cons_of_mem _ List.mem_cons_self
  · exact .cons ⟨rfl, rfl, rfl, rfl⟩ (.cons ⟨rfl, rfl, rfl, rfl⟩ .nil)
  · exact undisturbed_of_room (by decide +kernel) (by decide +kernel) (by decide +kernel)
  · exact undisturbed_of_room (by decide +kernel) (by decide +kernel) (by decide +kernel)

end ChainQuantStudio.Signals
