import ChainQuantStudio.State.CandidatePool

/-!
# When reconciling the candidate pool is all-or-nothing

A reconciliation that fails before the adapters are asked changes nothing but what an initialization
has discovered. One that an adapter stops midway leaves the adapters before it with other
subscriptions, unless these are the ones they had. One that succeeds reaches the target where the
instruments that the adapters kept are those of the symbols that stay.
-/

namespace ChainQuantStudio.State.Candidates

open CandidatePool Data SortedPrefix UntilRefused

structure Kept (before after : CandidatePool) : Prop where
  symbols : after.candidateSymbols = before.candidateSymbols
  listed : after.adapters.map PoolAdapter.listed = before.adapters.map PoolAdapter.listed
  requested : after.adapters.map PoolAdapter.requested = before.adapters.map PoolAdapter.requested

structure Attained (target : List String) (after : CandidatePool) : Prop where
  symbols : after.candidateSymbols = target
  listed : ∀ adapter ∈ after.adapters, (adapter.listed.map Instrument.canonicalSymbol).Perm target

def Outcome (before : CandidatePool) (target : List String) :
    CandidatePool × Except Raised CandidateReconcileResult → Prop
  | (after, .error _) => Kept before after
  | (after, .ok result) => if result.failed = [] then Attained target after else Kept before after

def AllOrNothing (pool : CandidatePool) (targetSymbols : List String) : Prop :=
  Outcome pool (sortedSet targetSymbols) (pool.reconcile targetSymbols)

theorem Outcome.attained {before : CandidatePool} {target : List String}
    {outcome : CandidatePool × Except Raised CandidateReconcileResult}
    (h : Outcome before target outcome) {result : CandidateReconcileResult}
    (hresult : outcome.2 = .ok result) (hfailed : result.failed = []) : Attained target outcome.1 := by
  obtain ⟨after, ended⟩ := outcome
  obtain rfl : ended = .ok result := hresult
  simpa only [Outcome, if_pos hfailed] using h

theorem Outcome.kept {before : CandidatePool} {target : List String}
    {outcome : CandidatePool × Except Raised CandidateReconcileResult}
    (h : Outcome before target outcome) {raised : Raised} (hraised : outcome.2 = .error raised) :
    Kept before outcome.1 := by
  obtain ⟨after, ended⟩ := outcome
  obtain rfl : ended = .error raised := hraised
  exact h

def PoolAdapter.ready (initialized : Bool) (adapter : PoolAdapter) : PoolAdapter :=
  if initialized then adapter else adapter.discover

def PoolAdapter.Aligned (removed unchanged : List String) (adapter : PoolAdapter) : Prop :=
  ((adapter.retained removed).map Instrument.canonicalSymbol).Perm unchanged

namespace CandidatePool

variable (pool : CandidatePool)

def DiscoversListed (registered : List Instrument) : List PoolAdapter → Prop
  | [] => True
  | adapter :: rest =>
    adapter.intervals pool.candleIntervals = [] ∨
      (adapter.found = [] ∧ pool.allowEmptyAdapters = false) ∨
      (adapter.found = adapter.listed ∧
        match registerAll registered adapter.found with
        | (_, some _) => True
        | (registered, none) => DiscoversListed registered rest)

/-- Initialization, where it is still due and every adapter answers it, finds what is listed. -/
def Undisturbed : Prop :=
  pool.initialized = true ∨
    (pool.adapters.any fun adapter => adapter.answers.discovered.isNone) = true ∨
    pool.DiscoversListed pool.registered pool.adapters

def RequestsAdditions (added : List String) (adapter : PoolAdapter) : Prop :=
  exchangeSymbols ((adapter.ready pool.initialized).withAdditions added) = adapter.requested

def Settled (added removed : List String) (adapter : PoolAdapter) : Prop :=
  let final := (adapter.ready pool.initialized).finalInstruments added removed
  final = adapter.listed ∧ exchangeSymbols final = adapter.requested

def Clean (added removed unchanged : List String) : Prop :=
  let ready := pool.adapters.map (PoolAdapter.ready pool.initialized)
  if added = [] ∧ removed = [] then ∀ adapter ∈ ready, adapter.Aligned removed unchanged
  else if prepare ready added ≠ .given then pool.Undisturbed
  else if (ready.all fun adapter => added.all adapter.answers.stores) = false then pool.Undisturbed
  else if (ready.all fun adapter => adapter.answers.takesAdditions) = false then
    pool.Undisturbed ∧
      ∀ adapter ∈ pool.adapters.takeWhile fun adapter => adapter.answers.takesAdditions,
        pool.RequestsAdditions added adapter
  else if removed ≠ [] ∧ (ready.all fun adapter => adapter.answers.takesFinal) = false then
    (∀ adapter ∈ pool.adapters.takeWhile fun adapter => adapter.answers.takesFinal,
      pool.Settled added removed adapter) ∧
    ∀ adapter ∈ pool.adapters.dropWhile fun adapter => adapter.answers.takesFinal,
      (adapter.ready pool.initialized).listed = adapter.listed ∧
        pool.RequestsAdditions added adapter
  else ∀ adapter ∈ ready, adapter.Aligned removed unchanged

/-- When a reconciliation is all-or-nothing. -/
def ReconcilesCleanly (targetSymbols : List String) : Prop :=
  let target := sortedSet targetSymbols
  if pool.scope ≠ .candidate then True
  else if pool.initializePool.2 ≠ none then pool.Undisturbed
  else
    pool.Clean (target.filter fun symbol => symbol ∉ pool.candidateSymbols)
      (pool.candidateSymbols.filter fun symbol => symbol ∉ target)
      (pool.candidateSymbols.filter fun symbol => symbol ∈ target)

end CandidatePool

section Initialization

variable {pool : CandidatePool}

@[simp] theorem PoolAdapter.discover_requested (adapter : PoolAdapter) :
    adapter.discover.requested = adapter.requested := rfl

@[simp] theorem PoolAdapter.discover_listed (adapter : PoolAdapter) :
    adapter.discover.listed = adapter.found := rfl

@[simp] theorem PoolAdapter.ready_answers (initialized : Bool) (adapter : PoolAdapter) :
    (adapter.ready initialized).answers = adapter.answers := by
  cases initialized <;> rfl

@[simp] theorem PoolAdapter.ready_requested (initialized : Bool) (adapter : PoolAdapter) :
    (adapter.ready initialized).requested = adapter.requested := by
  cases initialized <;> rfl

/-- The loop keeps the requested subscriptions, and the lists exactly when it finds what is listed;
where it does not raise it has come to every adapter. -/
theorem discoverAll_spec (registered : List Instrument) (adapters : List PoolAdapter) :
    (pool.discoverAll registered adapters).1.map PoolAdapter.requested =
        adapters.map PoolAdapter.requested ∧
      ((pool.discoverAll registered adapters).1.map PoolAdapter.listed =
          adapters.map PoolAdapter.listed ↔ pool.DiscoversListed registered adapters) ∧
      ((pool.discoverAll registered adapters).2.2 = none →
        (pool.discoverAll registered adapters).1 = adapters.map PoolAdapter.discover) := by
  induction adapters generalizing registered with
  | nil => simp [CandidatePool.discoverAll, CandidatePool.DiscoversListed]
  | cons adapter rest ih =>
    rw [CandidatePool.discoverAll, CandidatePool.DiscoversListed]
    by_cases hintervals : adapter.intervals pool.candleIntervals = []
    · simp [hintervals]
    rw [if_neg hintervals]
    by_cases hfound : adapter.found = []
    · obtain ⟨hrequested, hlisted, hall⟩ := ih registered
      cases hempty : pool.allowEmptyAdapters with
      | false => simp [hintervals, hfound]
      | true =>
        simp only [hfound, if_true, List.map_cons, PoolAdapter.discover_requested,
          PoolAdapter.discover_listed, List.cons.injEq, hrequested, hlisted, registerAll, hintervals,
          false_or, Bool.true_eq_false, and_false, true_and]
        exact hall
    · rw [if_neg hfound]
      cases hregister : registerAll registered adapter.found with
      | mk registered' raised =>
        cases raised with
        | some raised => simp [hintervals, hfound]
        | none =>
          obtain ⟨hrequested, hlisted, hall⟩ := ih registered'
          simp only [List.map_cons, PoolAdapter.discover_requested, PoolAdapter.discover_listed,
            List.cons.injEq, hrequested, hlisted, hintervals, hfound, false_or, false_and, true_and]
          exact hall

theorem Kept.refl (pool : CandidatePool) : Kept pool pool := ⟨rfl, rfl, rfl⟩

theorem initializePool_discovers (hdue : pool.initialized = false)
    (hanswered : (pool.adapters.any fun adapter => adapter.answers.discovered.isNone) = false) :
    pool.initializePool.1.adapters = (pool.discoverAll pool.registered pool.adapters).1 ∧
      pool.initializePool.1.candidateSymbols = pool.candidateSymbols ∧
      (pool.initializePool.2 = none → (pool.discoverAll pool.registered pool.adapters).2.2 = none) := by
  unfold CandidatePool.initializePool
  rw [hdue, hanswered, if_neg Bool.false_ne_true, if_neg Bool.false_ne_true]
  cases pool.discoverAll pool.registered pool.adapters with
  | mk adapters rest =>
    obtain ⟨registered, raised⟩ := rest
    cases raised with
    | some raised => exact ⟨rfl, rfl, id⟩
    | none =>
      dsimp only
      split_ifs <;> exact ⟨rfl, rfl, fun _ => rfl⟩

theorem kept_initializePool_iff (pool : CandidatePool) :
    Kept pool pool.initializePool.1 ↔ pool.Undisturbed := by
  unfold CandidatePool.Undisturbed
  cases hdue : pool.initialized with
  | true =>
    have hsame : pool.initializePool.1 = pool := by simp [CandidatePool.initializePool, hdue]
    rw [hsame]
    exact iff_of_true (.refl pool) (.inl rfl)
  | false =>
    cases hanswered : pool.adapters.any fun adapter => adapter.answers.discovered.isNone with
    | true =>
      have hsame : pool.initializePool.1 = pool := by
        simp only [CandidatePool.initializePool, hdue, hanswered]
        rfl
      rw [hsame]
      exact iff_of_true (.refl pool) (.inr (.inl rfl))
    | false =>
      obtain ⟨hadapters, hsymbols, -⟩ := initializePool_discovers hdue hanswered
      obtain ⟨hrequested, hlisted, -⟩ := @discoverAll_spec pool pool.registered pool.adapters
      rw [← hlisted, ← hadapters]
      constructor
      · exact fun h => .inr (.inr h.listed)
      · intro h
        refine ⟨hsymbols, (h.resolve_left Bool.false_ne_true).resolve_left Bool.false_ne_true, ?_⟩
        rw [hadapters, hrequested]

theorem ready_of_initializePool (h : pool.initializePool.2 = none) :
    pool.initializePool.1.adapters = pool.adapters.map (PoolAdapter.ready pool.initialized) ∧
      pool.initializePool.1.candidateSymbols = pool.candidateSymbols := by
  cases hdue : pool.initialized with
  | true =>
    have hsame : pool.initializePool.1 = pool := by simp [CandidatePool.initializePool, hdue]
    rw [hsame]
    exact ⟨(List.map_id pool.adapters).symm, rfl⟩
  | false =>
    cases hanswered : pool.adapters.any fun adapter => adapter.answers.discovered.isNone with
    | true =>
      simp only [CandidatePool.initializePool, hdue, hanswered] at h
      cases h
    | false =>
      obtain ⟨hadapters, hsymbols, hraised⟩ := initializePool_discovers hdue hanswered
      obtain ⟨-, -, hall⟩ := @discoverAll_spec pool pool.registered pool.adapters
      exact ⟨hadapters.trans (hall (hraised h)), hsymbols⟩

theorem undisturbed_iff_ready (h : pool.initializePool.2 = none) :
    pool.Undisturbed ↔
      ∀ adapter ∈ pool.adapters, (adapter.ready pool.initialized).listed = adapter.listed := by
  obtain ⟨hadapters, hsymbols⟩ := ready_of_initializePool h
  rw [← kept_initializePool_iff]
  have hlisted : pool.initializePool.1.adapters.map PoolAdapter.listed =
      pool.adapters.map PoolAdapter.listed ↔
        ∀ adapter ∈ pool.adapters, (adapter.ready pool.initialized).listed = adapter.listed := by
    rw [hadapters, List.map_map]
    exact List.map_inj_left
  refine ⟨fun hkept => hlisted.mp hkept.listed, fun hall => ⟨hsymbols, hlisted.mpr hall, ?_⟩⟩
  rw [hadapters, List.map_map]
  exact List.map_congr_left fun adapter _ => PoolAdapter.ready_requested pool.initialized adapter

end Initialization

section Passes

variable {pool : CandidatePool} {added removed unchanged target : List String}

theorem requested_settle (adapter : PoolAdapter) (hremoved : removed ≠ []) :
    (adapter.settle added removed).requested =
      exchangeSymbols (adapter.finalInstruments added removed) := by
  rw [PoolAdapter.settle, if_neg hremoved]
  rfl

theorem mem_takeWhile_or_dropWhile {α : Type*} {accepts : α → Bool} {entries : List α} {entry : α} :
    entry ∈ entries ↔ entry ∈ entries.takeWhile accepts ∨ entry ∈ entries.dropWhile accepts := by
  rw [← List.mem_append, List.takeWhile_append_dropWhile]

theorem kept_additions_iff {after : CandidatePool} (hinitialized : pool.initializePool.2 = none)
    (hsymbols : after.candidateSymbols = pool.candidateSymbols)
    (hafter : after.adapters = (untilRefused (fun adapter => adapter.answers.takesAdditions)
      (fun adapter => adapter.subscribeAdditions added)
      (pool.adapters.map (PoolAdapter.ready pool.initialized))).1) :
    Kept pool after ↔ pool.Undisturbed ∧
      ∀ adapter ∈ pool.adapters.takeWhile fun adapter => adapter.answers.takesAdditions,
        pool.RequestsAdditions added adapter := by
  have haccepts : (fun adapter : PoolAdapter => adapter.answers.takesAdditions) ∘
      PoolAdapter.ready pool.initialized = fun adapter => adapter.answers.takesAdditions := by
    funext adapter
    simp
  have hlisted : after.adapters.map PoolAdapter.listed = pool.adapters.map PoolAdapter.listed ↔
      pool.Undisturbed := by
    rw [undisturbed_iff_ready hinitialized, hafter, map_untilRefused_map_eq_iff, haccepts]
    constructor
    · rintro ⟨htaken, hrest⟩ adapter hadapter
      rcases mem_takeWhile_or_dropWhile.mp hadapter with h | h
      · exact htaken adapter h
      · exact hrest adapter h
    · intro h
      exact ⟨fun adapter hadapter => h adapter (mem_takeWhile_or_dropWhile.mpr (.inl hadapter)),
        fun adapter hadapter => h adapter (mem_takeWhile_or_dropWhile.mpr (.inr hadapter))⟩
  have hrequested : after.adapters.map PoolAdapter.requested =
      pool.adapters.map PoolAdapter.requested ↔
        ∀ adapter ∈ pool.adapters.takeWhile fun adapter => adapter.answers.takesAdditions,
          pool.RequestsAdditions added adapter := by
    rw [hafter, map_untilRefused_map_eq_iff, haccepts]
    exact and_iff_left fun adapter _ => PoolAdapter.ready_requested pool.initialized adapter
  rw [← hlisted, ← hrequested]
  exact ⟨fun h => ⟨h.listed, h.requested⟩, fun h => ⟨hsymbols, h.1, h.2⟩⟩

theorem kept_final_iff {after : CandidatePool} (hremoved : removed ≠ [])
    (hsymbols : after.candidateSymbols = pool.candidateSymbols)
    (hafter : after.adapters = (untilRefused
      (fun adapter => removed = [] || adapter.answers.takesFinal)
      (fun adapter => adapter.settle added removed)
      ((pool.adapters.map (PoolAdapter.ready pool.initialized)).map fun adapter =>
        adapter.subscribeAdditions added)).1) :
    Kept pool after ↔
      (∀ adapter ∈ pool.adapters.takeWhile fun adapter => adapter.answers.takesFinal,
        pool.Settled added removed adapter) ∧
      ∀ adapter ∈ pool.adapters.dropWhile fun adapter => adapter.answers.takesFinal,
        (adapter.ready pool.initialized).listed = adapter.listed ∧
          pool.RequestsAdditions added adapter := by
  have haccepts : (fun adapter : PoolAdapter => decide (removed = []) || adapter.answers.takesFinal) ∘
      ((fun adapter => adapter.subscribeAdditions added) ∘ PoolAdapter.ready pool.initialized) =
        fun adapter => adapter.answers.takesFinal := by
    funext adapter
    have hanswers : ((adapter.ready pool.initialized).subscribeAdditions added).answers =
        adapter.answers := PoolAdapter.ready_answers pool.initialized adapter
    simp [hremoved, hanswers]
  rw [List.map_map] at hafter
  have hread {β : Type} (read : PoolAdapter → β) := @map_untilRefused_map_eq_iff _ _
    (fun adapter => decide (removed = []) || adapter.answers.takesFinal)
    (fun adapter => adapter.settle added removed) _
    ((fun adapter => adapter.subscribeAdditions added) ∘ PoolAdapter.ready pool.initialized)
    read read pool.adapters
  have hlisted := hread PoolAdapter.listed
  have hrequested := hread PoolAdapter.requested
  rw [← hafter] at hlisted hrequested
  rw [haccepts] at hlisted hrequested
  constructor
  · intro h
    obtain ⟨htaken, hrest⟩ := hlisted.mp h.listed
    obtain ⟨htaken', hrest'⟩ := hrequested.mp h.requested
    refine ⟨fun adapter hadapter => ⟨htaken adapter hadapter, ?_⟩, fun adapter hadapter =>
      ⟨hrest adapter hadapter, hrest' adapter hadapter⟩⟩
    rw [← htaken' adapter hadapter, requested_settle _ hremoved]
    rfl
  · rintro ⟨htaken, hrest⟩
    refine ⟨hsymbols, hlisted.mpr ⟨fun adapter hadapter => (htaken adapter hadapter).1,
      fun adapter hadapter => (hrest adapter hadapter).1⟩, hrequested.mpr
        ⟨fun adapter hadapter => ?_, fun adapter hadapter => (hrest adapter hadapter).2⟩⟩
    rw [← (htaken adapter hadapter).2, requested_settle _ hremoved]
    rfl

end Passes

section Success

variable {added removed unchanged target current : List String}

theorem newInstruments_of_prepare {adapters : List PoolAdapter} (h : prepare adapters added = .given) :
    ∀ adapter ∈ adapters, (adapter.newInstruments added).map Instrument.canonicalSymbol = added := by
  intro adapter hadapter
  cases hcreate : adapter.instrumentForSymbol with
  | some create =>
    rw [PoolAdapter.newInstruments, hcreate, List.map_map]
    refine (List.map_congr_left fun symbol _ => ?_).trans (List.map_id added)
    exact adapter.creates_symbol create hcreate symbol
  | none =>
    cases added with
    | nil => simp [PoolAdapter.newInstruments, hcreate]
    | cons symbol rest =>
      have hnot : prepareSymbol symbol adapters ≠ .given := by
        clear h
        induction adapters with
        | nil => exact absurd hadapter List.not_mem_nil
        | cons first others ih =>
          intro h
          rw [prepareSymbol] at h
          cases hfirst : first.instrumentForSymbol with
          | none =>
            rw [hfirst] at h
            cases h
          | some create =>
            rw [hfirst] at h
            rcases List.mem_cons.mp hadapter with rfl | hadapter
            · rw [hcreate] at hfirst
              cases hfirst
            · dsimp only at h
              cases hanswer : first.answers.prepares symbol with
              | given =>
                rw [hanswer] at h
                exact ih hadapter h
              | failed => rw [hanswer] at h; cases h
              | cancelled => rw [hanswer] at h; cases h
      rw [prepare] at h
      cases hfirst : prepareSymbol symbol adapters with
      | given => exact absurd hfirst hnot
      | failed => rw [hfirst] at h; cases h
      | cancelled => rw [hfirst] at h; cases h

theorem target_perm (htarget : target.Nodup) (hcurrent : current.Nodup) :
    (current.filter (fun symbol => symbol ∈ target) ++
      target.filter fun symbol => symbol ∉ current).Perm target := by
  have hinter : (current.filter fun symbol => symbol ∈ target).Perm
      (target.filter fun symbol => symbol ∈ current) := by
    rw [List.perm_ext_iff_of_nodup (hcurrent.filter _) (htarget.filter _)]
    intro symbol
    simp only [List.mem_filter, decide_eq_true_eq]
    exact and_comm
  refine (hinter.append_right _).trans ?_
  have hsplit := List.filter_append_perm (fun symbol => decide (symbol ∈ current)) target
  simpa using hsplit

theorem eq_of_nothing_changed (htarget : target.Pairwise (· < ·)) (hcurrent : current.Pairwise (· < ·))
    (hadded : (target.filter fun symbol => symbol ∉ current) = [])
    (hremoved : (current.filter fun symbol => symbol ∉ target) = []) : current = target := by
  have hperm : current.Perm target := by
    rw [List.perm_ext_iff_of_nodup (hcurrent.imp fun h => h.ne) (htarget.imp fun h => h.ne)]
    intro symbol
    have hin := List.filter_eq_nil_iff.mp hadded symbol
    have hout := List.filter_eq_nil_iff.mp hremoved symbol
    simp only [decide_eq_true_eq, not_not] at hin hout
    exact ⟨hout, hin⟩
  exact hperm.eq_of_pairwise (fun a b _ _ h h' => absurd (h.trans h') (lt_irrefl a)) hcurrent htarget

theorem finalInstruments_perm_iff {adapter : PoolAdapter}
    (hnew : (adapter.newInstruments added).map Instrument.canonicalSymbol = added)
    (htarget : (unchanged ++ added).Perm target) :
    ((adapter.finalInstruments added removed).map Instrument.canonicalSymbol).Perm target ↔
      adapter.Aligned removed unchanged := by
  have hfinal : ((adapter.finalInstruments added removed).map Instrument.canonicalSymbol).Perm
      ((adapter.retained removed).map Instrument.canonicalSymbol ++ added) := by
    have h := (List.perm_insertionSort (fun a b : Instrument =>
      a.canonicalSymbol ≤ b.canonicalSymbol)
        (adapter.retained removed ++ adapter.newInstruments added)).map Instrument.canonicalSymbol
    rwa [List.map_append, hnew] at h
  unfold PoolAdapter.Aligned
  constructor
  · intro h
    exact (List.perm_append_right_iff added).mp ((hfinal.symm.trans h).trans htarget.symm)
  · intro h
    exact (hfinal.trans (h.append_right added)).trans htarget

end Success

section Whole

variable {pool ready : CandidatePool} {targetSymbols : List String}

theorem kept_ready_iff (hinitialized : pool.initializePool = (ready, none)) :
    Kept pool ready ↔ pool.Undisturbed := by
  rw [← kept_initializePool_iff, hinitialized]

theorem subscribe_of_additions_refused {added removed target : List String}
    (hsorted : target.Pairwise (· < ·))
    (h : (ready.adapters.all fun adapter => adapter.answers.takesAdditions) = false) :
    ready.subscribe added removed target hsorted =
      ({ ready with adapters := (untilRefused (fun adapter => adapter.answers.takesAdditions)
          (fun adapter => adapter.subscribeAdditions added) ready.adapters).1 },
        .error .adapterError) := by
  simp only [CandidatePool.subscribe, untilRefused_eq, h]
  rfl

theorem all_subscribeAdditions (added removed : List String) :
    ((ready.adapters.map fun adapter => adapter.subscribeAdditions added).all
      fun adapter => removed = [] || adapter.answers.takesFinal) =
        ready.adapters.all fun adapter => removed = [] || adapter.answers.takesFinal := by
  rw [List.all_map]
  rfl

theorem subscribe_of_final_refused {added removed target : List String}
    (hsorted : target.Pairwise (· < ·))
    (hadditions : (ready.adapters.all fun adapter => adapter.answers.takesAdditions) = true)
    (hremoved : removed ≠ [])
    (hfinal : (ready.adapters.all fun adapter => adapter.answers.takesFinal) = false) :
    ready.subscribe added removed target hsorted =
      ({ ready with adapters := (untilRefused
          (fun adapter => removed = [] || adapter.answers.takesFinal)
          (fun adapter => adapter.settle added removed)
          (ready.adapters.map fun adapter => adapter.subscribeAdditions added)).1 },
        .error .adapterError) := by
  have hfirst := @untilRefused_of_all _ _ (fun adapter : PoolAdapter =>
    adapter.subscribeAdditions added) _ hadditions
  have hsecond : (ready.adapters.all fun adapter =>
      removed = [] || adapter.answers.takesFinal) = false := by
    simpa [hremoved] using hfinal
  rw [← all_subscribeAdditions added] at hsecond
  simp only [CandidatePool.subscribe, hfirst]
  simp only [untilRefused_eq, hsecond]
  rfl

theorem subscribe_of_taken {added removed target : List String}
    (hsorted : target.Pairwise (· < ·))
    (hadditions : (ready.adapters.all fun adapter => adapter.answers.takesAdditions) = true)
    (htaken : ¬ (removed ≠ [] ∧
      (ready.adapters.all fun adapter => adapter.answers.takesFinal) = false)) :
    ready.subscribe added removed target hsorted =
      ({ ready with
          adapters := (ready.adapters.map fun adapter => adapter.subscribeAdditions added).map
            fun adapter => adapter.settle added removed
          candidateSymbols := target
          sorted := hsorted }, .ok ()) := by
  have hfirst := @untilRefused_of_all _ _ (fun adapter : PoolAdapter =>
    adapter.subscribeAdditions added) _ hadditions
  have hsecond : (ready.adapters.all fun adapter =>
      removed = [] || adapter.answers.takesFinal) = true := by
    by_cases hremoved : removed = []
    · simp [hremoved]
    · rw [not_and, Bool.not_eq_false] at htaken
      simpa [hremoved] using htaken hremoved
  rw [← all_subscribeAdditions added] at hsecond
  simp only [CandidatePool.subscribe, hfirst, untilRefused_of_all hsecond]
  rfl

theorem outcome_subscribe_iff (hinitialized : pool.initializePool = (ready, none))
    {added removed unchanged target : List String} (hsorted : target.Pairwise (· < ·))
    (hprepared : prepare ready.adapters added = .given)
    (htarget : (unchanged ++ added).Perm target) {result : CandidateReconcileResult}
    (hresult : result.failed = []) :
    Outcome pool target
        (match ready.subscribe added removed target hsorted with
          | (after, .error raised) => (after, .error raised)
          | (after, .ok ()) => (after, .ok result)) ↔
      if (ready.adapters.all fun adapter => adapter.answers.takesAdditions) = false then
        pool.Undisturbed ∧
          ∀ adapter ∈ pool.adapters.takeWhile fun adapter => adapter.answers.takesAdditions,
            pool.RequestsAdditions added adapter
      else if removed ≠ [] ∧
          (ready.adapters.all fun adapter => adapter.answers.takesFinal) = false then
        (∀ adapter ∈ pool.adapters.takeWhile fun adapter => adapter.answers.takesFinal,
          pool.Settled added removed adapter) ∧
        ∀ adapter ∈ pool.adapters.dropWhile fun adapter => adapter.answers.takesFinal,
          (adapter.ready pool.initialized).listed = adapter.listed ∧
            pool.RequestsAdditions added adapter
      else ∀ adapter ∈ ready.adapters, adapter.Aligned removed unchanged := by
  have hnone : pool.initializePool.2 = none := by rw [hinitialized]
  obtain ⟨hadapters, hsymbols⟩ := ready_of_initializePool hnone
  rw [hinitialized] at hadapters hsymbols
  dsimp only at hadapters hsymbols
  cases hadditions : ready.adapters.all fun adapter => adapter.answers.takesAdditions with
  | false =>
    rw [if_pos rfl]
    rw [subscribe_of_additions_refused hsorted hadditions]
    change Kept pool { ready with adapters := _ } ↔ _
    refine kept_additions_iff hnone hsymbols ?_
    rw [← hadapters]
  | true =>
    rw [if_neg Bool.noConfusion]
    by_cases hstopped : removed ≠ [] ∧
        (ready.adapters.all fun adapter => adapter.answers.takesFinal) = false
    · rw [if_pos hstopped, subscribe_of_final_refused hsorted hadditions hstopped.1 hstopped.2]
      change Kept pool { ready with adapters := _ } ↔ _
      refine kept_final_iff hstopped.1 hsymbols ?_
      rw [← hadapters]
    · rw [if_neg hstopped, subscribe_of_taken hsorted hadditions hstopped]
      simp only [Outcome, if_pos hresult]
      have hnew := newInstruments_of_prepare hprepared
      constructor
      · intro h adapter hadapter
        rw [← finalInstruments_perm_iff (hnew adapter hadapter) htarget]
        exact h.listed _ (List.mem_map_of_mem (List.mem_map_of_mem hadapter))
      · intro h
        refine ⟨rfl, fun settled hsettled => ?_⟩
        rw [List.map_map] at hsettled
        obtain ⟨adapter, hadapter, rfl⟩ := List.mem_map.mp hsettled
        exact (finalInstruments_perm_iff (hnew adapter hadapter) htarget).mpr (h adapter hadapter)

theorem attained_unchanged_iff {unchanged target : List String}
    (hsymbols : ready.candidateSymbols = target) (htarget : unchanged.Perm target) :
    Attained target ready ↔ ∀ adapter ∈ ready.adapters, adapter.Aligned [] unchanged := by
  have hretained : ∀ adapter : PoolAdapter, adapter.retained [] = adapter.listed := by
    intro adapter
    simp [PoolAdapter.retained]
  constructor
  · intro h adapter hadapter
    unfold PoolAdapter.Aligned
    rw [hretained]
    exact (h.listed adapter hadapter).trans htarget.symm
  · intro h
    refine ⟨hsymbols, fun adapter hadapter => ?_⟩
    rw [← hretained]
    exact (h adapter hadapter).trans htarget

/-- A reconciliation is all-or-nothing exactly when it reconciles cleanly. -/
theorem reconcile_all_or_nothing_iff (pool : CandidatePool) (targetSymbols : List String) :
    AllOrNothing pool targetSymbols ↔ pool.ReconcilesCleanly targetSymbols := by
  unfold AllOrNothing CandidatePool.ReconcilesCleanly CandidatePool.reconcile
  by_cases hscope : pool.scope ≠ .candidate
  · simp only [if_pos hscope]
    exact iff_of_true (.refl pool) trivial
  simp only [if_neg hscope]
  cases hinitialized : pool.initializePool with
  | mk ready raised =>
    cases raised with
    | some raised =>
      simp only [ne_eq, reduceCtorEq, not_false_eq_true, if_true]
      have h := kept_initializePool_iff pool
      rwa [hinitialized] at h
    | none =>
      have hnone : pool.initializePool.2 = none := by rw [hinitialized]
      obtain ⟨hadapters, hsymbols⟩ := ready_of_initializePool hnone
      rw [hinitialized] at hadapters hsymbols
      dsimp only at hadapters hsymbols
      simp only [ne_eq, not_true_eq_false, if_false]
      unfold CandidatePool.Clean CandidatePool.reconcileLocked
      simp only [← hadapters, hsymbols]
      have htarget := @target_perm (sortedSet targetSymbols) pool.candidateSymbols
        ((sortedSet_pairwise targetSymbols).imp fun h => h.ne) (pool.sorted.imp fun h => h.ne)
      have hsame := @eq_of_nothing_changed (sortedSet targetSymbols) pool.candidateSymbols
        (sortedSet_pairwise targetSymbols) pool.sorted
      generalize (sortedSet targetSymbols).filter (fun symbol => symbol ∉ pool.candidateSymbols) =
        added at htarget hsame ⊢
      generalize pool.candidateSymbols.filter (fun symbol => symbol ∉ sortedSet targetSymbols) =
        removed at hsame ⊢
      generalize pool.candidateSymbols.filter (fun symbol => symbol ∈ sortedSet targetSymbols) =
        unchanged at htarget ⊢
      by_cases hnothing : added = [] ∧ removed = []
      · rw [if_pos hnothing, if_pos hnothing]
        obtain ⟨rfl, rfl⟩ := hnothing
        simp only [Outcome, if_true]
        rw [List.append_nil] at htarget
        exact attained_unchanged_iff (hsymbols.trans (hsame rfl rfl)) htarget
      rw [if_neg hnothing, if_neg hnothing]
      have hkept := kept_ready_iff hinitialized
      cases hprepared : prepare ready.adapters added with
      | cancelled =>
        simp only [ne_eq, reduceCtorEq, not_false_eq_true, if_true]
        exact hkept
      | failed =>
        have hadded : added ≠ [] := by
          rintro rfl
          cases hprepared
        simp only [ne_eq, reduceCtorEq, not_false_eq_true, if_true]
        simp only [Outcome, if_neg hadded]
        exact hkept
      | given =>
        have hgiven : ¬ Answer.given ≠ .given := fun h => h rfl
        rw [if_neg hgiven]
        dsimp only
        cases hstores : ready.adapters.all fun adapter => added.all adapter.answers.stores with
        | false =>
          rw [Bool.not_false, if_pos rfl, if_pos rfl]
          exact hkept
        | true =>
          rw [Bool.not_true, if_neg Bool.false_ne_true, if_neg Bool.noConfusion]
          exact outcome_subscribe_iff hinitialized _ hprepared htarget rfl

/-! An adapter that starts with the instrument of the target, and two adapters of which the second
refuses the additions. -/

def linearInstrument (symbol : String) : Instrument where
  exchange := .binance
  marketType := .linearPerpetual
  exchangeSymbol := symbol
  canonicalSymbol := symbol
  baseAsset := symbol
  quoteAsset := "USDT"
  settlementAsset := "USDT"

def linearAdapter (discovered : List Instrument) (takesAdditions : Bool) : PoolAdapter where
  name := "BinanceFuturesAdapter"
  instrumentForSymbol := some linearInstrument
  requested := exchangeSymbols discovered
  answers := { discovered := some discovered, takesAdditions }
  creates_symbol := by
    rintro create ⟨⟩ symbol
    rfl

def linearPool (adapters : List PoolAdapter) : CandidatePool where
  candleIntervals := ["5m"]
  adapters := adapters
  sorted := .nil

theorem reconcile_not_all_or_nothing :
    ¬ AllOrNothing (linearPool [linearAdapter [linearInstrument "A"] true]) ["A"] ∧
      ¬ AllOrNothing (linearPool [linearAdapter [] true, linearAdapter [] false]) ["A"] := by
  constructor
  · intro h
    have hresult : ((linearPool [linearAdapter [linearInstrument "A"] true]).reconcile ["A"]).2 =
        .ok { current := ["A"], added := ["A"] } := by decide +kernel
    have hattained := Outcome.attained h hresult rfl
    have hlengths : ((linearPool [linearAdapter [linearInstrument "A"] true]).reconcile
        ["A"]).1.adapters.map (fun adapter => adapter.listed.length) = [2] := by decide +kernel
    obtain ⟨adapter, hadapter, hlength⟩ := List.mem_map.mp (hlengths ▸ List.mem_singleton_self 2)
    have hone := (hattained.listed adapter hadapter).length_eq
    rw [List.length_map, hlength] at hone
    exact absurd hone (by decide +kernel)
  · intro h
    have hraised : ((linearPool [linearAdapter [] true, linearAdapter [] false]).reconcile ["A"]).2 =
        .error .adapterError := by decide +kernel
    have hkept := Outcome.kept h hraised
    have hrequested : ((linearPool [linearAdapter [] true, linearAdapter [] false]).reconcile
        ["A"]).1.adapters.map PoolAdapter.requested = [{"A"}, ∅] := by decide +kernel
    exact absurd (hrequested.symm.trans hkept.requested) (by decide +kernel)

end Whole

end ChainQuantStudio.State.Candidates
