import ChainQuantStudio.Data.Models
import ChainQuantStudio.Library.Dict
import ChainQuantStudio.Library.Run
import Mathlib.Algebra.Order.Ring.Rat
import Mathlib.Data.List.Sort
import Mathlib.Data.Prod.Lex
import Mathlib.Data.String.Basic

/-!
# Residency of candidates

An update of the pool keeps the members that are ranked or have not been there for the minimum time,
admits ranked newcomers in their order while there is room, and returns the members in the order of
the ranking. What a single update does to one symbol is read off the list of its newcomers; the
residency of a symbol follows over a run whose observations are in order.
-/

namespace ChainQuantStudio.Universe

open Data

structure CandidateMetric where
  canonicalSymbol : String
  observedAt : Instant
  quoteVolume24h : ℚ
  quoteVolumeVelocity : ℚ
  tradeCountVelocity : ℚ
  absolutePriceReturn : ℚ
  spreadBps : ℚ
  bidLevelNotional : ℚ
  askLevelNotional : ℚ
  deriving DecidableEq

structure CandidateSnapshot where
  observedAt : Instant
  candidates : List CandidateMetric

structure Admission where
  metric : CandidateMetric
  admittedAt : Instant

abbrev Admissions := List (String × Admission)

structure CandidatePool where
  capacity : ℕ := 30
  minimumResidencySeconds : ℕ := 900
  admissions : Admissions := []
  capacity_pos : 0 < capacity := by decide
  residency_pos : 0 < minimumResidencySeconds := by decide
  unique : (admissions.map Prod.fst).Nodup := by simp

/-- `{item.canonical_symbol: item for item in snapshot.candidates}`. -/
def CandidateSnapshot.ranked (snapshot : CandidateSnapshot) : List (String × CandidateMetric) :=
  snapshot.candidates.foldl (fun ranked item => Dict.set ranked item.canonicalSymbol item) []

/-- `{item.canonical_symbol: index for index, item in enumerate(snapshot.candidates)}`. -/
def CandidateSnapshot.order (snapshot : CandidateSnapshot) : List (String × ℕ) :=
  snapshot.candidates.zipIdx.foldl
    (fun order (item, index) => Dict.set order item.canonicalSymbol index) []

def isRanked (snapshot : CandidateSnapshot) (symbol : String) : Bool :=
  (Dict.get? snapshot.ranked symbol).isSome

def admitRanked (capacity : ℕ) (observedAt : Instant) (retained : Admissions)
    (item : String × CandidateMetric) : Admissions :=
  match Dict.get? retained item.1 with
  | some admission => Dict.set retained item.1 ⟨item.2, admission.admittedAt⟩
  | none =>
    if retained.length < capacity then Dict.set retained item.1 ⟨item.2, observedAt⟩ else retained

def trim (capacity : ℕ) (retained : Admissions) : Admissions :=
  if capacity < retained.length then
    (retained.insertionSort fun a b => a.2.admittedAt ≤ b.2.admittedAt).take capacity
  else retained

namespace CandidatePool

variable (pool : CandidatePool) (snapshot : CandidateSnapshot)

def keeps (entry : String × Admission) : Bool :=
  let lockedUntil := snapshot.observedAt - pool.minimumResidencySeconds * 1000000
  lockedUntil < entry.2.admittedAt || isRanked snapshot entry.1

def retained : Admissions := pool.admissions.filter (pool.keeps snapshot)

def admitted : Admissions :=
  snapshot.ranked.foldl (admitRanked pool.capacity snapshot.observedAt) (pool.retained snapshot)

def symbols : List String := pool.admissions.map Prod.fst

end CandidatePool

theorem unique_ranked (snapshot : CandidateSnapshot) : (snapshot.ranked.map Prod.fst).Nodup := by
  unfold CandidateSnapshot.ranked
  induction snapshot.candidates using List.reverseRecOn with
  | nil => simp
  | append_singleton items item ih =>
    rw [List.foldl_append]
    exact Dict.nodup_set ih _ _

theorem isRanked_iff {snapshot : CandidateSnapshot} {symbol : String} :
    isRanked snapshot symbol = true ↔ symbol ∈ snapshot.candidates.map (·.canonicalSymbol) := by
  unfold isRanked CandidateSnapshot.ranked
  induction snapshot.candidates using List.reverseRecOn with
  | nil => simp
  | append_singleton items item ih =>
    rw [List.foldl_append, List.foldl_cons, List.foldl_nil, Dict.get?_set, List.map_append,
      List.mem_append, ← ih]
    by_cases h : item.canonicalSymbol = symbol
    · simp [h]
    · simp [h, Ne.symm h]

section

variable {capacity : ℕ} {observedAt : Instant} {retained : Admissions}

theorem unique_admitRanked (h : (retained.map Prod.fst).Nodup) (item : String × CandidateMetric) :
    ((admitRanked capacity observedAt retained item).map Prod.fst).Nodup := by
  unfold admitRanked
  split
  · exact Dict.nodup_set h _ _
  · split_ifs
    · exact Dict.nodup_set h _ _
    · exact h

theorem unique_foldl_admitRanked (h : (retained.map Prod.fst).Nodup)
    (ranked : List (String × CandidateMetric)) :
    ((ranked.foldl (admitRanked capacity observedAt) retained).map Prod.fst).Nodup := by
  induction ranked generalizing retained with
  | nil => exact h
  | cons item ranked ih => exact ih (unique_admitRanked h item)

def newcomers (retained : Admissions) (ranked : List (String × CandidateMetric)) : List String :=
  (ranked.map Prod.fst).filter fun symbol => symbol ∉ retained.map Prod.fst

theorem admitRanked_of_member {item : String × CandidateMetric} {admission : Admission}
    (h : Dict.get? retained item.1 = some admission) :
    admitRanked capacity observedAt retained item =
      Dict.set retained item.1 ⟨item.2, admission.admittedAt⟩ := by
  rw [admitRanked, h]

theorem admitRanked_of_room {item : String × CandidateMetric}
    (hmem : item.1 ∉ retained.map Prod.fst) (hroom : retained.length < capacity) :
    admitRanked capacity observedAt retained item =
      retained ++ [(item.1, ⟨item.2, observedAt⟩)] := by
  rw [admitRanked, Dict.get?_of_not_mem_keys hmem]
  dsimp only
  rw [if_pos hroom, Dict.set_of_not_mem hmem]

theorem admitRanked_of_full {item : String × CandidateMetric}
    (hmem : item.1 ∉ retained.map Prod.fst) (hfull : capacity ≤ retained.length) :
    admitRanked capacity observedAt retained item = retained := by
  rw [admitRanked, Dict.get?_of_not_mem_keys hmem]
  dsimp only
  rw [if_neg (not_lt.mpr hfull)]

theorem newcomers_cons_of_mem {item : String × CandidateMetric}
    (h : item.1 ∈ retained.map Prod.fst) (ranked : List (String × CandidateMetric)) :
    newcomers retained (item :: ranked) = newcomers retained ranked := by
  unfold newcomers
  rw [List.map_cons, List.filter_cons_of_neg (by simpa using h)]

theorem newcomers_cons_of_not_mem {item : String × CandidateMetric}
    (h : item.1 ∉ retained.map Prod.fst) (ranked : List (String × CandidateMetric)) :
    newcomers retained (item :: ranked) = item.1 :: newcomers retained ranked := by
  unfold newcomers
  rw [List.map_cons, List.filter_cons_of_pos (by simpa using h)]

theorem keys_foldl_admitRanked {ranked : List (String × CandidateMetric)}
    (hunique : (ranked.map Prod.fst).Nodup) :
    (ranked.foldl (admitRanked capacity observedAt) retained).map Prod.fst =
      retained.map Prod.fst ++ (newcomers retained ranked).take (capacity - retained.length) := by
  induction ranked generalizing retained with
  | nil => simp [newcomers]
  | cons item ranked ih =>
    rw [List.map_cons, List.nodup_cons] at hunique
    rw [List.foldl_cons, ih hunique.2]
    by_cases hmem : item.1 ∈ retained.map Prod.fst
    · obtain ⟨admission, hadmission⟩ := Option.isSome_iff_exists.mp (Dict.isSome_get?_iff.mpr hmem)
      have hkeys := Dict.keys_set_of_mem hmem ⟨item.2, admission.admittedAt⟩
      have hlength := congrArg List.length hkeys
      rw [List.length_map, List.length_map] at hlength
      rw [admitRanked_of_member hadmission, hlength, hkeys, newcomers_cons_of_mem hmem]
      unfold newcomers
      rw [hkeys]
    · by_cases hroom : retained.length < capacity
      · have hsame : newcomers (retained ++ [(item.1, ⟨item.2, observedAt⟩)]) ranked =
            newcomers retained ranked := by
          apply List.filter_congr
          intro symbol hsymbol
          have hne : symbol ≠ item.1 := fun heq => hunique.1 (heq ▸ hsymbol)
          simp [hne]
        obtain ⟨room, hsplit⟩ : ∃ room, capacity - retained.length = room + 1 :=
          ⟨capacity - retained.length - 1, by omega⟩
        have hrest : capacity - (retained.length + 1) = room := by omega
        rw [admitRanked_of_room hmem hroom, hsame, newcomers_cons_of_not_mem hmem, hsplit,
          List.length_append, List.length_singleton, hrest, List.take_succ_cons, List.map_append,
          List.append_assoc]
        rfl
      · have hfull : capacity - retained.length = 0 := by omega
        rw [admitRanked_of_full hmem (by omega), hfull, List.take_zero, List.take_zero]

theorem admittedAt_foldl_admitRanked {ranked : List (String × CandidateMetric)} {symbol : String}
    {admission : Admission}
    (h : Dict.get? (ranked.foldl (admitRanked capacity observedAt) retained) symbol =
      some admission) :
    admission.admittedAt =
      ((Dict.get? retained symbol).map (·.admittedAt)).getD observedAt := by
  induction ranked generalizing retained with
  | nil =>
    rw [List.foldl_nil] at h
    rw [h]
    rfl
  | cons item ranked ih =>
    rw [ih h]
    unfold admitRanked
    cases hitem : Dict.get? retained item.1 with
    | some admission =>
      dsimp only
      rw [Dict.get?_set]
      split_ifs with hsymbol
      · rw [← hsymbol, hitem]
        rfl
      · rfl
    | none =>
      dsimp only
      split_ifs
      · rw [Dict.get?_set]
        split_ifs with hsymbol
        · rw [← hsymbol, hitem]
          rfl
        · rfl
      · rfl

end

namespace CandidatePool

variable {pool : CandidatePool} {snapshot : CandidateSnapshot}

theorem unique_admitted (pool : CandidatePool) (snapshot : CandidateSnapshot) :
    ((pool.admitted snapshot).map Prod.fst).Nodup :=
  unique_foldl_admitRanked (pool.unique.sublist (List.filter_sublist.map Prod.fst)) snapshot.ranked

theorem unique_trim {retained : Admissions} (h : (retained.map Prod.fst).Nodup) (capacity : ℕ) :
    ((trim capacity retained).map Prod.fst).Nodup := by
  unfold trim
  split_ifs
  · have hsort := (List.perm_insertionSort
      (fun a b : String × Admission => a.2.admittedAt ≤ b.2.admittedAt) retained).map Prod.fst
    exact (hsort.nodup_iff.mpr h).sublist ((List.take_sublist _ _).map Prod.fst)
  · exact h

/-- `update`: the pool it leaves, and the members it returns. -/
def update (pool : CandidatePool) (snapshot : CandidateSnapshot) : CandidatePool × List String :=
  let next : CandidatePool :=
    { pool with
      admissions := trim pool.capacity (pool.admitted snapshot)
      unique := unique_trim (pool.unique_admitted snapshot) _ }
  let rank := fun symbol =>
    toLex ((Dict.get? snapshot.order symbol).getD pool.capacity, symbol)
  (next, next.symbols.insertionSort fun a b => rank a ≤ rank b)

def step (pool : CandidatePool) (snapshot : CandidateSnapshot) : CandidatePool :=
  (pool.update snapshot).1

def Bounded (pool : CandidatePool) : Prop := pool.admissions.length ≤ pool.capacity

theorem symbols_admitted (pool : CandidatePool) (snapshot : CandidateSnapshot) :
    (pool.admitted snapshot).map Prod.fst =
      (pool.retained snapshot).map Prod.fst ++
        (newcomers (pool.retained snapshot) snapshot.ranked).take
          (pool.capacity - (pool.retained snapshot).length) :=
  keys_foldl_admitRanked (unique_ranked snapshot)

theorem Bounded.retained (h : pool.Bounded) (snapshot : CandidateSnapshot) :
    (pool.retained snapshot).length ≤ pool.capacity :=
  (List.length_filter_le _ _).trans h

theorem Bounded.admissions_step (h : pool.Bounded) (snapshot : CandidateSnapshot) :
    (pool.step snapshot).admissions = pool.admitted snapshot := by
  have hlength := congrArg List.length (pool.symbols_admitted snapshot)
  rw [List.length_append, List.length_map, List.length_map, List.length_take] at hlength
  have hretained := h.retained snapshot
  change trim pool.capacity (pool.admitted snapshot) = _
  rw [trim, if_neg (by omega)]

theorem Bounded.step (h : pool.Bounded) (snapshot : CandidateSnapshot) :
    (pool.step snapshot).Bounded := by
  have hlength := congrArg List.length (pool.symbols_admitted snapshot)
  rw [List.length_append, List.length_map, List.length_map, List.length_take] at hlength
  have hretained := h.retained snapshot
  unfold Bounded
  rw [h.admissions_step]
  change _ ≤ pool.capacity
  omega

theorem get?_retained (pool : CandidatePool) (snapshot : CandidateSnapshot) (symbol : String) :
    Dict.get? (pool.retained snapshot) symbol =
      (Dict.get? pool.admissions symbol).filter fun admission =>
        pool.keeps snapshot (symbol, admission) :=
  Dict.get?_filter pool.unique _ symbol

def outsiders (pool : CandidatePool) (snapshot : CandidateSnapshot) : List String :=
  (snapshot.ranked.map Prod.fst).filter fun symbol => symbol ∉ pool.symbols

theorem newcomers_retained (pool : CandidatePool) (snapshot : CandidateSnapshot) :
    newcomers (pool.retained snapshot) snapshot.ranked = pool.outsiders snapshot := by
  apply List.filter_congr
  intro symbol hsymbol
  have hranked : isRanked snapshot symbol = true := Dict.isSome_get?_iff.mpr hsymbol
  rw [decide_eq_decide, not_iff_not, symbols, ← Dict.isSome_get?_iff, ← Dict.isSome_get?_iff,
    get?_retained]
  cases Dict.get? pool.admissions symbol with
  | none => simp
  | some admission => simp [Option.filter, keeps, hranked]

structure UpdateLaw (pool : CandidatePool) (snapshot : CandidateSnapshot) : Prop where
  bounded : (pool.step snapshot).admissions.length ≤ pool.capacity
  /-- Who leaves has been there for the minimum time and is not ranked. -/
  leaves : ∀ symbol admission, Dict.get? pool.admissions symbol = some admission →
    symbol ∉ (pool.step snapshot).symbols →
      admission.admittedAt + pool.minimumResidencySeconds * 1000000 ≤ snapshot.observedAt ∧
        symbol ∉ snapshot.candidates.map (·.canonicalSymbol)
  /-- The ranked outsiders are admitted up to one of them, from where on the pool is full. -/
  turnedAway : ∃ taken left, pool.outsiders snapshot = taken ++ left ∧
    (∀ symbol ∈ taken, symbol ∈ (pool.step snapshot).symbols) ∧
    (∀ symbol ∈ left, symbol ∉ (pool.step snapshot).symbols) ∧
    (left ≠ [] → (pool.step snapshot).admissions.length = pool.capacity)
  stays : ∀ symbol admission next, Dict.get? pool.admissions symbol = some admission →
    Dict.get? (pool.step snapshot).admissions symbol = some next →
      next.admittedAt = admission.admittedAt
  arrives : ∀ symbol next, symbol ∉ pool.symbols →
    Dict.get? (pool.step snapshot).admissions symbol = some next →
      next.admittedAt = snapshot.observedAt
  returned : (pool.update snapshot).2.Nodup ∧
    ∀ symbol, symbol ∈ (pool.update snapshot).2 ↔ symbol ∈ (pool.step snapshot).symbols

theorem mem_symbols_step (h : pool.Bounded) {symbol : String} :
    symbol ∈ (pool.step snapshot).symbols ↔
      symbol ∈ (pool.retained snapshot).map Prod.fst ∨
        symbol ∈ (pool.outsiders snapshot).take
          (pool.capacity - (pool.retained snapshot).length) := by
  rw [symbols, h.admissions_step, symbols_admitted, List.mem_append, newcomers_retained]

theorem retained_of_keeps {symbol : String} {admission : Admission}
    (hmember : Dict.get? pool.admissions symbol = some admission)
    (hkeeps : pool.keeps snapshot (symbol, admission) = true) :
    Dict.get? (pool.retained snapshot) symbol = some admission := by
  rw [get?_retained, hmember, Option.filter, if_pos hkeeps]

theorem Bounded.stays_of_keeps (h : pool.Bounded) {symbol : String} {admission : Admission}
    (hmember : Dict.get? pool.admissions symbol = some admission)
    (hkeeps : pool.keeps snapshot (symbol, admission) = true) :
    symbol ∈ (pool.step snapshot).symbols := by
  refine (mem_symbols_step h).mpr (.inl ?_)
  rw [← Dict.isSome_get?_iff, retained_of_keeps hmember hkeeps]
  rfl

theorem Bounded.admittedAt_step (h : pool.Bounded) {symbol : String} {next : Admission}
    (hnext : Dict.get? (pool.step snapshot).admissions symbol = some next) :
    next.admittedAt =
      ((Dict.get? (pool.retained snapshot) symbol).map (·.admittedAt)).getD
        snapshot.observedAt := by
  rw [h.admissions_step] at hnext
  exact admittedAt_foldl_admitRanked hnext

theorem Bounded.updateLaw (h : pool.Bounded) (snapshot : CandidateSnapshot) :
    pool.UpdateLaw snapshot where
  bounded := h.step snapshot
  leaves symbol admission hmember hgone := by
    have hkeeps : ¬ pool.keeps snapshot (symbol, admission) = true :=
      fun hkeeps => hgone (h.stays_of_keeps hmember hkeeps)
    simp only [keeps, Bool.or_eq_true, decide_eq_true_eq, not_or, not_lt] at hkeeps
    refine ⟨?_, fun hranked => hkeeps.2 (isRanked_iff.mpr hranked)⟩
    exact le_sub_iff_add_le.mp hkeeps.1
  turnedAway := by
    set room := pool.capacity - (pool.retained snapshot).length with hroom
    refine ⟨_, _, (List.take_append_drop room (pool.outsiders snapshot)).symm, ?_, ?_, ?_⟩
    · intro symbol hsymbol
      exact (mem_symbols_step h).mpr (.inr hsymbol)
    · intro symbol hsymbol hmember
      have hnodup : (pool.outsiders snapshot).Nodup := (unique_ranked snapshot).filter _
      rcases (mem_symbols_step h).mp hmember with hretained | htaken
      · have houtsider := List.mem_of_mem_drop hsymbol
        rw [← newcomers_retained] at houtsider
        simpa [hretained] using (List.mem_filter.mp houtsider).2
      · rw [← List.take_append_drop room (pool.outsiders snapshot)] at hnodup
        exact (List.disjoint_of_nodup_append hnodup) htaken hsymbol
    · intro hleft
      have hlong : room < (pool.outsiders snapshot).length := by
        by_contra hshort
        exact hleft (List.drop_eq_nil_of_le (by omega))
      have hlength := congrArg List.length (pool.symbols_admitted snapshot)
      rw [List.length_append, List.length_map, List.length_map, List.length_take,
        newcomers_retained] at hlength
      have hretained := h.retained snapshot
      rw [h.admissions_step]
      omega
  stays symbol admission next hmember hnext := by
    rw [h.admittedAt_step hnext]
    by_cases hkeeps : pool.keeps snapshot (symbol, admission) = true
    · rw [retained_of_keeps hmember hkeeps]
      rfl
    · have hgone : symbol ∉ (pool.retained snapshot).map Prod.fst := by
        rw [← Dict.isSome_get?_iff, get?_retained, hmember, Option.filter, if_neg hkeeps]
        simp
      have hmem : symbol ∈ (pool.step snapshot).symbols := by
        rw [symbols, ← Dict.isSome_get?_iff, hnext]
        rfl
      rcases (mem_symbols_step h).mp hmem with hretained | htaken
      · exact absurd hretained hgone
      · have houtsider := (List.mem_filter.mp (List.mem_of_mem_take htaken)).2
        have hsymbol : symbol ∈ pool.symbols := by
          rw [symbols, ← Dict.isSome_get?_iff, hmember]
          rfl
        simp [hsymbol] at houtsider
  arrives symbol next houtside hnext := by
    rw [h.admittedAt_step hnext, get?_retained, Dict.get?_of_not_mem_keys houtside]
    rfl
  returned := by
    have hsort := List.perm_insertionSort (fun a b =>
      toLex ((Dict.get? snapshot.order a).getD pool.capacity, a) ≤
        toLex ((Dict.get? snapshot.order b).getD pool.capacity, b)) (pool.step snapshot).symbols
    exact ⟨hsort.nodup_iff.mpr (pool.step snapshot).unique, fun symbol => hsort.mem_iff⟩

def new (capacity minimumResidencySeconds : ℕ) (hcapacity : 0 < capacity)
    (hresidency : 0 < minimumResidencySeconds) : CandidatePool where
  capacity := capacity
  minimumResidencySeconds := minimumResidencySeconds
  capacity_pos := hcapacity
  residency_pos := hresidency

theorem bounded_run (h : pool.Bounded) (snapshots : List CandidateSnapshot) :
    (Run.run step pool snapshots).Bounded :=
  Run.run_invariant Bounded (fun _ snapshot hbounded => hbounded.step snapshot) h snapshots

theorem minimumResidencySeconds_run (pool : CandidatePool) (snapshots : List CandidateSnapshot) :
    (Run.run step pool snapshots).minimumResidencySeconds = pool.minimumResidencySeconds :=
  @Run.run_invariant _ _ step
    (fun later => later.minimumResidencySeconds = pool.minimumResidencySeconds)
    (fun _ _ hsame => hsame) pool rfl snapshots

theorem stays_run (h : pool.Bounded) {symbol : String} {admission : Admission}
    (hmember : Dict.get? pool.admissions symbol = some admission)
    (snapshots : List CandidateSnapshot)
    (hwithin : ∀ snapshot ∈ snapshots,
      snapshot.observedAt < admission.admittedAt + pool.minimumResidencySeconds * 1000000) :
    ∃ later, Dict.get? (Run.run step pool snapshots).admissions symbol = some later ∧
      later.admittedAt = admission.admittedAt := by
  induction snapshots generalizing pool admission with
  | nil => exact ⟨admission, hmember, rfl⟩
  | cons snapshot snapshots ih =>
    have hkeeps : pool.keeps snapshot (symbol, admission) = true := by
      have hnow := hwithin snapshot List.mem_cons_self
      have hlocked := sub_lt_iff_lt_add.mpr hnow
      simp only [keeps, Bool.or_eq_true, decide_eq_true_eq]
      exact .inl hlocked
    obtain ⟨next, hnext⟩ := Option.isSome_iff_exists.mp
      (Dict.isSome_get?_iff.mpr (h.stays_of_keeps hmember hkeeps))
    have hsame := (h.updateLaw snapshot).stays symbol admission next hmember hnext
    obtain ⟨later, hlater, hadmitted⟩ := ih (h.step snapshot) hnext fun other hother => by
      rw [hsame]
      exact hwithin other (List.mem_cons_of_mem _ hother)
    exact ⟨later, hlater, hadmitted.trans hsame⟩

/-- Every update of a run obeys the law, and a symbol is a member after all updates within the
residency that its admission starts. -/
theorem residency {capacity minimumResidencySeconds : ℕ} (hcapacity : 0 < capacity)
    (hresidency : 0 < minimumResidencySeconds) {snapshots : List CandidateSnapshot}
    (hordered : snapshots.Pairwise fun a b => a.observedAt ≤ b.observedAt) :
    let pool := new capacity minimumResidencySeconds hcapacity hresidency
    (∀ before snapshot, before ++ [snapshot] <+: snapshots →
      (Run.run step pool before).UpdateLaw snapshot) ∧
    ∀ before (snapshot : CandidateSnapshot) between (last : CandidateSnapshot),
      before ++ snapshot :: (between ++ [last]) <+: snapshots →
      ∀ symbol, symbol ∉ (Run.run step pool before).symbols →
        symbol ∈ (Run.run step pool (before ++ [snapshot])).symbols →
        last.observedAt < snapshot.observedAt + minimumResidencySeconds * 1000000 →
        symbol ∈ (Run.run step pool (before ++ snapshot :: (between ++ [last]))).symbols := by
  intro pool
  have hbounded : pool.Bounded := Nat.zero_le _
  refine ⟨?_, ?_⟩
  · intro before snapshot _
    exact (bounded_run hbounded before).updateLaw snapshot
  · intro before snapshot between last hprefix symbol houtside hinside hlast
    obtain ⟨admission, hmember⟩ := Option.isSome_iff_exists.mp (Dict.isSome_get?_iff.mpr hinside)
    rw [Run.run_append] at hmember
    have hadmitted := ((bounded_run hbounded before).updateLaw snapshot).arrives symbol admission
      houtside hmember
    have hrun := hordered.sublist hprefix.sublist
    have hlater := (List.pairwise_append.mp
      (List.pairwise_cons.mp (List.pairwise_append.mp hrun).2.1).2).2.2
    have hstays := stays_run ((bounded_run hbounded before).step snapshot) hmember
      (between ++ [last]) ?_
    · obtain ⟨later, hlaterMember, -⟩ := hstays
      rw [Run.run_append, Run.run_cons, symbols, ← Dict.isSome_get?_iff, hlaterMember]
      rfl
    · intro other hother
      have hresidencySame : ((Run.run step pool before).step snapshot).minimumResidencySeconds =
          minimumResidencySeconds := minimumResidencySeconds_run pool before
      rw [hadmitted, hresidencySame]
      rcases List.mem_append.mp hother with hbetween | hlastMem
      · exact (hlater other hbetween last (List.mem_singleton_self _)).trans_lt hlast
      · rw [List.mem_singleton.mp hlastMem]
        exact hlast

section

def rankedAs (symbol : String) (observedAt : Instant) : CandidateMetric where
  canonicalSymbol := symbol
  observedAt := observedAt
  quoteVolume24h := 1000
  quoteVolumeVelocity := 1 / 10
  tradeCountVelocity := 1 / 10
  absolutePriceReturn := 1 / 100
  spreadBps := 2
  bidLevelNotional := 5000
  askLevelNotional := 5000

def churning : List CandidateSnapshot :=
  [⟨0, [rankedAs "AAA/USDT" 0]⟩,
   ⟨60000000, [rankedAs "BBB/USDT" 60000000, rankedAs "CCC/USDT" 60000000]⟩]

/-- A symbol that is no longer ranked stays for its residency, and a third one finds no room. -/
theorem residency_churning :
    "AAA/USDT" ∈ (Run.run step (new 2 900 (by decide) (by decide)) churning).symbols ∧
      "CCC/USDT" ∉ (Run.run step (new 2 900 (by decide) (by decide)) churning).symbols := by
  have hordered : churning.Pairwise fun a b => a.observedAt ≤ b.observedAt := by simp [churning]
  have hlaw := residency (show 0 < 2 by decide) (show 0 < 900 by decide) hordered
  refine ⟨?_, by decide +kernel⟩
  exact hlaw.2 [] ⟨0, [rankedAs "AAA/USDT" 0]⟩ []
    ⟨60000000, [rankedAs "BBB/USDT" 60000000, rankedAs "CCC/USDT" 60000000]⟩ List.prefix_rfl
    "AAA/USDT" (by decide +kernel) (by decide +kernel) (by decide +kernel)

end

end CandidatePool

end ChainQuantStudio.Universe
