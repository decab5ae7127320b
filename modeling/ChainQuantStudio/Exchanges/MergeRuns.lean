import ChainQuantStudio.Exchanges.MergedStreams
import Mathlib.Data.Fintype.BigOperators

/-!
# Runs of the merge

As long as no source raises `CancelledError` of its own accord, no `aclose` raises before the merge
is over and a source that goes on after its cancellation finds room in the queue, the merge ends
with all items or with the first error, and a merge that is closed leaves no producer at the queue.
-/

namespace ChainQuantStudio.Exchanges.Streams

variable {n : ℕ} {T E : Type*}

namespace State

variable {size : ℕ} {s : State n T E}

def yieldedBy (s : State n T E) (i : Fin n) : List T :=
  (s.yielded.filter fun entry => entry.1 = i).map Prod.snd

def Finished (s : State n T E) (outcome : Outcome E) : Prop :=
  s.merge = .finishing outcome ∨ s.merge = .concluded outcome

theorem running_or_finished (s : State n T E) : s.Running ∨ ∃ outcome, s.Finished outcome := by
  cases hmerge : s.merge with
  | waiting => exact .inl (.inl hmerge)
  | yielding => exact .inl (.inr hmerge)
  | finishing outcome => exact .inr ⟨outcome, .inl hmerge⟩
  | concluded outcome => exact .inr ⟨outcome, .inr hmerge⟩

theorem Finished.not_running {outcome : Outcome E} (h : s.Finished outcome) : ¬ s.Running := by
  rintro (hrunning | hrunning) <;> rcases h with h | h <;> rw [h] at hrunning <;> cases hrunning

theorem yieldedBy_eq (h : s.Handed) (i : Fin n) : s.yieldedBy i = itemsOf (sentBy i s.taken) := by
  rw [yieldedBy, h.yielded]
  induction s.taken with
  | nil => rfl
  | cons entry entries ih =>
    obtain ⟨j, sent⟩ := entry
    have hsplit : sentBy i ((j, sent) :: entries) = sentBy i [(j, sent)] ++ sentBy i entries :=
      sentBy_append i [(j, sent)] entries
    have hitems : itemEntries ((j, sent) :: entries) =
        itemEntries [(j, sent)] ++ itemEntries entries := itemEntries_append [(j, sent)] entries
    rw [hsplit, hitems, List.filter_append, List.map_append, itemsOf_append, ih]
    by_cases hj : j = i
    · subst hj
      cases sent <;> simp [itemEntries, sentBy_singleton_self, itemsOf]
    · cases sent <;> simp [itemEntries, sentBy_singleton_ne hj, itemsOf, hj]

theorem mem_marked {i : Fin n} {entries : List (Fin n × Sent T E)} :
    i ∈ marked entries ↔ Sent.marker ∈ sentBy i entries := by
  rw [mem_sentBy, marked, List.mem_map]
  constructor
  · rintro ⟨⟨j, sent⟩, hentry, rfl⟩
    obtain ⟨hmem, hmarker⟩ := List.mem_filter.mp hentry
    cases sent with
    | marker => exact hmem
    | item value => cases hmarker
    | error raised => cases hmarker
  · intro hmem
    exact ⟨(i, .marker), List.mem_filter.mpr ⟨hmem, rfl⟩, rfl⟩

theorem count_marked (i : Fin n) (entries : List (Fin n × Sent T E)) :
    (marked entries).count i = (sentBy i entries).countP isMarker := by
  induction entries with
  | nil => rfl
  | cons entry entries ih =>
    obtain ⟨j, sent⟩ := entry
    have hmarked : marked ((j, sent) :: entries) = marked [(j, sent)] ++ marked entries :=
      marked_append [(j, sent)] entries
    have hsplit : sentBy i ((j, sent) :: entries) = sentBy i [(j, sent)] ++ sentBy i entries :=
      sentBy_append i [(j, sent)] entries
    rw [hmarked, hsplit, List.count_append, List.countP_append, ih]
    by_cases hj : j = i
    · subst hj
      cases sent <;> simp [marked, isMarker, sentBy_singleton_self]
    · cases sent <;> simp [marked, isMarker, sentBy_singleton_ne hj, hj]

theorem countP_script (p : Producer T E) : p.script.countP isMarker = 0 := by
  rw [List.countP_eq_zero]
  intro sent hsent hmarker
  cases sent with
  | marker => exact marker_not_mem_script p hsent
  | item value => cases hmarker
  | error raised => cases hmarker

theorem Handed.nodup_marked (h : s.Handed) : (marked s.taken).Nodup := by
  rw [List.nodup_iff_count_le_one]
  intro i
  have hsub : (sentBy i s.taken).Sublist ((s.producers i).script ++ [.marker]) := by
    refine List.Sublist.trans ?_ (h.follows i).isPrefix.sublist
    rw [sentBy_append]
    exact List.sublist_append_left _ _
  calc
    (marked s.taken).count i = (sentBy i s.taken).countP isMarker := count_marked i s.taken
    _ ≤ ((s.producers i).script ++ [Sent.marker]).countP isMarker := hsub.countP_le
    _ = 1 := by
      rw [List.countP_append, countP_script]
      rfl

theorem Handed.mem_marked_of_length (h : s.Handed) (hlength : n ≤ (marked s.taken).length)
    (i : Fin n) : i ∈ marked s.taken := by
  have hcard : (marked s.taken).toFinset.card = (marked s.taken).length :=
    List.toFinset_card_of_nodup h.nodup_marked
  have huniv : (marked s.taken).toFinset = Finset.univ := by
    refine Finset.eq_univ_of_card _ (le_antisymm (Finset.card_le_univ _) ?_)
    rw [Fintype.card_fin, hcard]
    exact hlength
  rw [← List.mem_toFinset, huniv]
  exact Finset.mem_univ i

theorem length_marked {entries : List (Fin n × Sent T E)} (h : ∀ i, i ∈ marked entries) :
    n ≤ (marked entries).length := by
  have huniv : (marked entries).toFinset = Finset.univ :=
    Finset.eq_univ_of_forall fun i => List.mem_toFinset.mpr (h i)
  have hcard := List.toFinset_card_le (marked entries)
  rwa [huniv, Finset.card_univ, Fintype.card_fin] at hcard

theorem Handed.of_mem_marked (h : s.Handed) {i : Fin n} (hi : i ∈ marked s.taken) :
    (s.producers i).phase = .done true ∧ sentBy i s.queue = [] ∧
      sentBy i s.taken = (s.producers i).script ++ [.marker] := by
  have hmarker := mem_marked.mp hi
  have hhanded := h.follows i
  rw [sentBy_append] at hhanded
  obtain ⟨hphase, heq⟩ := hhanded.of_marker (List.mem_append_left _ hmarker)
  have hqueue : sentBy i s.queue = [] := by
    by_contra hne
    obtain ⟨front, last, hlast⟩ := List.eq_nil_or_concat (sentBy i s.queue) |>.resolve_left hne
    rw [hlast, List.concat_eq_append, ← List.append_assoc] at heq
    have hfront := (List.append_inj' heq rfl).1
    exact marker_not_mem_script _ (hfront ▸ List.mem_append_left _ hmarker)
  refine ⟨hphase, hqueue, ?_⟩
  rwa [hqueue, List.append_nil] at heq

/-- What keeps the merge whole: a source raises `CancelledError` only when its producer is
cancelled, `aclose` raises before the marker only when the merge no longer reads, and then what a
source still gives finds room in the queue. -/
def Orderly (size : ℕ) (s : State n T E) : Action n T E → Prop
  | .answer i answer => (s.producers i).phase = .iterating →
    match answer with
    | .cancelledError => (s.producers i).cancelled = true
    | .ended => True
    | .item _ | .raised _ => ¬ s.Running → s.queue.length < size
  | .closed i raises => (s.producers i).phase = .closing true →
    if raises then ¬ s.Running else ¬ s.Running → s.queue.length < size
  | _ => True

structure Unblocked (s : State n T E) : Prop where
  working : s.Running → ∀ i, (s.producers i).cancelled = false ∧
    (s.producers i).phase ≠ .closing false ∧ (s.producers i).phase ≠ .done false
  leaving : ¬ s.Running → ∀ i sent, (s.producers i).phase = .putting sent →
    (s.producers i).cancelled = true

theorem Unblocked.set (h : s.Unblocked) {i : Fin n} {p : Producer T E}
    (hworking : s.Running → p.cancelled = false ∧ p.phase ≠ .closing false ∧ p.phase ≠ .done false)
    (hleaving : ¬ s.Running → ∀ sent, p.phase = .putting sent → p.cancelled = true) :
    (s.set i p).Unblocked where
  working hrunning j := by
    by_cases hj : j = i
    · subst hj
      simpa [State.set] using hworking hrunning
    · simpa [State.set, hj] using h.working hrunning j
  leaving hover j := by
    by_cases hj : j = i
    · subst hj
      simpa [State.set] using hleaving hover
    · simpa [State.set, hj] using h.leaving hover j

theorem Unblocked.offer (h : s.Unblocked) {i : Fin n} {p : Producer T E} {sent : Sent T E}
    (hworking : s.Running → p.cancelled = false)
    (hroom : ¬ s.Running → s.queue.length < size) : (s.offer size i p sent).Unblocked := by
  unfold State.offer
  split_ifs with hlength
  · have hqueued : ({ s with queue := s.queue ++ [(i, sent)] } : State n T E).Unblocked :=
      ⟨h.working, h.leaving⟩
    refine hqueued.set (fun hrunning => ⟨hworking hrunning, ?_⟩) ?_
    · cases sent <;> exact ⟨nofun, nofun⟩
    · intro _ other hother
      cases sent <;> cases hother
  · refine h.set (fun hrunning => ⟨hworking hrunning, nofun, nofun⟩) ?_
    intro hover
    exact absurd (hroom hover) hlength

theorem unblocked_finish (s : State n T E) (outcome : Outcome E) :
    (s.finish outcome).Unblocked where
  working hrunning := by
    rcases hrunning with hrunning | hrunning <;> cases hrunning
  leaving _ i sent hphase := by
    change ((s.producers i).cancel).phase = _ at hphase
    change ((s.producers i).cancel).cancelled = true
    unfold Producer.cancel at hphase ⊢
    split
    · rename_i marked hdone
      rw [hdone] at hphase
      exact absurd (hdone.symm.trans hphase) nofun
    · rfl

theorem Unblocked.of_running {s' : State n T E} (h : s.Unblocked) (hrunning : s.Running)
    (hrunning' : s'.Running) (hproducers : s'.producers = s.producers) : s'.Unblocked where
  working _ := by
    rw [hproducers]
    exact h.working hrunning
  leaving hover := absurd hrunning' hover

theorem Unblocked.answered (h : s.Unblocked) {i : Fin n} {answer : Answer T E}
    (hphase : (s.producers i).phase = .iterating) (horderly : Orderly size s (.answer i answer)) :
    (s.answered size i { s.producers i with cancelled := false } answer).Unblocked := by
  have hanswer := horderly hphase
  cases answer with
  | item value => exact h.offer (fun _ => rfl) hanswer
  | raised error => exact h.offer (fun _ => rfl) hanswer
  | ended => exact h.set (fun _ => ⟨rfl, nofun, nofun⟩) nofun
  | cancelledError =>
    refine h.set (fun hrunning => ?_) nofun
    have hcancelled : (s.producers i).cancelled = true := hanswer
    rw [(h.working hrunning i).1] at hcancelled
    cases hcancelled

theorem Unblocked.step (h : s.Unblocked) {action : Action n T E}
    (horderly : Orderly size s action) : (s.step size action).Unblocked := by
  unfold State.step
  cases action with
  | take =>
    dsimp only
    split
    · rename_i i sent rest hwaiting hqueue
      cases sent with
      | item value => exact h.of_running (.inl hwaiting) (.inr rfl) rfl
      | error raised => exact unblocked_finish _ _
      | marker =>
        unfold handle
        dsimp only
        split_ifs
        · exact h.of_running (.inl hwaiting) (.inl hwaiting) rfl
        · exact unblocked_finish _ _
    · exact h
  | next =>
    dsimp only
    split
    · rename_i hyielding
      exact h.of_running (.inr hyielding) (.inl rfl) rfl
    · exact h
  | close =>
    dsimp only
    split
    · exact unblocked_finish _ _
    · exact unblocked_finish _ _
    · exact h
  | answer i answer =>
    dsimp only
    split
    · rename_i hphase
      exact h.answered hphase horderly
    · exact h
  | put i =>
    dsimp only
    split
    · rename_i sent hphase
      split_ifs with hroom
      · exact h.offer (fun _ => hroom.1) (fun _ => hroom.2)
      · exact h
    · exact h
  | deliver i =>
    dsimp only
    split
    · rename_i sent hphase
      split_ifs with hcancelled
      · refine h.set (fun hrunning => ?_) ?_
        · rw [(h.working hrunning i).1] at hcancelled
          cases hcancelled
        · intro _ other hother
          cases sent <;> cases hother
      · exact h
    · exact h
  | closed i raises =>
    dsimp only
    split
    · rename_i marks hphase
      have hmarks : s.Running → marks = true := by
        intro hrunning
        cases marks with
        | true => rfl
        | false => exact absurd hphase (h.working hrunning i).2.1
      split_ifs with hraises htrue
      · refine h.set (fun hrunning => ?_) nofun
        rw [hmarks hrunning] at hphase
        have hover := horderly hphase
        rw [if_pos hraises] at hover
        exact absurd hrunning hover
      · subst htrue
        have hroom := horderly hphase
        rw [if_neg hraises] at hroom
        exact h.offer (fun _ => rfl) hroom
      · exact h.set (fun hrunning => absurd (hmarks hrunning) htrue) nofun
    · exact h
  | gathered =>
    dsimp only
    split
    · rename_i outcome houtcome
      split_ifs
      · have hover : s.Finished outcome := .inl houtcome
        refine ⟨?_, fun _ => h.leaving hover.not_running⟩
        rintro (hrunning | hrunning) <;> cases hrunning
      · exact h
    · exact h

theorem unblocked_start (n : ℕ) : (start n : State n T E).Unblocked where
  working _ _ := ⟨rfl, nofun, nofun⟩
  leaving _ _ _ := nofun

theorem inv_run (actions : List (Action n T E)) :
    (Run.run (step size) (start n) actions).Inv :=
  Run.run_invariant Inv (fun _ action h => h.step action) (inv_start n) actions

def Exhausted (s : State n T E) : Prop :=
  (∀ i, (s.producers i).phase = .done true) ∧ s.queue = []

theorem Inv.exhausted_of_ended (h : s.Inv) (hended : s.Finished .ended) :
    s.Exhausted ∧
      ∀ i, (s.producers i).failed = none ∧ s.yieldedBy i = (s.producers i).produced := by
  obtain ⟨hlength, hfree⟩ := h.ended .ended hended
  have hmarked := h.toHanded.mem_marked_of_length hlength
  refine ⟨⟨fun i => (h.toHanded.of_mem_marked (hmarked i)).1, ?_⟩, fun i => ?_⟩
  · rw [List.eq_nil_iff_forall_not_mem]
    rintro ⟨i, sent⟩ hmem
    have hnone := (h.toHanded.of_mem_marked (hmarked i)).2.1
    have hsent := mem_sentBy.mpr hmem
    rw [hnone] at hsent
    cases hsent
  · have htaken := (h.toHanded.of_mem_marked (hmarked i)).2.2
    refine ⟨?_, ?_⟩
    · cases hfailed : (s.producers i).failed with
      | none => rfl
      | some error =>
        have herror : Sent.error error ∈ sentBy i s.taken := by
          rw [htaken]
          exact List.mem_append_left _ (error_mem_script.mpr hfailed)
        exact absurd (mem_sentBy.mp herror) (hfree i error)
    · rw [yieldedBy_eq h.toHanded, htaken, itemsOf_append, itemsOf_script]
      exact List.append_nil _

theorem Inv.finished_of_exhausted (h : s.Inv) (hexhausted : s.Exhausted) : ¬ s.Running := by
  intro hrunning
  have hmarked : ∀ i, i ∈ marked s.taken := by
    intro i
    have hhanded := h.follows i
    unfold Follows at hhanded
    rw [hexhausted.1 i, hexhausted.2, List.append_nil] at hhanded
    have heq : sentBy i s.taken = (s.producers i).script ++ [.marker] := hhanded
    rw [mem_marked, heq]
    exact List.mem_append_right _ (List.mem_singleton_self _)
  have hlength := length_marked hmarked
  have hcompleted := (h.running hrunning).1
  rw [h.completed] at hcompleted
  omega

theorem Inv.raised (h : s.Inv) {error : E} (hraised : s.Finished (.raised error)) :
    ∃ before i, s.taken = before ++ [(i, .error error)] ∧ ErrorFree before ∧
      (s.producers i).failed = some error ∧ s.yielded = itemEntries before := by
  obtain ⟨before, i, htaken, hfree⟩ := h.ended _ hraised
  have hmem : Sent.error error ∈ sentBy i (s.taken ++ s.queue) := by
    rw [mem_sentBy, htaken]
    simp
  refine ⟨before, i, htaken, hfree, (h.follows i).failed_of_error hmem, ?_⟩
  rw [h.yielded, htaken, itemEntries_append]
  exact List.append_nil _

theorem Unblocked.done_of_isDone (h : s.Unblocked) (hrunning : s.Running) {i : Fin n}
    (hdone : (s.producers i).phase.isDone = true) : (s.producers i).phase = .done true := by
  have hworking := (h.working hrunning i).2.2
  cases hphase : (s.producers i).phase with
  | done marked =>
    cases marked with
    | true => rfl
    | false => exact absurd hphase hworking
  | iterating =>
    rw [hphase] at hdone
    cases hdone
  | putting sent =>
    rw [hphase] at hdone
    cases hdone
  | closing marks =>
    rw [hphase] at hdone
    cases hdone

/-- A merge of any sources in any order of steps within the guard. -/
theorem merge_keeps_streams {size : ℕ} {actions : List (Action n T E)}
    (hguard : Run.Guarded (step size) (Orderly size) (start n) actions) :
    let s := Run.run (step size) (start n) actions
    (∀ i, s.yieldedBy i <+: (s.producers i).produced) ∧
    ((∀ i, (s.producers i).failed = none) → ¬ s.Finished .closed →
      (s.Finished .ended ↔ s.Exhausted)) ∧
    (s.Finished .ended →
      ∀ i, (s.producers i).failed = none ∧ s.yieldedBy i = (s.producers i).produced) ∧
    (∀ error, s.Finished (.raised error) → ∃ before i, s.taken = before ++ [(i, .error error)] ∧
      ErrorFree before ∧ (s.producers i).failed = some error ∧ s.yielded = itemEntries before) ∧
    (s.Running → s.queue = [] → ∃ i, (s.producers i).phase.isDone = false) ∧
    (¬ s.Running → ∀ i sent, (s.producers i).phase = .putting sent →
      (s.producers i).cancelled = true) := by
  intro s
  have h : s.Inv := inv_run actions
  have hunblocked : s.Unblocked :=
    Run.run_invariant_of_guarded Unblocked (fun _ _ hs horderly => hs.step horderly)
      (unblocked_start n) hguard
  refine ⟨fun i => ?_, fun hfailed hclosed => ⟨fun hended => (h.exhausted_of_ended hended).1, ?_⟩,
    fun hended => (h.exhausted_of_ended hended).2, fun error => h.raised, fun hrunning hqueue => ?_,
    hunblocked.leaving⟩
  · rw [yieldedBy_eq h.toHanded]
    refine List.IsPrefix.trans ?_ (h.follows i).itemsOf_isPrefix
    rw [sentBy_append, itemsOf_append]
    exact List.prefix_append _ _
  · intro hexhausted
    obtain ⟨outcome, houtcome⟩ :=
      (running_or_finished s).resolve_left (h.finished_of_exhausted hexhausted)
    cases outcome with
    | ended => exact houtcome
    | closed => exact absurd houtcome hclosed
    | raised error =>
      obtain ⟨before, i, -, -, hraised, -⟩ := h.raised houtcome
      exact absurd ((hfailed i).symm.trans hraised) nofun
  · by_contra hall
    refine h.finished_of_exhausted ⟨fun i => ?_, hqueue⟩ hrunning
    apply hunblocked.done_of_isDone hrunning
    by_contra hnot
    exact hall ⟨i, Bool.eq_false_of_not_eq_true hnot⟩

section

variable [DecidableEq T] [DecidableEq E]

instance (size : ℕ) (s : State n T E) : (action : Action n T E) → Decidable (Orderly size s action)
  | .answer i (.item _) | .answer i (.raised _) =>
    inferInstanceAs (Decidable ((s.producers i).phase = .iterating → ¬ s.Running → _ < _))
  | .answer i .ended => inferInstanceAs (Decidable ((s.producers i).phase = .iterating → True))
  | .answer i .cancelledError =>
    inferInstanceAs (Decidable ((s.producers i).phase = .iterating → _ = true))
  | .closed i raises =>
    inferInstanceAs (Decidable ((s.producers i).phase = .closing true →
      if raises then ¬ s.Running else ¬ s.Running → _ < _))
  | .take | .next | .close | .put _ | .deliver _ | .gathered => inferInstanceAs (Decidable True)

end

/-- `asyncio.Queue(maxsize=1_000)`. -/
def queueSize : ℕ := 1000

def twoSources : List (Action 2 ℕ Unit) :=
  [.answer 0 (.item 1), .answer 1 (.item 2), .take, .next, .answer 0 (.item 3), .answer 1 .ended,
   .take, .next, .closed 1 false, .answer 0 .ended, .closed 0 false, .take, .next, .take, .take]

theorem merge_keeps_streams_twoSources :
    (Run.run (step queueSize) (start 2) twoSources).Exhausted ∧
      (Run.run (step queueSize) (start 2) twoSources).yielded = [(0, 1), (1, 2), (0, 3)] := by
  have hguard : Run.Guarded (step queueSize) (Orderly queueSize) (start 2) twoSources := by
    decide +kernel
  have h := merge_keeps_streams hguard
  refine ⟨(h.2.1 (by decide +kernel) ?_).mp (.inl (by decide +kernel)), by decide +kernel⟩
  rintro (hclosed | hclosed) <;> exact absurd hclosed (by decide +kernel)

/-- The first source has filled the queue with `k` items, the second gives nothing yet. -/
structure Filled (s : State 2 Unit Unit) (k : ℕ) : Prop where
  queue : s.queue = List.replicate k (0, .item ())
  merge : s.merge = .waiting
  first : (s.producers 0).phase = .iterating
  second : (s.producers 1).phase = .iterating

theorem Filled.answer {s : State 2 Unit Unit} {k : ℕ} (h : Filled s k) (hk : k < queueSize) :
    Filled (s.step queueSize (.answer 0 (.item ()))) (k + 1) := by
  have hroom : s.queue.length < queueSize := by
    rw [h.queue, List.length_replicate]
    exact hk
  have hstep : s.step queueSize (.answer 0 (.item ())) =
      { s with queue := s.queue ++ [(0, Sent.item ())] }.set 0
        { phase := .iterating, cancelled := false
          produced := (s.producers 0).produced ++ [()], failed := (s.producers 0).failed } := by
    simp only [step, h.first, answered, offer, if_pos hroom, Phase.after]
  rw [hstep]
  refine ⟨?_, h.merge, rfl, h.second⟩
  rw [List.replicate_succ', ← h.queue]
  rfl

theorem filled_run {s : State 2 Unit Unit} {j k : ℕ} (h : Filled s j) (hk : j + k ≤ queueSize) :
    Filled (Run.run (step queueSize) s (List.replicate k (.answer 0 (.item ())))) (j + k) := by
  induction k generalizing s j with
  | zero => exact h
  | succ k ih =>
    rw [List.replicate_succ, Run.run_cons, show j + (k + 1) = (j + 1) + k by omega]
    exact ih (h.answer (by omega)) (by omega)

structure Stuck (s : State 2 Unit Unit) : Prop where
  merge : s.merge = .finishing .closed
  full : queueSize ≤ s.queue.length
  second : (s.producers 1).phase = .putting .marker
  missed : (s.producers 1).cancelled = false

theorem Stuck.set {s : State 2 Unit Unit} (h : Stuck s) (p : Producer Unit Unit) :
    Stuck (s.set 0 p) := ⟨h.merge, h.full, h.second, h.missed⟩

theorem Stuck.offer {s : State 2 Unit Unit} (h : Stuck s) (p : Producer Unit Unit)
    (sent : Sent Unit Unit) : Stuck (s.offer queueSize 0 p sent) := by
  unfold State.offer
  rw [if_neg h.full.not_gt]
  exact h.set _

theorem Stuck.step {s : State 2 Unit Unit} (h : Stuck s) (action : Action 2 Unit Unit) :
    Stuck (s.step queueSize action) := by
  have hside : ∀ i : Fin 2, i = 0 ∨ i = 1 := by decide
  unfold State.step
  cases action with
  | take => simpa only [h.merge] using h
  | next => simpa only [h.merge] using h
  | close => simpa only [h.merge] using h
  | answer i answer =>
    rcases hside i with rfl | rfl
    · dsimp only
      split
      · cases answer with
        | item value => exact h.offer _ _
        | raised error => exact h.offer _ _
        | ended => exact h.set _
        | cancelledError => exact h.set _
      · exact h
    · simpa only [h.second] using h
  | put i =>
    dsimp only
    split
    · rw [if_neg fun hroom => h.full.not_gt hroom.2]
      exact h
    · exact h
  | deliver i =>
    rcases hside i with rfl | rfl
    · dsimp only
      split
      · split_ifs
        · exact h.set _
        · exact h
      · exact h
    · simp only [h.second, h.missed]
      exact h
  | closed i raises =>
    rcases hside i with rfl | rfl
    · dsimp only
      split
      · split_ifs
        · exact h.set _
        · exact h.offer _ _
        · exact h.set _
      · exact h
    · simpa only [h.second] using h
  | gathered =>
    have hnot : ¬ ∀ i, (s.producers i).phase.isDone = true := by
      intro hall
      have hdone := hall 1
      rw [h.second] at hdone
      cases hdone
    simp only [h.merge, if_neg hnot]
    exact h

def endsOnCancel : List (Action 2 Unit Unit) :=
  [.answer 0 (.item ()), .take, .put 0, .close, .answer 1 .ended, .closed 1 false]

theorem stuck_of_filled {s : State 2 Unit Unit} (h : Filled s queueSize) :
    Stuck (Run.run (step queueSize) s endsOnCancel) := by
  obtain ⟨rest, hqueue, hrest⟩ : ∃ rest, s.queue = (0, Sent.item ()) :: rest ∧
      rest.length + 1 = queueSize :=
    ⟨List.replicate (queueSize - 1) (0, .item ()), h.queue, List.length_replicate ▸ rfl⟩
  have hroom : rest.length < queueSize := by omega
  have hmerge := h.merge
  have hfirst := h.first
  have hsecond := h.second
  constructor <;>
    simp [endsOnCancel, step, answered, offer, handle, finish, State.set, Producer.cancel,
      Phase.after, hqueue, hroom, hmerge, hfirst, hsecond, hrest]

/-- The merge is closed, and its second producer stays at the queue, whatever happens next. -/
theorem closed_merge_blocks :
    let s := Run.run (step queueSize) (start 2)
      (List.replicate queueSize (.answer 0 (.item ())) ++ endsOnCancel)
    s.merge = .finishing .closed ∧ ∀ more,
      ((Run.run (step queueSize) s more).producers 1).phase = .putting .marker ∧
        ((Run.run (step queueSize) s more).producers 1).cancelled = false := by
  intro s
  have hstart : Filled (start 2) 0 := ⟨rfl, rfl, rfl, rfl⟩
  have hfilled := filled_run hstart (k := queueSize) (Nat.zero_add _).le
  rw [Nat.zero_add] at hfilled
  have hstuck : Stuck s := by
    change Stuck (Run.run _ _ (_ ++ _))
    rw [Run.run_append]
    exact stuck_of_filled hfilled
  refine ⟨hstuck.merge, fun more => ?_⟩
  have hlater := Run.run_invariant Stuck (fun _ action h => h.step action) hstuck more
  exact ⟨hlater.second, hlater.missed⟩

end State

end ChainQuantStudio.Exchanges.Streams
