import ChainQuantStudio.Library.Run
import Mathlib.Data.Fintype.Card
import Mathlib.Data.List.Nodup
import Mathlib.Logic.Function.Basic

/-!
# Merging streams through one bounded queue

One producer per source puts the items of its source into the queue, then an error or a marker, and
the merge takes them in order until it has all markers. A step is what runs between two points at
which a task may be suspended. What a source answers, also when it is cancelled, is an input, and so
is the order of the steps.
-/

namespace ChainQuantStudio.Exchanges.Streams

inductive Sent (T E : Type*)
  | item (value : T)
  | error (raised : E)
  | marker
  deriving DecidableEq

/-- Where a producer is suspended: at its source, at the full queue, at `aclose`, or not any more.
`marks` says that a marker is to follow, `marked` that it has been put. -/
inductive Phase (T E : Type*)
  | iterating
  | putting (sent : Sent T E)
  | closing (marks : Bool)
  | done (marked : Bool)
  deriving DecidableEq

structure Producer (T E : Type*) where
  phase : Phase T E := .iterating
  cancelled : Bool := false
  produced : List T := []
  failed : Option E := none

inductive Outcome (E : Type*)
  | ended
  | raised (error : E)
  | closed
  deriving DecidableEq

/-- The generator: in `queue.get`, at its `yield`, in `gather`, or concluded. -/
inductive Merge (E : Type*)
  | waiting
  | yielding
  | finishing (outcome : Outcome E)
  | concluded (outcome : Outcome E)
  deriving DecidableEq

structure State (n : ℕ) (T E : Type*) where
  queue : List (Fin n × Sent T E) := []
  taken : List (Fin n × Sent T E) := []
  yielded : List (Fin n × T) := []
  producers : Fin n → Producer T E := fun _ => {}
  completed : ℕ := 0
  merge : Merge E

inductive Answer (T E : Type*)
  | item (value : T)
  | ended
  | raised (error : E)
  | cancelledError

inductive Action (n : ℕ) (T E : Type*)
  | take
  | next
  | close
  | answer (i : Fin n) (answer : Answer T E)
  | put (i : Fin n)
  | deliver (i : Fin n)
  | closed (i : Fin n) (raises : Bool)
  | gathered

variable {n : ℕ} {T E : Type*}

def Phase.after : Sent T E → Phase T E
  | .item _ => .iterating
  | .error _ => .closing true
  | .marker => .done true

def Phase.isDone : Phase T E → Bool
  | .done _ => true
  | _ => false

/-- `task.cancel()`. -/
def Producer.cancel (p : Producer T E) : Producer T E :=
  match p.phase with
  | .done _ => p
  | _ => { p with cancelled := true }

namespace State

variable (size : ℕ) (s : State n T E)

def start (n : ℕ) : State n T E where
  merge := if 0 < n then .waiting else .finishing .ended

def Running : Prop := s.merge = .waiting ∨ s.merge = .yielding

instance [DecidableEq E] : Decidable s.Running := inferInstanceAs (Decidable (_ ∨ _))

/-- The `finally` block up to `gather`. -/
def finish (outcome : Outcome E) : State n T E :=
  { s with merge := .finishing outcome, producers := fun i => (s.producers i).cancel }

def set (i : Fin n) (p : Producer T E) : State n T E :=
  { s with producers := Function.update s.producers i p }

/-- `await queue.put(sent)`, as far as it comes without waiting. -/
def offer (i : Fin n) (p : Producer T E) (sent : Sent T E) : State n T E :=
  if s.queue.length < size then
    { s with queue := s.queue ++ [(i, sent)] }.set i { p with phase := .after sent }
  else s.set i { p with phase := .putting sent }

def handle (i : Fin n) (sent : Sent T E) : State n T E :=
  match sent with
  | .item value => { s with yielded := s.yielded ++ [(i, value)], merge := .yielding }
  | .error raised => s.finish (.raised raised)
  | .marker =>
    let s := { s with completed := s.completed + 1 }
    if s.completed < n then s else s.finish .ended

def answered (i : Fin n) (p : Producer T E) : Answer T E → State n T E
  | .item value => s.offer size i { p with produced := p.produced ++ [value] } (.item value)
  | .ended => s.set i { p with phase := .closing true }
  | .raised error => s.offer size i { p with failed := some error } (.error error)
  | .cancelledError => s.set i { p with phase := .closing false }

def step (s : State n T E) : Action n T E → State n T E
  | .take =>
    match s.merge, s.queue with
    | .waiting, (i, sent) :: rest =>
      { s with queue := rest, taken := s.taken ++ [(i, sent)] }.handle i sent
    | _, _ => s
  | .next =>
    match s.merge with
    | .yielding => { s with merge := .waiting }
    | _ => s
  | .close =>
    match s.merge with
    | .waiting | .yielding => s.finish .closed
    | _ => s
  | .answer i answer =>
    match (s.producers i).phase with
    | .iterating => s.answered size i { s.producers i with cancelled := false } answer
    | _ => s
  | .put i =>
    match (s.producers i).phase with
    | .putting sent =>
      if (s.producers i).cancelled = false ∧ s.queue.length < size then
        s.offer size i (s.producers i) sent
      else s
    | _ => s
  | .deliver i =>
    match (s.producers i).phase with
    | .putting sent =>
      if (s.producers i).cancelled then
        -- the marker is put after the `try`, so nothing is closed again
        let phase := match sent with
          | .marker => .done false
          | _ => .closing false
        s.set i { s.producers i with cancelled := false, phase := phase }
      else s
    | _ => s
  | .closed i raises =>
    match (s.producers i).phase with
    | .closing marks =>
      let p := { s.producers i with cancelled := false }
      if raises then s.set i { p with phase := .done false }
      else if marks then s.offer size i p .marker
      else s.set i { p with phase := .done false }
    | _ => s
  | .gathered =>
    match s.merge with
    | .finishing outcome =>
      if ∀ i, (s.producers i).phase.isDone then { s with merge := .concluded outcome }
      else s
    | _ => s

end State

def Producer.script (p : Producer T E) : List (Sent T E) :=
  p.produced.map .item ++ (p.failed.map .error).toList

def itemsOf (sent : List (Sent T E)) : List T :=
  sent.filterMap fun
    | .item value => some value
    | _ => none

def errorsOf (sent : List (Sent T E)) : List E :=
  sent.filterMap fun
    | .error raised => some raised
    | _ => none

def sentBy (i : Fin n) (entries : List (Fin n × Sent T E)) : List (Sent T E) :=
  (entries.filter fun entry => entry.1 = i).map Prod.snd

/-- With `sent` after what has been handed over, the producer is where it is. -/
def Fits (p : Producer T E) (handed : List (Sent T E)) : Sent T E → Prop
  | .item value => handed ++ [.item value] = p.script ∧ p.failed = none
  | .error raised => handed ++ [.error raised] = p.script
  | .marker => handed = p.script

def Follows (p : Producer T E) (handed : List (Sent T E)) : Prop :=
  match p.phase with
  | .iterating => handed = p.script ∧ p.failed = none
  | .putting sent => Fits p handed sent
  | .closing true => handed = p.script
  | .closing false => handed <+: p.script
  | .done true => handed = p.script ++ [.marker]
  | .done false => handed <+: p.script

@[simp] theorem sentBy_nil (i : Fin n) : sentBy i ([] : List (Fin n × Sent T E)) = [] := rfl

theorem sentBy_append (i : Fin n) (xs ys : List (Fin n × Sent T E)) :
    sentBy i (xs ++ ys) = sentBy i xs ++ sentBy i ys := by
  simp [sentBy]

theorem sentBy_singleton_self (i : Fin n) (sent : Sent T E) : sentBy i [(i, sent)] = [sent] := by
  simp [sentBy]

theorem sentBy_singleton_ne {i j : Fin n} (h : j ≠ i) (sent : Sent T E) :
    sentBy i [(j, sent)] = [] := by
  simp [sentBy, h]

theorem mem_sentBy {i : Fin n} {sent : Sent T E} {entries : List (Fin n × Sent T E)} :
    sent ∈ sentBy i entries ↔ (i, sent) ∈ entries := by
  simp [sentBy]

theorem itemsOf_append (xs ys : List (Sent T E)) : itemsOf (xs ++ ys) = itemsOf xs ++ itemsOf ys :=
  List.filterMap_append

theorem itemsOf_script (p : Producer T E) : itemsOf p.script = p.produced := by
  have hitems : itemsOf (p.produced.map (Sent.item (E := E))) = p.produced := by
    simp [itemsOf, List.filterMap_map]
  rw [Producer.script, itemsOf_append, hitems]
  cases p.failed <;> simp [itemsOf]

theorem marker_not_mem_script (p : Producer T E) : Sent.marker ∉ p.script := by
  cases h : p.failed <;> simp [Producer.script, h]

theorem error_mem_script {p : Producer T E} {raised : E} :
    Sent.error raised ∈ p.script ↔ p.failed = some raised := by
  cases h : p.failed <;> simp [Producer.script, h, eq_comm]

section

variable {p : Producer T E} {handed : List (Sent T E)} {sent : Sent T E}

theorem Follows.isPrefix (h : Follows p handed) : handed <+: p.script ++ [.marker] := by
  have hscript : p.script <+: p.script ++ [.marker] := List.prefix_append _ _
  unfold Follows at h
  split at h
  · rw [h.1]
    exact hscript
  · rename_i sent _
    cases sent with
    | item value =>
      rw [← h.1, List.append_assoc]
      exact List.prefix_append _ _
    | error raised =>
      rw [← h, List.append_assoc]
      exact List.prefix_append _ _
    | marker =>
      rw [h]
      exact hscript
  · rw [h]
    exact hscript
  · exact h.trans hscript
  · rw [h]
  · exact h.trans hscript

theorem Follows.itemsOf_isPrefix (h : Follows p handed) : itemsOf handed <+: p.produced := by
  obtain ⟨rest, hrest⟩ := h.isPrefix
  refine ⟨itemsOf rest, ?_⟩
  rw [← itemsOf_append, hrest, itemsOf_append, itemsOf_script]
  simp [itemsOf]

theorem Follows.failed_of_error (h : Follows p handed) {raised : E}
    (hmem : Sent.error raised ∈ handed) : p.failed = some raised := by
  have hscript : Sent.error raised ∈ p.script ++ [.marker] := h.isPrefix.subset hmem
  simpa [error_mem_script] using hscript

theorem Follows.of_marker (h : Follows p handed) (hmem : Sent.marker ∈ handed) :
    p.phase = .done true ∧ handed = p.script ++ [.marker] := by
  have hpart : ¬ handed <+: p.script := fun hfirst =>
    marker_not_mem_script p (hfirst.subset hmem)
  unfold Follows at h
  split at h
  · exact absurd (h.1 ▸ List.prefix_rfl) hpart
  · rename_i sent _
    cases sent with
    | item value => exact absurd (h.1 ▸ List.prefix_append _ _) hpart
    | error raised => exact absurd (h ▸ List.prefix_append _ _) hpart
    | marker => exact absurd (h ▸ List.prefix_rfl) hpart
  · exact absurd (h ▸ List.prefix_rfl) hpart
  · exact absurd h hpart
  · rename_i hphase
    exact ⟨hphase, h⟩
  · exact absurd h hpart

theorem Fits.follows_after (h : Fits p handed sent) (cancelled : Bool) :
    Follows { p with cancelled := cancelled, phase := .after sent } (handed ++ [sent]) := by
  cases sent with
  | item value => exact ⟨h.1, h.2⟩
  | error raised => exact h
  | marker => exact congrArg (· ++ [Sent.marker]) h

theorem Fits.isPrefix (h : Fits p handed sent) : handed <+: p.script := by
  cases sent with
  | item value => exact h.1 ▸ List.prefix_append _ _
  | error raised =>
    exact (show handed ++ [.error raised] = p.script from h) ▸ List.prefix_append _ _
  | marker => exact (show handed = p.script from h) ▸ List.prefix_rfl

theorem Follows.cancel (h : Follows p handed) : Follows p.cancel handed := by
  unfold Producer.cancel
  split
  · exact h
  · exact h

end

def isMarker : Sent T E → Bool
  | .marker => true
  | _ => false

def marked (entries : List (Fin n × Sent T E)) : List (Fin n) :=
  (entries.filter fun entry => isMarker entry.2).map Prod.fst

def itemEntries (entries : List (Fin n × Sent T E)) : List (Fin n × T) :=
  entries.filterMap fun
    | (i, .item value) => some (i, value)
    | _ => none

def ErrorFree (entries : List (Fin n × Sent T E)) : Prop :=
  ∀ i raised, (i, Sent.error raised) ∉ entries

def Outcome.Explains (taken : List (Fin n × Sent T E)) : Outcome E → Prop
  | .ended => n ≤ (marked taken).length ∧ ErrorFree taken
  | .raised e => ∃ before i, taken = before ++ [(i, .error e)] ∧ ErrorFree before
  | .closed => ErrorFree taken

namespace State

variable {size : ℕ} {s : State n T E}

structure Handed (s : State n T E) : Prop where
  follows : ∀ i, Follows (s.producers i) (sentBy i (s.taken ++ s.queue))
  completed : s.completed = (marked s.taken).length
  yielded : s.yielded = itemEntries s.taken

structure Inv (s : State n T E) : Prop extends Handed s where
  running : s.Running → s.completed < n ∧ ErrorFree s.taken
  ended : ∀ outcome, s.merge = .finishing outcome ∨ s.merge = .concluded outcome →
    outcome.Explains s.taken

theorem Inv.set (h : s.Inv) {i : Fin n} {p : Producer T E}
    (hp : Follows p (sentBy i (s.taken ++ s.queue))) : (s.set i p).Inv where
  follows j := by
    by_cases hj : j = i
    · subst hj
      simpa [State.set] using hp
    · simpa [State.set, hj] using h.follows j
  completed := h.completed
  yielded := h.yielded
  running := h.running
  ended := h.ended

theorem Inv.offer (h : s.Inv) {i : Fin n} {p : Producer T E} {sent : Sent T E}
    (hp : Fits p (sentBy i (s.taken ++ s.queue)) sent) : (s.offer size i p sent).Inv := by
  unfold State.offer
  split_ifs
  · refine ⟨⟨fun j => ?_, h.completed, h.yielded⟩, h.running, h.ended⟩
    by_cases hj : j = i
    · subst hj
      have hafter := hp.follows_after p.cancelled
      simpa [State.set, ← List.append_assoc, sentBy_append, sentBy_singleton_self] using hafter
    · have hold := h.follows j
      simpa [State.set, hj, ← List.append_assoc, sentBy_append, sentBy_singleton_ne (Ne.symm hj)]
        using hold
  · exact h.set hp

theorem Handed.finish (h : s.Handed) {outcome : Outcome E} (houtcome : outcome.Explains s.taken) :
    (s.finish outcome).Inv where
  follows i := (h.follows i).cancel
  completed := h.completed
  yielded := h.yielded
  running hrunning := by
    rcases hrunning with hrunning | hrunning <;> cases hrunning
  ended other hother := by
    rcases hother with hother | hother
    · cases hother
      exact houtcome
    · cases hother

theorem marked_append (xs ys : List (Fin n × Sent T E)) :
    marked (xs ++ ys) = marked xs ++ marked ys := by
  simp [marked]

theorem itemEntries_append (xs ys : List (Fin n × Sent T E)) :
    itemEntries (xs ++ ys) = itemEntries xs ++ itemEntries ys := List.filterMap_append

theorem errorFree_concat {entries : List (Fin n × Sent T E)} (h : ErrorFree entries) {i : Fin n}
    {sent : Sent T E} (hsent : ∀ e, sent ≠ .error e) : ErrorFree (entries ++ [(i, sent)]) := by
  intro j e hmem
  rcases List.mem_append.mp hmem with hold | hnew
  · exact h j e hold
  · cases List.mem_singleton.mp hnew
    exact hsent e rfl

theorem Handed.take (h : s.Handed) {i : Fin n} {sent : Sent T E} {rest : List (Fin n × Sent T E)}
    (hqueue : s.queue = (i, sent) :: rest) (merge : Merge E) :
    Handed { s with
      queue := rest, taken := s.taken ++ [(i, sent)], merge := merge
      yielded := s.yielded ++ itemEntries [(i, sent)]
      completed := s.completed + (marked [(i, sent)]).length } where
  follows j := by
    rw [List.append_assoc, List.singleton_append, ← hqueue]
    exact h.follows j
  completed := by
    rw [marked_append, List.length_append, h.completed]
  yielded := by
    rw [itemEntries_append, h.yielded]

theorem Inv.take (h : s.Inv) {i : Fin n} {sent : Sent T E} {rest : List (Fin n × Sent T E)}
    (hwaiting : s.merge = .waiting) (hqueue : s.queue = (i, sent) :: rest) :
    ({ s with queue := rest, taken := s.taken ++ [(i, sent)] }.handle i sent).Inv := by
  obtain ⟨hcompleted, hfree⟩ := h.running (.inl hwaiting)
  cases sent with
  | item value =>
    refine ⟨h.toHanded.take hqueue .yielding,
      fun _ => ⟨hcompleted, errorFree_concat hfree nofun⟩, ?_⟩
    rintro outcome (houtcome | houtcome) <;> cases houtcome
  | error e =>
    have htaken := h.toHanded.take hqueue s.merge
    have hyielded : s.yielded ++ itemEntries [(i, (.error e : Sent T E))] = s.yielded :=
      List.append_nil _
    rw [hyielded] at htaken
    exact htaken.finish ⟨s.taken, i, rfl, hfree⟩
  | marker =>
    have htaken := h.toHanded.take hqueue s.merge
    have hyielded : s.yielded ++ itemEntries [(i, (.marker : Sent T E))] = s.yielded :=
      List.append_nil _
    have hfree' : ErrorFree (s.taken ++ [(i, (.marker : Sent T E))]) :=
      errorFree_concat hfree nofun
    rw [hyielded] at htaken
    unfold handle
    dsimp only
    split_ifs with hmore
    · refine ⟨htaken, fun _ => ⟨hmore, hfree'⟩, ?_⟩
      rintro outcome (houtcome | houtcome)
      · exact absurd (hwaiting.symm.trans houtcome) nofun
      · exact absurd (hwaiting.symm.trans houtcome) nofun
    · refine htaken.finish ⟨?_, hfree'⟩
      have hcount := htaken.completed
      exact (not_lt.mp hmore).trans hcount.le

theorem inv_start (n : ℕ) : (start n : State n T E).Inv where
  follows i := ⟨rfl, rfl⟩
  completed := rfl
  yielded := rfl
  running hrunning := by
    refine ⟨?_, nofun⟩
    by_contra hn
    have hstart : (start n : State n T E).merge = .finishing .ended := if_neg hn
    rcases hrunning with hrunning | hrunning <;> rw [hstart] at hrunning <;> cases hrunning
  ended outcome houtcome := by
    have hstart : (start n : State n T E).merge =
        if 0 < n then .waiting else .finishing .ended := rfl
    rw [hstart] at houtcome
    split_ifs at houtcome with hn
    · rcases houtcome with houtcome | houtcome <;> cases houtcome
    · rcases houtcome with houtcome | houtcome
      · cases houtcome
        exact ⟨by omega, nofun⟩
      · cases houtcome

theorem Inv.answered (h : s.Inv) {i : Fin n} (hphase : (s.producers i).phase = .iterating)
    (answer : Answer T E) :
    (s.answered size i { s.producers i with cancelled := false } answer).Inv := by
  have hfollows := h.follows i
  unfold Follows at hfollows
  rw [hphase] at hfollows
  obtain ⟨hhanded, hfailed⟩ := hfollows
  have hscript : (s.producers i).script = (s.producers i).produced.map .item := by
    rw [Producer.script, hfailed]
    exact List.append_nil _
  cases answer with
  | item value =>
    refine h.offer ⟨?_, hfailed⟩
    rw [hhanded, hscript]
    simp [Producer.script, hfailed]
  | ended => exact h.set hhanded
  | raised error =>
    refine h.offer ?_
    change _ ++ _ = _
    rw [hhanded, hscript]
    rfl
  | cancelledError => exact h.set (hhanded ▸ List.prefix_rfl)

theorem Inv.step (h : s.Inv) (action : Action n T E) : (s.step size action).Inv := by
  unfold State.step
  cases action with
  | take =>
    dsimp only
    split
    · rename_i hwaiting hqueue
      exact h.take hwaiting hqueue
    · exact h
  | next =>
    dsimp only
    split
    · rename_i hyielding
      refine ⟨⟨h.follows, h.completed, h.yielded⟩, fun _ => h.running (.inr hyielding), ?_⟩
      rintro outcome (houtcome | houtcome) <;> cases houtcome
    · exact h
  | close =>
    dsimp only
    split
    · rename_i hwaiting
      exact h.toHanded.finish (h.running (.inl hwaiting)).2
    · rename_i hyielding
      exact h.toHanded.finish (h.running (.inr hyielding)).2
    · exact h
  | answer i answer =>
    dsimp only
    split
    · rename_i hphase
      exact h.answered hphase answer
    · exact h
  | put i =>
    dsimp only
    split
    · rename_i sent hphase
      split_ifs
      · have hfollows := h.follows i
        unfold Follows at hfollows
        rw [hphase] at hfollows
        exact h.offer hfollows
      · exact h
    · exact h
  | deliver i =>
    dsimp only
    split
    · rename_i sent hphase
      split_ifs
      · have hfollows := h.follows i
        unfold Follows at hfollows
        rw [hphase] at hfollows
        have hpart : sentBy i (s.taken ++ s.queue) <+: (s.producers i).script := hfollows.isPrefix
        cases sent with
        | item value => exact h.set hpart
        | error raised => exact h.set hpart
        | marker => exact h.set hpart
      · exact h
    · exact h
  | closed i raises =>
    dsimp only
    split
    · rename_i marks hphase
      have hfollows := h.follows i
      unfold Follows at hfollows
      rw [hphase] at hfollows
      have hpart : sentBy i (s.taken ++ s.queue) <+: (s.producers i).script := by
        cases marks with
        | true => exact (show sentBy i (s.taken ++ s.queue) = _ from hfollows) ▸ List.prefix_rfl
        | false => exact hfollows
      split_ifs with hraises hmarks
      · exact h.set hpart
      · subst hmarks
        exact h.offer hfollows
      · exact h.set hpart
    · exact h
  | gathered =>
    dsimp only
    split
    · rename_i outcome houtcome
      split_ifs
      · refine ⟨⟨h.follows, h.completed, h.yielded⟩, ?_, ?_⟩
        · rintro (hrunning | hrunning) <;> cases hrunning
        · rintro other (hother | hother)
          · cases hother
          · cases hother
            exact h.ended outcome (.inl houtcome)
      · exact h
    · exact h

end State

end ChainQuantStudio.Exchanges.Streams
