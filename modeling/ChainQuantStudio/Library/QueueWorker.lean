import ChainQuantStudio.Library.Run
import Mathlib.Data.List.ReduceOption

/-!
# A worker behind a bounded queue

Publishers put items into a bounded queue without waiting, one worker takes them in order, and a
call of `close` waits until the queue has been worked off, puts a sentinel and waits for the worker.
A step is what runs between two points at which a task may be suspended.
-/

namespace ChainQuantStudio.QueueWorker

/-- How far the worker gets with an item before it waits again. -/
inductive Handling (π ω : Type)
  | suspended (progress : π)
  | finished (result : ω)
  | raised
  deriving DecidableEq

/-- What a call of `publish` comes to. -/
inductive Fate
  | queued
  | refused
  | raised
  deriving DecidableEq, Repr

inductive Front
  | offered
  | refused
  | raised
  deriving DecidableEq, Repr

/-- The parts of a publisher and of its worker: what `publish` does before it offers an item to the
queue, when the queue takes or refuses it, and what the worker does with an item. -/
structure Service (α σ π ι ω : Type) where
  size : ℕ
  front : σ → α → Bool → σ × Front
  accept : σ → σ
  refuse : σ → α → Bool → Bool → σ × Bool
  begin : σ → α → ι → σ × Handling π ω
  resume : σ → α → π → ι → σ × Handling π ω
  closeFailed : σ → σ

inductive Worker (α π : Type)
  | absent
  | waiting
  | busy (item : α) (progress : π)
  | returned
  | raised
  deriving DecidableEq

/-- Where a call of `close` stands. -/
inductive Closing
  | notCalled
  | joining
  | joined
  | putting
  | awaiting
  | transport
  | returned
  | raised
  deriving DecidableEq, Repr

/-- The queue with the sentinel as `none`, and what has become of the items so far. -/
structure State (α σ π ω : Type) where
  memory : σ
  queue : List (Option α) := []
  unfinished : ℕ := 0
  worker : Worker α π := .absent
  closing : Closing := .notCalled
  closeFailures : ℕ := 0
  published : List (α × Fate) := []
  handed : List (α × ω) := []

inductive Action (α ι : Type)
  | start
  | publish (item : α) (returns : Bool)
  | take (input : ι)
  | resume (input : ι)
  | interrupt
  | close
  | proceed
  | transportClosed (returns : Bool)

variable {α σ π ι ω : Type}

def Worker.running : Worker α π → Bool
  | .waiting => true
  | .busy _ _ => true
  | _ => false

def Worker.isAbsent : Worker α π → Bool
  | .absent => true
  | _ => false

def Worker.busy? : Worker α π → Option (α × π)
  | .busy item progress => some (item, progress)
  | _ => none

namespace State

variable (sv : Service α σ π ι ω) (s : State α σ π ω)

def record (memory : σ) (item : α) (fate : Fate) : State α σ π ω :=
  { s with memory, published := s.published ++ [(item, fate)] }

def refuse (memory : σ) (item : α) (returns full : Bool) : State α σ π ω :=
  let (memory, passed) := sv.refuse memory item returns full
  s.record memory item (if passed then .refused else .raised)

/-- `put_nowait` of a running queue. -/
def offer (memory : σ) (item : α) (returns : Bool) : State α σ π ω :=
  if ¬ s.worker.running then s.refuse sv memory item returns false
  else if sv.size ≤ s.queue.length then s.refuse sv memory item returns true
  else
    { s.record (sv.accept memory) item .queued with
      queue := s.queue ++ [some item], unfinished := s.unfinished + 1 }

def publish (item : α) (returns : Bool) : State α σ π ω :=
  match sv.front s.memory item returns with
  | (memory, .refused) => s.record memory item .refused
  | (memory, .raised) => s.record memory item .raised
  | (memory, .offered) => s.offer sv memory item returns

/-- `task_done`, which wakes a waiting `join` after the last item. -/
def taskDone : State α σ π ω :=
  { s with
    unfinished := s.unfinished - 1,
    closing := if s.unfinished - 1 = 0 ∧ s.closing = .joining then .joined else s.closing }

def settle (item : α) : σ × Handling π ω → State α σ π ω
  | (memory, .suspended progress) => { s with memory, worker := .busy item progress }
  | (memory, .finished result) =>
    { s with memory, worker := .waiting, handed := s.handed ++ [(item, result)] }.taskDone
  | (memory, .raised) => { s with memory, worker := .raised }.taskDone

def take (input : ι) : State α σ π ω :=
  match s.worker, s.queue with
  | .waiting, none :: rest => { s with queue := rest, worker := .returned }.taskDone
  | .waiting, some item :: rest =>
    { s with queue := rest }.settle item (sv.begin s.memory item input)
  | _, _ => s

def resume (input : ι) : State α σ π ω :=
  match s.worker with
  | .busy item progress => s.settle item (sv.resume s.memory item progress input)
  | _ => s

def interrupt : State α σ π ω :=
  match s.worker with
  | .waiting => { s with worker := .raised }
  | .busy _ _ => { s with worker := .raised }.taskDone
  | _ => s

/-- `put(None)`, which waits for room in a full queue. -/
def putSentinel : State α σ π ω :=
  if sv.size ≤ s.queue.length then { s with closing := .putting }
  else
    { s with queue := s.queue ++ [none], unfinished := s.unfinished + 1, closing := .awaiting }

def close : State α σ π ω :=
  if s.closing ≠ .notCalled then s
  else if s.worker.isAbsent then { s with closing := .transport }
  else if s.unfinished = 0 then s.putSentinel sv
  else { s with closing := .joining }

def proceed : State α σ π ω :=
  match s.closing, s.worker with
  | .joined, _ => s.putSentinel sv
  | .putting, _ => s.putSentinel sv
  | .awaiting, .returned => { s with worker := .absent, closing := .transport }
  | .awaiting, .raised => { s with closing := .raised }
  | _, _ => s

def transportClosed (returns : Bool) : State α σ π ω :=
  if s.closing ≠ .transport then s
  else if returns then { s with closing := .returned }
  else
    { s with
      memory := sv.closeFailed s.memory, closing := .returned,
      closeFailures := s.closeFailures + 1 }

def start : State α σ π ω :=
  if s.closing = .notCalled ∧ s.worker.isAbsent then { s with worker := .waiting } else s

def step : Action α ι → State α σ π ω
  | .start => s.start
  | .publish item returns => s.publish sv item returns
  | .take input => s.take sv input
  | .resume input => s.resume sv input
  | .interrupt => s.interrupt
  | .close => s.close sv
  | .proceed => s.proceed sv
  | .transportClosed returns => s.transportClosed sv returns

def fated (fate : Fate) : List α := (s.published.filter (·.2 = fate)).map Prod.fst

/-- A call of `publish` that neither raises nor puts an item behind the sentinel. -/
def Admits (item : α) (returns : Bool) : Prop :=
  match sv.front s.memory item returns with
  | (_, .refused) => True
  | (_, .raised) => False
  | (memory, .offered) =>
    if ¬ s.worker.running then (sv.refuse memory item returns false).2 = true
    else if sv.size ≤ s.queue.length then (sv.refuse memory item returns true).2 = true
    else none ∉ s.queue

/-- A step in which nothing raises, and no item is put behind the sentinel. -/
def Orderly : Action α ι → Prop
  | .publish item returns => s.Admits sv item returns
  | .take input =>
    ∀ item rest, s.queue = some item :: rest → (sv.begin s.memory item input).2 ≠ .raised
  | .resume input =>
    ∀ item progress, s.worker = .busy item progress →
      (sv.resume s.memory item progress input).2 ≠ .raised
  | .interrupt => False
  | _ => True

variable {s}

@[simp] theorem fated_record (memory : σ) (item : α) (fate fate' : Fate) :
    (s.record memory item fate).fated fate' =
      s.fated fate' ++ if fate = fate' then [item] else [] := by
  unfold fated record
  rw [List.filter_append, List.map_append]
  by_cases h : fate = fate'
  · simp [h]
  · simp [h]

@[simp] theorem taskDone_queue : s.taskDone.queue = s.queue := rfl
@[simp] theorem taskDone_worker : s.taskDone.worker = s.worker := rfl
@[simp] theorem taskDone_memory : s.taskDone.memory = s.memory := rfl
@[simp] theorem taskDone_handed : s.taskDone.handed = s.handed := rfl
@[simp] theorem taskDone_published : s.taskDone.published = s.published := rfl
@[simp] theorem taskDone_closeFailures : s.taskDone.closeFailures = s.closeFailures := rfl
@[simp] theorem taskDone_fated (fate : Fate) : s.taskDone.fated fate = s.fated fate := rfl

theorem taskDone_closing : s.taskDone.closing = s.closing ∨
    (s.closing = .joining ∧ s.taskDone.closing = .joined) := by
  unfold taskDone
  simp only
  split_ifs with h
  · exact .inr ⟨h.2, rfl⟩
  · exact .inl rfl

structure Inv (s : State α σ π ω) : Prop where
  conserved : s.fated .queued =
    s.handed.map Prod.fst ++ (s.worker.busy?.map Prod.fst).toList ++ s.queue.reduceOption
  counted : s.fated .raised = []
  alive : s.worker ≠ .raised
  sentinel : none ∈ s.queue → s.closing = .awaiting ∧ ∃ items : List α, s.queue = items.map some ++ [none]
  returned : s.worker = .returned → s.queue = [] ∧ s.closing = .awaiting
  absent : s.worker = .absent →
    s.queue = [] ∧ (s.closing = .notCalled ∨ s.closing = .transport ∨ s.closing = .returned)
  closed : s.closing = .transport ∨ s.closing = .returned → s.worker = .absent

theorem inv_init (memory : σ) : Inv ({ memory } : State α σ π ω) := by
  refine ⟨rfl, rfl, ?_, ?_, ?_, ?_, ?_⟩
  · simp
  · simp
  · simp
  · simp
  · simp

theorem Inv.taskDone (h : Inv s) : Inv s.taskDone := by
  obtain ⟨hconserved, hcounted, halive, hsentinel, hreturned, habsent, hclosed⟩ := h
  rcases taskDone_closing (s := s) with hsame | ⟨hjoining, hjoined⟩
  · refine ⟨hconserved, hcounted, halive, ?_, ?_, ?_, ?_⟩
    · rw [hsame]
      exact hsentinel
    · rw [hsame]
      exact hreturned
    · rw [hsame]
      exact habsent
    · rw [hsame]
      exact hclosed
  · refine ⟨hconserved, hcounted, halive, fun hnone => ?_, fun hworker => ?_, fun hworker => ?_, ?_⟩
    · have := (hsentinel hnone).1
      rw [hjoining] at this
      cases this
    · have := (hreturned hworker).2
      rw [hjoining] at this
      cases this
    · have := (habsent hworker).2
      rw [hjoining] at this
      rcases this with h | h | h <;> cases h
    · rw [hjoined]
      rintro (h | h) <;> cases h

theorem Inv.record (h : Inv s) (memory : σ) (item : α) : Inv (s.record memory item .refused) := by
  refine ⟨?_, ?_, h.alive, h.sentinel, h.returned, h.absent, h.closed⟩
  · rw [fated_record, if_neg (by decide), List.append_nil]
    exact h.conserved
  · rw [fated_record, if_neg (by decide), List.append_nil]
    exact h.counted

theorem Inv.refuse (h : Inv s) {memory : σ} {item : α} {returns full : Bool}
    (hpassed : (sv.refuse memory item returns full).2 = true) :
    Inv (s.refuse sv memory item returns full) := by
  unfold State.refuse
  simp only [hpassed, if_true]
  exact h.record _ item

theorem isAbsent_iff {worker : Worker α π} : worker.isAbsent = true ↔ worker = .absent := by
  cases worker <;> simp [Worker.isAbsent]

theorem running_of_ne {worker : Worker α π} (h : worker.running = true) :
    worker ≠ .absent ∧ worker ≠ .returned ∧ worker ≠ .raised := by
  cases worker <;> simp_all [Worker.running]

theorem Inv.publish (h : Inv s) {item : α} {returns : Bool} (hadmits : s.Admits sv item returns) :
    Inv (s.publish sv item returns) := by
  unfold Admits at hadmits
  unfold State.publish
  split at hadmits
  · exact h.record _ item
  · cases hadmits
  · simp only [State.offer]
    split at hadmits
    · rename_i hstopped
      rw [if_pos hstopped]
      exact h.refuse sv hadmits
    split at hadmits
    · rename_i hrunning hfull
      rw [if_neg hrunning, if_pos hfull]
      exact h.refuse sv hadmits
    · rename_i hrunning hroom
      rw [if_neg hrunning, if_neg hroom]
      obtain ⟨habsent, hreturned, -⟩ := running_of_ne (not_not.mp hrunning)
      refine ⟨?_, ?_, h.alive, fun hnone => ?_, fun hworker => absurd hworker hreturned,
        fun hworker => absurd hworker habsent, h.closed⟩
      · have hqueued : s.fated .queued ++ [item] = s.handed.map Prod.fst ++
            (s.worker.busy?.map Prod.fst).toList ++ (s.queue ++ [some item]).reduceOption := by
          rw [h.conserved, List.reduceOption_append, List.append_assoc]
          rfl
        have hfated := fated_record (s := s) (sv.accept ‹σ›) item .queued .queued
        rw [if_pos rfl] at hfated
        exact hfated.trans hqueued
      · have hfated := fated_record (s := s) (sv.accept ‹σ›) item .queued .raised
        rw [if_neg (by decide), List.append_nil, h.counted] at hfated
        exact hfated
      · rcases List.mem_append.mp hnone with hold | hnew
        · exact absurd hold hadmits
        · simp at hnew

structure Holds (s : State α σ π ω) (item : α) : Prop where
  conserved : s.fated .queued = s.handed.map Prod.fst ++ [item] ++ s.queue.reduceOption
  counted : s.fated .raised = []
  sentinel : none ∈ s.queue → s.closing = .awaiting ∧ ∃ items : List α, s.queue = items.map some ++ [none]
  closed : ¬ (s.closing = .transport ∨ s.closing = .returned)

theorem Holds.settle {item : α} {handling : σ × Handling π ω} (h : Holds s item)
    (hraised : handling.2 ≠ .raised) : Inv (s.settle item handling) := by
  obtain ⟨memory, handling⟩ := handling
  cases handling with
  | suspended progress =>
    exact ⟨h.conserved, h.counted, by simp [State.settle], h.sentinel, by simp [State.settle],
      by simp [State.settle], fun hclosed => absurd hclosed h.closed⟩
  | finished result =>
    apply Inv.taskDone
    refine ⟨?_, h.counted, by simp, h.sentinel, by simp, by simp, fun hclosed => absurd hclosed h.closed⟩
    rw [List.map_append]
    exact (congrArg (· ++ _) (List.append_nil _)).symm ▸ h.conserved
  | raised => exact absurd rfl hraised

theorem Inv.holds_of_busy (h : Inv s) {item : α} {progress : π}
    (hworker : s.worker = .busy item progress) : Holds s item := by
  refine ⟨?_, h.counted, h.sentinel, fun hclosed => ?_⟩
  · have := h.conserved
    rw [hworker] at this
    exact this
  · have := h.closed hclosed
    rw [hworker] at this
    cases this

theorem Inv.holds_of_waiting (h : Inv s) (hworker : s.worker = .waiting) {item : α}
    {rest : List (Option α)} (hqueue : s.queue = some item :: rest) :
    Holds { s with queue := rest } item := by
  refine ⟨?_, h.counted, fun hnone => ?_, fun hclosed => ?_⟩
  · have := h.conserved
    rw [hworker, hqueue, List.reduceOption_cons_of_some] at this
    refine this.trans ?_
    simp [Worker.busy?]
  · obtain ⟨hclosing, items, hitems⟩ := h.sentinel (by rw [hqueue]; exact List.mem_cons_of_mem _ hnone)
    refine ⟨hclosing, ?_⟩
    rw [hqueue] at hitems
    cases items with
    | nil => cases hitems
    | cons first items => exact ⟨items, (List.cons.inj hitems).2⟩
  · have := h.closed hclosed
    rw [hworker] at this
    cases this

theorem Inv.take (h : Inv s) {input : ι}
    (hraised : ∀ item rest, s.queue = some item :: rest →
      (sv.begin s.memory item input).2 ≠ .raised) : Inv (s.take sv input) := by
  unfold State.take
  split
  · rename_i rest hworker hqueue
    -- behind the sentinel there is nothing
    obtain ⟨hclosing, items, hitems⟩ := h.sentinel (by rw [hqueue]; exact List.mem_cons_self)
    rw [hqueue] at hitems
    cases items with
    | cons first items => cases hitems
    | nil =>
      obtain rfl : rest = [] := (List.cons.inj hitems).2
      apply Inv.taskDone
      refine ⟨?_, h.counted, by simp, by simp, fun _ => ⟨rfl, hclosing⟩, by simp, ?_⟩
      · have := h.conserved
        rw [hworker, hqueue] at this
        exact this
      · intro hclosed
        have := h.closed hclosed
        rw [hworker] at this
        cases this
  · rename_i item rest hworker hqueue
    exact (h.holds_of_waiting hworker hqueue).settle (hraised item rest hqueue)
  · exact h

theorem Inv.resume (h : Inv s) {input : ι}
    (hraised : ∀ item progress, s.worker = .busy item progress →
      (sv.resume s.memory item progress input).2 ≠ .raised) : Inv (s.resume sv input) := by
  unfold State.resume
  split
  · rename_i item progress hworker
    exact (h.holds_of_busy hworker).settle (hraised item progress hworker)
  · exact h

theorem eq_map_some {queue : List (Option α)} (h : none ∉ queue) :
    queue = queue.reduceOption.map some := by
  induction queue with
  | nil => rfl
  | cons entry rest ih =>
    cases entry with
    | none => exact absurd List.mem_cons_self h
    | some item =>
      rw [List.reduceOption_cons_of_some, List.map_cons]
      exact congrArg _ (ih fun hnone => h (List.mem_cons_of_mem _ hnone))

theorem Inv.putSentinel (h : Inv s) (habsent : s.worker ≠ .absent) (hclosing : s.closing ≠ .awaiting) :
    Inv (s.putSentinel sv) := by
  have hnone : none ∉ s.queue := fun hnone => hclosing (h.sentinel hnone).1
  unfold State.putSentinel
  split
  · refine ⟨h.conserved, h.counted, h.alive, fun hmem => absurd hmem hnone,
      fun hworker => absurd (h.returned hworker).2 hclosing,
      fun hworker => absurd hworker habsent, by simp⟩
  · refine ⟨?_, h.counted, h.alive, fun _ => ⟨rfl, s.queue.reduceOption, ?_⟩,
      fun hworker => absurd (h.returned hworker).2 hclosing,
      fun hworker => absurd hworker habsent, by simp⟩
    · rw [List.reduceOption_append]
      exact h.conserved.trans (congrArg _ (List.append_nil _).symm)
    · rw [← eq_map_some hnone]

theorem Inv.close (h : Inv s) : Inv (s.close sv) := by
  unfold State.close
  split
  · exact h
  · rename_i hcalled
    rw [not_not] at hcalled
    split
    · rename_i hworker
      rw [isAbsent_iff] at hworker
      have hempty := (h.absent hworker).1
      refine ⟨h.conserved, h.counted, h.alive, fun hnone => ?_, fun hreturned => ?_,
        fun _ => ⟨hempty, .inr (.inl rfl)⟩, fun _ => hworker⟩
      · rw [hempty] at hnone
        cases hnone
      · rw [hworker] at hreturned
        cases hreturned
    · rename_i hworker
      rw [isAbsent_iff] at hworker
      split
      · exact h.putSentinel sv hworker (by simp [hcalled])
      · refine ⟨h.conserved, h.counted, h.alive, fun hnone => ?_, fun hreturned => ?_,
          fun habsent => absurd habsent hworker, by simp⟩
        · have := (h.sentinel hnone).1
          rw [hcalled] at this
          cases this
        · have := (h.returned hreturned).2
          rw [hcalled] at this
          cases this

theorem Inv.proceed (h : Inv s) : Inv (s.proceed sv) := by
  unfold State.proceed
  have hworker : s.closing = .joined ∨ s.closing = .putting → s.worker ≠ .absent := by
    intro hclosing habsent
    have := (h.absent habsent).2
    rcases hclosing with hclosing | hclosing <;> rw [hclosing] at this <;> simp at this
  split
  · rename_i hclosing
    exact h.putSentinel sv (hworker (.inl hclosing)) (by simp [hclosing])
  · rename_i hclosing
    exact h.putSentinel sv (hworker (.inr hclosing)) (by simp [hclosing])
  · rename_i hclosing hreturned
    have hempty := (h.returned hreturned).1
    refine ⟨?_, h.counted, by simp, fun hnone => ?_, by simp, fun _ => ⟨hempty, .inr (.inl rfl)⟩,
      fun _ => rfl⟩
    · have := h.conserved
      rw [hreturned] at this
      exact this
    · rw [hempty] at hnone
      cases hnone
  · rename_i hclosing hraised
    exact absurd hraised h.alive
  · exact h

theorem Inv.transportClosed (h : Inv s) (returns : Bool) : Inv (s.transportClosed sv returns) := by
  unfold State.transportClosed
  split
  · exact h
  · rename_i hclosing
    rw [not_not] at hclosing
    have hworker := h.closed (.inl hclosing)
    have hempty := (h.absent hworker).1
    have hdone : ∀ (memory : σ) (failures : ℕ), Inv
        { s with memory := memory, closing := .returned, closeFailures := failures } := by
      intro memory failures
      refine ⟨h.conserved, h.counted, h.alive, fun hnone => ?_, fun hreturned => ?_,
        fun _ => ⟨hempty, .inr (.inr rfl)⟩, fun _ => hworker⟩
      · rw [hempty] at hnone
        cases hnone
      · rw [hworker] at hreturned
        cases hreturned
    split
    · exact hdone s.memory s.closeFailures
    · exact hdone (sv.closeFailed s.memory) (s.closeFailures + 1)

theorem Inv.start (h : Inv s) : Inv s.start := by
  unfold State.start
  split
  · rename_i hstart
    obtain ⟨hclosing, hworker⟩ := hstart
    rw [isAbsent_iff] at hworker
    have hempty := (h.absent hworker).1
    refine ⟨?_, h.counted, by simp, fun hnone => ?_, by simp, by simp, fun hclosed => ?_⟩
    · have := h.conserved
      rw [hworker] at this
      exact this
    · rw [hempty] at hnone
      cases hnone
    · simp only at hclosed
      rw [hclosing] at hclosed
      rcases hclosed with h | h <;> cases h
  · exact h

theorem Inv.step (h : Inv s) {action : Action α ι} (horderly : s.Orderly sv action) :
    Inv (s.step sv action) := by
  cases action with
  | start => exact h.start
  | publish item returns => exact h.publish sv horderly
  | take input => exact h.take sv horderly
  | resume input => exact h.resume sv horderly
  | interrupt => cases horderly
  | close => exact h.close sv
  | proceed => exact h.proceed sv
  | transportClosed returns => exact h.transportClosed sv returns

theorem inv_run (memory : σ) {actions : List (Action α ι)}
    (h : Run.Guarded (step sv) (Orderly sv) { memory } actions) :
    Inv (Run.run (step sv) { memory } actions) :=
  Run.run_invariant_of_guarded Inv (fun _ _ hs horderly => hs.step sv horderly) (inv_init memory) h

/-- What publishing comes to: every call has been queued or refused, the queued items are handed on
in their order, and all of them when `close` returns. -/
structure HandsOn (s : State α σ π ω) : Prop where
  order : s.fated .queued =
    s.handed.map Prod.fst ++ (s.worker.busy?.map Prod.fst).toList ++ s.queue.reduceOption
  counted : s.fated .raised = []
  closed : s.closing = .returned → s.fated .queued = s.handed.map Prod.fst

theorem Inv.handsOn (h : Inv s) : HandsOn s := by
  refine ⟨h.conserved, h.counted, fun hclosed => ?_⟩
  have hworker := h.closed (.inr hclosed)
  rw [h.conserved, hworker, (h.absent hworker).1]
  simp [Worker.busy?]

theorem handsOn_run (memory : σ) {actions : List (Action α ι)}
    (h : Run.Guarded (step sv) (Orderly sv) { memory } actions) :
    HandsOn (Run.run (step sv) { memory } actions) := (inv_run sv memory h).handsOn

abbrev Tally (α σ π ω : Type) :=
  σ → List (α × Fate) → List (α × ω) → Option (α × π) → ℕ → Prop

def Settled (tally : Tally α σ π ω) (published : List (α × Fate)) (handed : List (α × ω))
    (failures : ℕ) (item : α) : σ × Handling π ω → Prop
  | (memory, .suspended progress) => tally memory published handed (some (item, progress)) failures
  | (memory, .finished result) => tally memory published (handed ++ [(item, result)]) none failures
  | (_, .raised) => True

structure Keeps (sv : Service α σ π ι ω) (tally : Tally α σ π ω) : Prop where
  passed : ∀ {memory memory' published handed work failures item returns},
    tally memory published handed work failures →
    sv.front memory item returns = (memory', .refused) →
    tally memory' (published ++ [(item, .refused)]) handed work failures
  accepted : ∀ {memory memory' published handed work failures item returns},
    tally memory published handed work failures →
    sv.front memory item returns = (memory', .offered) →
    tally (sv.accept memory') (published ++ [(item, .queued)]) handed work failures
  refused : ∀ {memory memory' memory'' published handed work failures item returns full},
    tally memory published handed work failures →
    sv.front memory item returns = (memory', .offered) →
    sv.refuse memory' item returns full = (memory'', true) →
    tally memory'' (published ++ [(item, .refused)]) handed work failures
  began : ∀ {memory published handed failures} item input,
    tally memory published handed none failures →
    Settled tally published handed failures item (sv.begin memory item input)
  resumed : ∀ {memory published handed failures} item progress input,
    tally memory published handed (some (item, progress)) failures →
    Settled tally published handed failures item (sv.resume memory item progress input)
  closeFailed : ∀ {memory published handed work failures},
    tally memory published handed work failures →
    tally (sv.closeFailed memory) published handed work (failures + 1)

def Tallies (tally : Tally α σ π ω) (s : State α σ π ω) : Prop :=
  tally s.memory s.published s.handed s.worker.busy? s.closeFailures

variable {sv} {tally : Tally α σ π ω}

theorem tallies_settle {item : α} {handling : σ × Handling π ω}
    (hsettled : Settled tally s.published s.handed s.closeFailures item handling)
    (hraised : handling.2 ≠ .raised) : Tallies tally (s.settle item handling) := by
  obtain ⟨memory, handling⟩ := handling
  cases handling with
  | suspended progress => exact hsettled
  | finished result => exact hsettled
  | raised => exact absurd rfl hraised

theorem Tallies.publish (hkeeps : Keeps sv tally) (h : Tallies tally s) {item : α} {returns : Bool}
    (hadmits : s.Admits sv item returns) : Tallies tally (s.publish sv item returns) := by
  unfold Admits at hadmits
  unfold State.publish
  split at hadmits
  · rename_i memory hfront
    exact hkeeps.passed h hfront
  · cases hadmits
  · rename_i memory hfront
    simp only [State.offer]
    have hrefuse : ∀ full, (sv.refuse memory item returns full).2 = true →
        Tallies tally (s.refuse sv memory item returns full) := by
      intro full hpassed
      unfold State.refuse
      simp only [hpassed, if_true]
      exact hkeeps.refused h hfront (Prod.ext rfl hpassed)
    split at hadmits
    · rename_i hstopped
      rw [if_pos hstopped]
      exact hrefuse false hadmits
    split at hadmits
    · rename_i hrunning hfull
      rw [if_neg hrunning, if_pos hfull]
      exact hrefuse true hadmits
    · rename_i hrunning hroom
      rw [if_neg hrunning, if_neg hroom]
      exact hkeeps.accepted h hfront

theorem Tallies.take (hkeeps : Keeps sv tally) (h : Tallies tally s) {input : ι}
    (hraised : ∀ item rest, s.queue = some item :: rest →
      (sv.begin s.memory item input).2 ≠ .raised) : Tallies tally (s.take sv input) := by
  unfold State.take
  split
  · rename_i rest hworker hqueue
    unfold Tallies at h
    rw [hworker] at h
    exact h
  · rename_i item rest hworker hqueue
    have hnone : tally s.memory s.published s.handed none s.closeFailures := by
      unfold Tallies at h
      rwa [hworker] at h
    exact tallies_settle (hkeeps.began item input hnone) (hraised item rest hqueue)
  · exact h

theorem Tallies.resume (hkeeps : Keeps sv tally) (h : Tallies tally s) {input : ι}
    (hraised : ∀ item progress, s.worker = .busy item progress →
      (sv.resume s.memory item progress input).2 ≠ .raised) : Tallies tally (s.resume sv input) := by
  unfold State.resume
  split
  · rename_i item progress hworker
    have hbusy : tally s.memory s.published s.handed (some (item, progress)) s.closeFailures := by
      unfold Tallies at h
      rwa [hworker] at h
    exact tallies_settle (hkeeps.resumed item progress input hbusy) (hraised item progress hworker)
  · exact h

theorem Tallies.step (hkeeps : Keeps sv tally) (h : Tallies tally s) {action : Action α ι}
    (horderly : s.Orderly sv action) : Tallies tally (s.step sv action) := by
  have hsentinel : Tallies tally (s.putSentinel sv) := by
    unfold State.putSentinel
    split <;> exact h
  cases action with
  | start =>
    simp only [State.step, State.start]
    split
    · rename_i hstart
      unfold Tallies at h ⊢
      rwa [isAbsent_iff.mp hstart.2] at h
    · exact h
  | publish item returns => exact h.publish hkeeps horderly
  | take input => exact h.take hkeeps horderly
  | resume input => exact h.resume hkeeps horderly
  | interrupt => cases horderly
  | close =>
    simp only [State.step, State.close]
    split_ifs
    · exact h
    · exact h
    · exact hsentinel
    · exact h
  | proceed =>
    simp only [State.step, State.proceed]
    split
    · exact hsentinel
    · exact hsentinel
    · rename_i hworker
      unfold Tallies at h ⊢
      rwa [hworker] at h
    · exact h
    · exact h
  | transportClosed returns =>
    simp only [State.step, State.transportClosed]
    split_ifs
    · exact h
    · exact h
    · exact hkeeps.closeFailed h

theorem tallies_run (hkeeps : Keeps sv tally) {memory : σ} (hinit : tally memory [] [] none 0)
    {actions : List (Action α ι)}
    (h : Run.Guarded (State.step sv) (Orderly sv) { memory } actions) :
    Tallies tally (Run.run (State.step sv) { memory } actions) :=
  Run.run_invariant_of_guarded (Tallies tally) (fun _ _ hs horderly => hs.step hkeeps horderly)
    hinit h

end State

end ChainQuantStudio.QueueWorker
