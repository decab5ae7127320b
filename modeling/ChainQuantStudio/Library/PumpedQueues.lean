import ChainQuantStudio.Library.Run
import Mathlib.Data.List.Nodup
import Mathlib.Logic.Function.Basic
import Mathlib.Tactic.SplitIfs

/-!
# One source pumped into bounded queues

A pump asks a source for its next event and puts the event into the queue it is routed to; an event
that no queue is for is dropped. When the source ends, or raises, a termination follows in every
queue. A full queue holds the pump up. The order of the steps and the answers of the source are
inputs.
-/

namespace ChainQuantStudio.PumpedQueues

inductive Item (ε E : Type*)
  | event (event : ε)
  | termination (error : Option E)
  deriving DecidableEq, Repr

inductive Pump (κ ε E : Type*)
  | iterating
  | putting (key : κ) (event : ε)
  | terminating (error : Option E) (remaining : List κ)
  deriving DecidableEq, Repr

inductive Answer (ε E : Type*)
  | event (event : ε)
  | raised (error : E)
  | exhausted
  deriving DecidableEq, Repr

structure Routing (κ ε : Type*) where
  size : ℕ
  keys : List κ
  route : ε → Option κ
  size_pos : 0 < size
  nodup : keys.Nodup
  route_mem : ∀ event key, route event = some key → key ∈ keys

structure Feed (κ ε E : Type*) where
  pump : Pump κ ε E := .iterating
  queues : κ → List (Item ε E) := fun _ => []
  taken : κ → List (Item ε E) := fun _ => []
  yielded : List ε := []

def eventsOf {ε E : Type*} (items : List (Item ε E)) : List ε :=
  items.filterMap fun
    | .event event => some event
    | .termination _ => none

variable {κ ε E : Type*} [DecidableEq κ]

@[simp] theorem eventsOf_append (items others : List (Item ε E)) :
    eventsOf (items ++ others) = eventsOf items ++ eventsOf others :=
  List.filterMap_append

@[simp] theorem eventsOf_map (events : List ε) :
    eventsOf (events.map (Item.event : ε → Item ε E)) = events := by
  simp [eventsOf, List.filterMap_map]

namespace Feed

variable (routing : Routing κ ε) (feed : Feed κ ε E)

def put (key : κ) (item : Item ε E) : Feed κ ε E :=
  { feed with queues := Function.update feed.queues key (feed.queues key ++ [item]) }

def answered (answer : Answer ε E) : Feed κ ε E :=
  match feed.pump, answer with
  | .iterating, .event event =>
    match routing.route event with
    | some key => { feed with pump := .putting key event, yielded := feed.yielded ++ [event] }
    | none => { feed with yielded := feed.yielded ++ [event] }
  | .iterating, .raised error => { feed with pump := .terminating (some error) routing.keys }
  | .iterating, .exhausted => { feed with pump := .terminating none routing.keys }
  | _, _ => feed

def enqueue : Feed κ ε E :=
  match feed.pump with
  | .putting key event =>
    if (feed.queues key).length < routing.size then
      { feed.put key (.event event) with pump := .iterating }
    else feed
  | .terminating error (key :: remaining) =>
    if (feed.queues key).length < routing.size then
      { feed.put key (.termination error) with pump := .terminating error remaining }
    else feed
  | _ => feed

def take (key : κ) : Option (Item ε E × Feed κ ε E) :=
  match feed.queues key with
  | [] => none
  | item :: rest =>
    some (item,
      { feed with
        queues := Function.update feed.queues key rest
        taken := Function.update feed.taken key (feed.taken key ++ [item]) })

def routed (key : κ) : List ε := feed.yielded.filter fun event => routing.route event = some key

def inHand (key : κ) : List ε :=
  match feed.pump with
  | .putting other event => if other = key then [event] else []
  | _ => []

def closing (key : κ) : List (Item ε E) :=
  match feed.pump with
  | .terminating error remaining =>
    if key ∈ routing.keys ∧ key ∉ remaining then [.termination error] else []
  | _ => []

structure Inv : Prop where
  handed : ∀ key, ∃ events, feed.routed routing key = events ++ feed.inHand key ∧
    feed.taken key ++ feed.queues key = events.map .event ++ feed.closing routing key
  bounded : ∀ key, (feed.queues key).length ≤ routing.size
  remaining : ∀ error rest, feed.pump = .terminating error rest → rest <:+ routing.keys

variable {routing feed}

@[simp] theorem put_yielded (key : κ) (item : Item ε E) :
    (feed.put key item).yielded = feed.yielded := rfl

@[simp] theorem put_taken (key : κ) (item : Item ε E) : (feed.put key item).taken = feed.taken := rfl

omit [DecidableEq κ] in
theorem answered_taken (answer : Answer ε E) :
    (feed.answered routing answer).taken = feed.taken := by
  unfold Feed.answered
  split
  · split <;> rfl
  all_goals rfl

theorem enqueue_taken : (feed.enqueue routing).taken = feed.taken := by
  unfold Feed.enqueue
  split
  · split_ifs <;> rfl
  · split_ifs <;> rfl
  · rfl

theorem inv_start : ({} : Feed κ ε E).Inv routing where
  handed key := ⟨[], by simp [routed, inHand], by simp [closing]⟩
  bounded key := Nat.zero_le _
  remaining error rest h := by cases h

theorem Inv.answered (h : feed.Inv routing) (answer : Answer ε E) :
    (feed.answered routing answer).Inv routing := by
  unfold Feed.answered
  split
  · rename_i event hpump
    have hhanded : ∀ key, ∃ events, feed.routed routing key = events ∧
        feed.taken key ++ feed.queues key = events.map .event := by
      intro key
      obtain ⟨events, hrouted, hitems⟩ := h.handed key
      refine ⟨events, by simpa [inHand, hpump] using hrouted, by simpa [closing, hpump] using hitems⟩
    split
    · rename_i key hroute
      refine ⟨fun other => ?_, h.bounded, fun _ _ hterm => by cases hterm⟩
      obtain ⟨events, hrouted, hitems⟩ := hhanded other
      refine ⟨events, ?_, by simpa [closing] using hitems⟩
      have hrouted' : feed.yielded.filter (fun event => routing.route event = some other) =
          events := hrouted
      by_cases hkey : key = other
      · subst hkey
        simp [routed, inHand, hrouted', hroute]
      · have hne : routing.route event ≠ some other := by
          rw [hroute]
          exact fun heq => hkey (Option.some.inj heq)
        simp [routed, inHand, hrouted', hne, hkey]
    · rename_i hroute
      refine ⟨fun other => ?_, h.bounded, fun error rest hterm => h.remaining error rest hterm⟩
      obtain ⟨events, hrouted, hitems⟩ := hhanded other
      have hrouted' : feed.yielded.filter (fun event => routing.route event = some other) =
          events := hrouted
      refine ⟨events, ?_, by simpa [closing, hpump] using hitems⟩
      simp [routed, inHand, hpump, hrouted', hroute]
  all_goals try exact h
  all_goals
    rename_i hpump
    refine ⟨fun key => ?_, h.bounded, fun _ rest hterm => ?_⟩
    · obtain ⟨events, hrouted, hitems⟩ := h.handed key
      refine ⟨events, by simpa [routed, inHand, hpump] using hrouted, ?_⟩
      simpa [closing, hpump] using hitems
    · cases hterm
      exact List.suffix_rfl

theorem length_put_le {key : κ} {item : Item ε E} {size : ℕ}
    (hroom : (feed.queues key).length < size) (hbounded : ∀ key, (feed.queues key).length ≤ size)
    (other : κ) : ((feed.put key item).queues other).length ≤ size := by
  by_cases hkey : other = key
  · subst hkey
    simp only [put, Function.update_self, List.length_append, List.length_singleton]
    exact hroom
  · simpa [put, hkey] using hbounded other

theorem Inv.enqueue (h : feed.Inv routing) : (feed.enqueue routing).Inv routing := by
  unfold Feed.enqueue
  split
  · rename_i key event hpump
    split_ifs with hroom
    · refine ⟨fun other => ?_, length_put_le hroom h.bounded, fun _ _ hterm => by cases hterm⟩
      obtain ⟨events, hrouted, hitems⟩ := h.handed other
      simp only [closing, hpump, List.append_nil] at hitems
      by_cases hkey : key = other
      · subst hkey
        refine ⟨events ++ [event], ?_, ?_⟩
        · simpa [routed, inHand, hpump] using hrouted
        · simp [put, closing, ← List.append_assoc, hitems]
      · refine ⟨events, ?_, ?_⟩
        · simpa [routed, inHand, hpump, hkey] using hrouted
        · simpa [put, closing, Ne.symm hkey] using hitems
    · exact h
  · rename_i error key remaining hpump
    split_ifs with hroom
    · have hsuffix := h.remaining _ _ hpump
      have hnodup : (key :: remaining).Nodup := routing.nodup.sublist hsuffix.sublist
      have hmem : key ∈ routing.keys := hsuffix.subset (by simp)
      have hnot : key ∉ remaining := (List.nodup_cons.mp hnodup).1
      refine ⟨fun other => ?_, length_put_le hroom h.bounded, fun _ rest hterm => ?_⟩
      · obtain ⟨events, hrouted, hitems⟩ := h.handed other
        refine ⟨events, by simpa [routed, inHand, hpump] using hrouted, ?_⟩
        by_cases hkey : other = key
        · subst hkey
          simp only [closing, hpump, List.mem_cons, true_or, not_true_eq_false, and_false,
            if_false, List.append_nil] at hitems
          simp [put, closing, ← List.append_assoc, hitems, hmem, hnot]
        · simpa [put, closing, hpump, hkey] using hitems
      · cases hterm
        exact (List.suffix_cons key remaining).trans hsuffix
    · exact h
  · exact h

theorem take_eq_some {key : κ} {item : Item ε E} {after : Feed κ ε E}
    (h : feed.take key = some (item, after)) :
    ∃ rest, feed.queues key = item :: rest ∧
      after = { feed with
        queues := Function.update feed.queues key rest
        taken := Function.update feed.taken key (feed.taken key ++ [item]) } := by
  unfold take at h
  split at h
  · cases h
  · rename_i item' rest hqueue
    simp only [Option.some.injEq, Prod.mk.injEq] at h
    obtain ⟨rfl, rfl⟩ := h
    exact ⟨rest, hqueue, rfl⟩

theorem Inv.take (h : feed.Inv routing) {key : κ} {item : Item ε E} {after : Feed κ ε E}
    (htake : feed.take key = some (item, after)) : after.Inv routing := by
  obtain ⟨rest, hqueue, rfl⟩ := take_eq_some htake
  refine ⟨fun other => ?_, fun other => ?_, h.remaining⟩
  · obtain ⟨events, hrouted, hitems⟩ := h.handed other
    refine ⟨events, hrouted, ?_⟩
    by_cases hkey : other = key
    · subst hkey
      rw [hqueue] at hitems
      simpa [closing] using hitems
    · simpa [closing, hkey] using hitems
  · by_cases hkey : other = key
    · subst hkey
      have hlength := h.bounded other
      rw [hqueue, List.length_cons] at hlength
      simpa using by omega
    · simpa [hkey] using h.bounded other

theorem Inv.taken_isPrefix (h : feed.Inv routing) (key : κ) :
    eventsOf (feed.taken key) <+: feed.routed routing key := by
  obtain ⟨events, hrouted, hitems⟩ := h.handed key
  have hclosing : eventsOf (feed.closing routing key) = [] := by
    unfold closing
    split
    · split_ifs <;> rfl
    · rfl
  have hevents := congrArg eventsOf hitems
  rw [eventsOf_append, eventsOf_append, eventsOf_map, hclosing, List.append_nil] at hevents
  rw [hrouted]
  have hinitial : eventsOf (feed.taken key) <+: events := hevents ▸ List.prefix_append _ _
  exact hinitial.trans (List.prefix_append _ _)

theorem Inv.routed_of_termination (h : feed.Inv routing) {key : κ} {error : Option E}
    {after : Feed κ ε E} (htake : feed.take key = some (.termination error, after)) :
    feed.routed routing key = eventsOf (feed.taken key) ∧
      ∃ remaining, feed.pump = .terminating error remaining := by
  obtain ⟨rest, hqueue, -⟩ := take_eq_some htake
  obtain ⟨events, hrouted, hitems⟩ := h.handed key
  rw [hqueue] at hitems
  have hmem : Item.termination error ∈ events.map Item.event ++ feed.closing routing key := by
    rw [← hitems]
    simp
  have hclosing : Item.termination error ∈ feed.closing routing key := by
    simpa using hmem
  unfold closing at hclosing hitems
  split at hclosing
  · rename_i ended remaining hpump
    simp only [hpump] at hitems
    split_ifs at hclosing hitems with hkey
    · obtain rfl : error = ended := by simpa using hclosing
      refine ⟨?_, remaining, hpump⟩
      have hrest : rest = [] := by
        have hdrop := congrArg List.dropLast hitems
        rw [List.dropLast_append_of_ne_nil (List.cons_ne_nil _ _), List.dropLast_concat] at hdrop
        by_contra hne
        rw [List.dropLast_cons_of_ne_nil hne] at hdrop
        have hin : Item.termination error ∈ events.map (Item.event : ε → Item ε E) := by
          rw [← hdrop]
          simp
        simp at hin
      subst hrest
      have hsplit := List.append_inj' hitems rfl
      rw [hrouted, hsplit.1, eventsOf_map]
      simp only [inHand, hpump, List.append_nil]
    · simp at hclosing
  · simp at hclosing

end Feed

end ChainQuantStudio.PumpedQueues
