import ChainQuantStudio.Library.BoundedDeque
import ChainQuantStudio.Library.Dict
import ChainQuantStudio.State.DepthSupervisor

/-!
# Signal cooldown and repeated occurrences

`SignalDeduplicator` forgets the signals whose cooldown is over before it looks for the one that a
new signal repeats.
-/

namespace ChainQuantStudio.Signals

open BoundedDeque Data State.Supervisor

structure Signal where
  strategyName : String
  strategyVersion : String
  canonicalSymbol : String
  occurredAt : Instant
  fingerprint : String
  deriving DecidableEq, Repr

abbrev OccurrenceKey := String × String × String × String × Instant

instance : LawfulBEq OccurrenceKey := inferInstance

def Signal.occurrenceKey (signal : Signal) : OccurrenceKey :=
  (signal.strategyName, signal.strategyVersion, signal.canonicalSymbol, signal.fingerprint,
    signal.occurredAt)

def Signal.key (signal : Signal) : String × String := (signal.strategyName, signal.fingerprint)

structure SignalDeduplicator where
  cooldownSeconds : ℚ
  occurrenceCapacity : ℕ := 1000
  lastEmitted : List ((String × String) × Instant) := []
  seenOccurrences : List OccurrenceKey := []
  cooldown_nonneg : 0 ≤ cooldownSeconds
  capacity_pos : 0 < occurrenceCapacity

namespace SignalDeduplicator

def accept (deduplicator : SignalDeduplicator) (signal : Signal) (now : Instant) :
    SignalDeduplicator × Bool :=
  if signal.occurrenceKey ∈ deduplicator.seenOccurrences then (deduplicator, false)
  else
    let deduplicator := { deduplicator with
      seenOccurrences := pushBack deduplicator.occurrenceCapacity deduplicator.seenOccurrences
        signal.occurrenceKey }
    if deduplicator.cooldownSeconds = 0 then (deduplicator, true)
    else
      let lastEmitted := deduplicator.lastEmitted.filter fun entry =>
        totalSeconds (now - entry.2) < deduplicator.cooldownSeconds
      let deduplicator := { deduplicator with lastEmitted }
      let emitted := { deduplicator with lastEmitted := Dict.set lastEmitted signal.key now }
      match Dict.get? lastEmitted signal.key with
      | some previous =>
        if totalSeconds (now - previous) < deduplicator.cooldownSeconds then (deduplicator, false)
        else (emitted, true)
      | none => (emitted, true)

variable {deduplicator : SignalDeduplicator} {signal : Signal} {now : Instant}

def Remembers (deduplicator : SignalDeduplicator) (key : String × String)
    (last : Option Instant) : Prop :=
  deduplicator.lastEmitted = (last.map fun instant => (key, instant)).toList

def cooling (deduplicator : SignalDeduplicator) (now : Instant) (last : Option Instant) : Bool :=
  last.any fun instant => totalSeconds (now - instant) < deduplicator.cooldownSeconds

theorem accept_cooldownSeconds :
    (deduplicator.accept signal now).1.cooldownSeconds = deduplicator.cooldownSeconds := by
  unfold accept
  dsimp only
  split
  · rfl
  split
  · rfl
  split
  · split <;> rfl
  · rfl

theorem accept_seenOccurrences (hfresh : signal.occurrenceKey ∉ deduplicator.seenOccurrences) :
    (deduplicator.accept signal now).1.seenOccurrences =
      pushBack deduplicator.occurrenceCapacity deduplicator.seenOccurrences
        signal.occurrenceKey := by
  unfold accept
  rw [if_neg hfresh]
  dsimp only
  split
  · rfl
  split
  · split <;> rfl
  · rfl

theorem accept_of_zero (hzero : deduplicator.cooldownSeconds = 0)
    (hfresh : signal.occurrenceKey ∉ deduplicator.seenOccurrences) :
    (deduplicator.accept signal now).2 = true := by
  simp [accept, hfresh, hzero]

theorem accept_spec (hcooldown : deduplicator.cooldownSeconds ≠ 0)
    (hfresh : signal.occurrenceKey ∉ deduplicator.seenOccurrences) {last : Option Instant}
    (hlast : deduplicator.Remembers signal.key last) :
    (deduplicator.accept signal now).2 = !deduplicator.cooling now last ∧
      (deduplicator.accept signal now).1.Remembers signal.key
        (if deduplicator.cooling now last then last else some now) := by
  unfold Remembers at hlast ⊢
  cases last with
  | none => simp [accept, hfresh, hcooldown, hlast, cooling, Dict.set]
  | some instant =>
    by_cases hcooling : totalSeconds (now - instant) < deduplicator.cooldownSeconds
    · simp [accept, hfresh, hcooldown, hlast, cooling, hcooling, Dict.get?_cons]
    · simp [accept, hfresh, hcooldown, hlast, cooling, hcooling, Dict.set]

end SignalDeduplicator

end ChainQuantStudio.Signals
