import ChainQuantStudio.State.CandidateReconcile
import ChainQuantStudio.Universe.Pool
import Mathlib.Algebra.Order.Field.Rat
import Mathlib.Tactic.Linarith

/-!
# Which candidates are watched

The runtime updates the pool with every snapshot of the scanner and asks the supervisor to watch its
members, unless they are the ones watched or the last change is too recent. The scanner is started
again after a failure, of the scanner or of a reconciliation, and what is watched stays. Times are
seconds of the event loop's clock.
-/

namespace ChainQuantStudio.State.Candidates

open SortedPrefix UntilRefused

namespace CandidatePool

def answering (pool : CandidatePool) (answers : ℕ → AdapterAnswers) : CandidatePool :=
  { pool with adapters := pool.adapters.mapIdx fun i adapter => { adapter with answers := answers i } }

variable {pool after : CandidatePool} {targetSymbols : List String}

end CandidatePool

end ChainQuantStudio.State.Candidates

namespace ChainQuantStudio.Universe

open Data Run State.Candidates

structure AltcoinCandidateRuntime where
  pool : CandidatePool
  supervisor : State.Candidates.CandidatePool
  refreshSeconds : ℕ := 300
  reconnectAttempt : ℕ := 0
  currentSymbols : List String := []
  lastRefresh : ℚ := 0
  closed : Bool := false
  refresh_pos : 0 < refreshSeconds

/-- What reaches `run`: a snapshot of the scanner, with the clock and the answers of the adapters;
the end of the scanner by an exception; or the stop event. -/
inductive ScannerEvent
  | snapshot (snapshot : CandidateSnapshot) (now : ℚ) (answers : ℕ → AdapterAnswers)
  | failure
  | stop

namespace AltcoinCandidateRuntime

variable (runtime : AltcoinCandidateRuntime)

/-- `_reconcile_monitor`, and the time of the refresh where no symbol failed. -/
def reconcileMonitor (symbols : List String) (now : ℚ) (answers : ℕ → AdapterAnswers) :
    AltcoinCandidateRuntime × Except Raised Unit :=
  match (runtime.supervisor.answering answers).reconcile symbols with
  | (supervisor, .error raised) => ({ runtime with supervisor }, .error raised)
  | (supervisor, .ok result) =>
    ({ runtime with
        supervisor
        currentSymbols := result.current
        lastRefresh := if result.failed = [] then now else runtime.lastRefresh }, .ok ())

def acceptSnapshot (snapshot : CandidateSnapshot) (now : ℚ) (answers : ℕ → AdapterAnswers) :
    AltcoinCandidateRuntime × Except Raised Unit :=
  let (pool, members) := runtime.pool.update snapshot
  let symbols := members.insertionSort (· ≤ ·)
  let updated := { runtime with reconnectAttempt := 0, pool }
  if symbols = [] ∨ symbols = runtime.currentSymbols then (updated, .ok ())
  else if runtime.currentSymbols ≠ [] ∧ now - runtime.lastRefresh < runtime.refreshSeconds then
    (updated, .ok ())
  else updated.reconcileMonitor symbols now answers

def fail : AltcoinCandidateRuntime :=
  { runtime with reconnectAttempt := runtime.reconnectAttempt + 1 }

def close : AltcoinCandidateRuntime := { runtime with closed := true }

def step (event : ScannerEvent) : AltcoinCandidateRuntime :=
  if runtime.closed then runtime
  else
    match event with
    | .stop => runtime.close
    | .failure => runtime.fail
    | .snapshot snapshot now answers =>
      match runtime.acceptSnapshot snapshot now answers with
      | (accepted, .ok ()) => accepted
      | (accepted, .error .cancelled) => accepted.close
      | (accepted, .error _) => accepted.fail

structure Sound : Prop where
  bounded : runtime.pool.Bounded
  watched : runtime.currentSymbols = runtime.supervisor.candidateSymbols

structure Keeps (before after : AltcoinCandidateRuntime) : Prop where
  symbols : after.currentSymbols = before.currentSymbols
  refreshed : after.lastRefresh = before.lastRefresh

structure Refreshes (before after : AltcoinCandidateRuntime) (now : ℚ) : Prop where
  due : before.currentSymbols ≠ [] → before.lastRefresh + before.refreshSeconds ≤ now
  refreshed : after.lastRefresh = now
  nonempty : after.currentSymbols ≠ []
  members : ∀ symbol, symbol ∈ after.currentSymbols ↔ symbol ∈ after.pool.symbols

structure Steps (before after : AltcoinCandidateRuntime) (event : ScannerEvent) : Prop where
  sound : after.Sound
  capacity : after.pool.capacity = before.pool.capacity
  refreshSeconds : after.refreshSeconds = before.refreshSeconds
  changes : Keeps before after ∨
    ∃ snapshot now answers, event = .snapshot snapshot now answers ∧ Refreshes before after now

variable {runtime}

theorem Steps.congr {before after later : AltcoinCandidateRuntime} {event : ScannerEvent}
    (h : Steps before after event)
    (hlater : later = after.fail ∨ later = after.close) : Steps before later event := by
  rcases hlater with rfl | rfl
  · refine ⟨⟨h.sound.bounded, h.sound.watched⟩, h.capacity, h.refreshSeconds, ?_⟩
    rcases h.changes with hkeeps | ⟨snapshot, now, answers, hevent, hrefresh⟩
    · exact Or.inl ⟨hkeeps.symbols, hkeeps.refreshed⟩
    · exact Or.inr ⟨snapshot, now, answers, hevent, hrefresh.due, hrefresh.refreshed,
        hrefresh.nonempty, hrefresh.members⟩
  · refine ⟨⟨h.sound.bounded, h.sound.watched⟩, h.capacity, h.refreshSeconds, ?_⟩
    rcases h.changes with hkeeps | ⟨snapshot, now, answers, hevent, hrefresh⟩
    · exact Or.inl ⟨hkeeps.symbols, hkeeps.refreshed⟩
    · exact Or.inr ⟨snapshot, now, answers, hevent, hrefresh.due, hrefresh.refreshed,
        hrefresh.nonempty, hrefresh.members⟩

def metricOf (canonicalSymbol : String) (observedAt : Instant) : CandidateMetric where
  canonicalSymbol := canonicalSymbol
  observedAt := observedAt
  quoteVolume24h := 0
  quoteVolumeVelocity := 0
  tradeCountVelocity := 0
  absolutePriceReturn := 0
  spreadBps := 0
  bidLevelNotional := 0
  askLevelNotional := 0

end AltcoinCandidateRuntime

end ChainQuantStudio.Universe
