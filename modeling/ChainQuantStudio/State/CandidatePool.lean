import ChainQuantStudio.Data.Models
import ChainQuantStudio.Library.SortedPrefix
import ChainQuantStudio.Library.UntilRefused
import Mathlib.Data.Finset.Basic
import Mathlib.Data.Finset.Dedup
import Mathlib.Data.String.Basic

/-!
# The candidate pool and its reconciliation

A candidate supervisor reconciles the symbols it watches with a target. The candles and books of the
added symbols are requested first; then every adapter is asked to subscribe to what it has and the
additions, and after that, where symbols were removed, to the final instruments. An adapter that
refuses one of the two calls stops the reconciliation there.
-/

namespace ChainQuantStudio.State.Candidates

open Data SortedPrefix UntilRefused

inductive Raised
  | runtimeError (message : String)
  | duplicateInstrument (instrument : Instrument)
  | adapterError
  | cancelled
  deriving DecidableEq

inductive Answer
  | given
  | failed
  | cancelled
  deriving DecidableEq

/-- What an adapter does during one reconciliation: `discovered` is absent where `get_instruments`
fails; `takesAdditions` and `takesFinal` are the two calls of `reconcile_instruments`. -/
structure AdapterAnswers where
  discovered : Option (List Instrument) := some []
  warms : Bool := true
  prepares : String → Answer := fun _ => .given
  stores : String → Bool := fun _ => true
  takesAdditions : Bool := true
  takesFinal : Bool := true

structure PoolAdapter where
  name : String
  supportedCandleIntervals : Option (List String) := none
  instrumentForSymbol : Option (String → Instrument)
  instruments : Option (List Instrument) := none
  requested : Finset String := ∅
  answers : AdapterAnswers := {}
  creates_symbol : ∀ create ∈ instrumentForSymbol, ∀ symbol, (create symbol).canonicalSymbol = symbol

namespace PoolAdapter

variable (adapter : PoolAdapter) (added removed : List String)

/-- `_instruments_by_adapter.get(adapter, ())`. -/
def listed : List Instrument := adapter.instruments.getD []

def intervals (candleIntervals : List String) : List String :=
  match adapter.supportedCandleIntervals with
  | none => candleIntervals
  | some supported => candleIntervals.filter fun interval => interval ∈ supported

def newInstruments : List Instrument :=
  match adapter.instrumentForSymbol with
  | none => []
  | some create => added.map create

def byCanonicalSymbol (instruments : List Instrument) : List Instrument :=
  instruments.insertionSort fun a b => a.canonicalSymbol ≤ b.canonicalSymbol

def retained : List Instrument :=
  adapter.listed.filter fun instrument => instrument.canonicalSymbol ∉ removed

def withAdditions : List Instrument :=
  byCanonicalSymbol (adapter.listed ++ adapter.newInstruments added)

def finalInstruments : List Instrument :=
  byCanonicalSymbol (adapter.retained removed ++ adapter.newInstruments added)

end PoolAdapter

def exchangeSymbols (instruments : List Instrument) : Finset String :=
  (instruments.map Instrument.exchangeSymbol).toFinset

namespace PoolAdapter

variable (adapter : PoolAdapter) (added removed : List String)

/-- `reconcile_instruments`, where it does not raise. -/
def reconcileInstruments (instruments : List Instrument) : PoolAdapter :=
  { adapter with requested := exchangeSymbols instruments }

def subscribeAdditions : PoolAdapter :=
  adapter.reconcileInstruments (adapter.withAdditions added)

def settle : PoolAdapter :=
  let final := adapter.finalInstruments added removed
  let asked := if removed = [] then adapter else adapter.reconcileInstruments final
  { asked with instruments := some final }

end PoolAdapter

inductive Scope
  | core
  | candidate
  deriving DecidableEq

structure CandidatePool where
  scope : Scope := .candidate
  candleIntervals : List String
  allowEmptyAdapters : Bool := true
  adapters : List PoolAdapter
  candidateSymbols : List String := []
  registered : List Instrument := []
  initialized : Bool := false
  sorted : candidateSymbols.Pairwise (· < ·)

structure CandidateReconcileResult where
  current : List String
  added : List String := []
  removed : List String := []
  unchanged : List String := []
  failed : List String := []
  deriving DecidableEq

def registerAll (registered : List Instrument) : List Instrument → List Instrument × Option Raised
  | [] => (registered, none)
  | instrument :: rest =>
    if instrument ∈ registered then (registered, some (.duplicateInstrument instrument))
    else registerAll (registered ++ [instrument]) rest

/-- The instruments that `get_instruments` returns. -/
def PoolAdapter.found (adapter : PoolAdapter) : List Instrument :=
  adapter.answers.discovered.getD []

def PoolAdapter.discover (adapter : PoolAdapter) : PoolAdapter :=
  { adapter with instruments := some adapter.found }

namespace CandidatePool

variable (pool : CandidatePool)

def discoverAll (registered : List Instrument) :
    List PoolAdapter → List PoolAdapter × List Instrument × Option Raised
  | [] => ([], registered, none)
  | adapter :: rest =>
    if adapter.intervals pool.candleIntervals = [] then
      (adapter :: rest, registered,
        some (.runtimeError s!"Adapter {adapter.name} supports no configured candle interval"))
    else if adapter.found = [] then
      if pool.allowEmptyAdapters then
        let (rest, registered, raised) := discoverAll registered rest
        (adapter.discover :: rest, registered, raised)
      else
        (adapter :: rest, registered,
          some (.runtimeError s!"Adapter {adapter.name} found no instruments"))
    else
      match registerAll registered adapter.found with
      | (registered, some raised) => (adapter.discover :: rest, registered, some raised)
      | (registered, none) =>
        let (rest, registered, raised) := discoverAll registered rest
        (adapter.discover :: rest, registered, raised)

def initializePool : CandidatePool × Option Raised :=
  if pool.initialized then (pool, none)
  else if pool.adapters.any fun adapter => adapter.answers.discovered.isNone then
    (pool, some .adapterError)
  else
    let (adapters, registered, raised) := pool.discoverAll pool.registered pool.adapters
    let discovered := { pool with adapters, registered }
    match raised with
    | some raised => (discovered, some raised)
    | none =>
      if adapters.all fun adapter => adapter.listed = [] || adapter.answers.warms then
        ({ discovered with initialized := true }, none)
      else (discovered, some .adapterError)

def prepareSymbol (symbol : String) : List PoolAdapter → Answer
  | [] => .given
  | adapter :: rest =>
    match adapter.instrumentForSymbol with
    | none => .failed
    | some _ =>
      match adapter.answers.prepares symbol with
      | .given => prepareSymbol symbol rest
      | ended => ended

def prepare (adapters : List PoolAdapter) : List String → Answer
  | [] => .given
  | symbol :: rest =>
    match prepareSymbol symbol adapters with
    | .given => prepare adapters rest
    | ended => ended

/-- The two passes of `reconcile_instruments` over the adapters. -/
def subscribe (added removed target : List String) (hsorted : target.Pairwise (· < ·)) :
    CandidatePool × Except Raised Unit :=
  let (subscribed, done) := untilRefused (fun adapter => adapter.answers.takesAdditions)
    (fun adapter => adapter.subscribeAdditions added) pool.adapters
  if !done then ({ pool with adapters := subscribed }, .error .adapterError)
  else
    let (settled, done) := untilRefused
      (fun adapter => removed = [] || adapter.answers.takesFinal)
      (fun adapter => adapter.settle added removed) subscribed
    if !done then ({ pool with adapters := settled }, .error .adapterError)
    else ({ pool with adapters := settled, candidateSymbols := target, sorted := hsorted }, .ok ())

/-- What `reconcile` does under its lock. -/
def reconcileLocked (targetSymbols : List String) :
    CandidatePool × Except Raised CandidateReconcileResult :=
  let target := sortedSet targetSymbols
  let added := target.filter fun symbol => symbol ∉ pool.candidateSymbols
  let removed := pool.candidateSymbols.filter fun symbol => symbol ∉ target
  let unchanged := pool.candidateSymbols.filter fun symbol => symbol ∈ target
  if added = [] ∧ removed = [] then
    (pool, .ok { current := pool.candidateSymbols, unchanged })
  else
    match prepare pool.adapters added with
    | .cancelled => (pool, .error .cancelled)
    | .failed => (pool, .ok { current := pool.candidateSymbols, unchanged, failed := added })
    | .given =>
      if !pool.adapters.all fun adapter => added.all adapter.answers.stores then
        (pool, .error .adapterError)
      else
        match pool.subscribe added removed target (sortedSet_pairwise targetSymbols) with
        | (pool, .error raised) => (pool, .error raised)
        | (pool, .ok ()) => (pool, .ok { current := target, added, removed, unchanged })

def reconcile (targetSymbols : List String) :
    CandidatePool × Except Raised CandidateReconcileResult :=
  if pool.scope ≠ .candidate then
    (pool, .error (.runtimeError "Only candidate supervisors support symbol reconciliation"))
  else
    match pool.initializePool with
    | (pool, some raised) => (pool, .error raised)
    | (pool, none) => pool.reconcileLocked targetSymbols

end CandidatePool

end ChainQuantStudio.State.Candidates
