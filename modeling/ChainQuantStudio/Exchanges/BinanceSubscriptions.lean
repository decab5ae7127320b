import ChainQuantStudio.Data.Models
import ChainQuantStudio.Library.Run
import ChainQuantStudio.Library.SortedPrefix
import Mathlib.Data.Finset.Dedup
import Mathlib.Data.Finset.SDiff
import Mathlib.Data.String.Basic

/-!
# Dynamic subscriptions of the Binance adapters

An adapter with dynamic subscriptions keeps a set of active exchange symbols. A stream that is opened
installs a queue for its lane and subscribes to the active set when it is connected; reconciling the
active set puts the differences on the installed queues, which their connections send one after
another. The queues are unbounded, so a reconciliation runs without a pause.
-/

namespace ChainQuantStudio.Exchanges.Binance

open Data Run SortedPrefix

inductive AdapterKind
  | futures
  | spot
  deriving DecidableEq

inductive Lane
  | critical
  | marketContext
  | publicContext
  deriving DecidableEq

/-- A message to the server. -/
inductive Update
  | subscribe (params : List String)
  | unsubscribe (params : List String)
  deriving DecidableEq

/-- What the server makes of a message. -/
def Update.apply (streams : Finset String) : Update → Finset String
  | .subscribe params => streams ∪ params.toFinset
  | .unsubscribe params => streams \ params.toFinset

/-- `INTERVALS` of the two adapters. -/
def AdapterKind.intervals : AdapterKind → List String
  | .futures => ["5m", "15m", "1h", "4h", "1d"]
  | .spot => ["5m", "15m", "1h", "4h", "1d", "2h", "1w"]

/-- An adapter with dynamic subscriptions; `lower` is `str.lower`. -/
structure Adapter where
  kind : AdapterKind
  candleOnly : Bool
  streamCandleIntervals : List String
  lower : String → String
  supported : ∀ interval ∈ streamCandleIntervals, interval ∈ kind.intervals
  futures_candleOnly : kind = .futures → candleOnly = true

namespace Adapter

variable (adapter : Adapter)

def subscriptions (suffixes : List String) (instruments : List Instrument) : List String :=
  instruments.flatMap fun instrument =>
    suffixes.map fun suffix => adapter.lower instrument.exchangeSymbol ++ suffix

def klineSuffixes : List String :=
  let intervals :=
    match adapter.kind with
    | .futures =>
      if adapter.candleOnly then adapter.streamCandleIntervals else AdapterKind.futures.intervals
    | .spot => adapter.streamCandleIntervals
  (sortedSet intervals).map fun interval => "@kline_" ++ interval

def criticalSubscriptions : List Instrument → List String :=
  adapter.subscriptions adapter.klineSuffixes

def marketContextSubscriptions : List Instrument → List String :=
  adapter.subscriptions (if adapter.candleOnly then [] else ["@ticker", "@aggTrade"])

def publicContextSubscriptions : List Instrument → List String :=
  adapter.subscriptions (if adapter.candleOnly then [] else ["@depth@100ms", "@bookTicker"])

def laneSubscriptions (lane : Lane) : List Instrument → List String :=
  match adapter.kind, lane with
  | .futures, _ => adapter.criticalSubscriptions
  | .spot, .critical => adapter.criticalSubscriptions
  | .spot, .marketContext => adapter.marketContextSubscriptions
  | .spot, .publicContext => adapter.publicContextSubscriptions

/-- The lanes whose queues a reconciliation serves. -/
def groups : List Lane :=
  match adapter.kind with
  | .futures => [.critical]
  | .spot => [.critical, .marketContext, .publicContext]

end Adapter

/-- The instruments by their exchange symbols, and the active symbols. -/
structure Registry where
  instruments : String → Option Instrument
  active : List String
  keyed : ∀ symbol instrument, instruments symbol = some instrument →
    instrument.exchangeSymbol = symbol
  known : ∀ symbol ∈ active, (instruments symbol).isSome = true

def register (instruments : String → Option Instrument) (targets : List Instrument) :
    String → Option Instrument :=
  targets.foldl (fun instruments instrument =>
    Function.update instruments instrument.exchangeSymbol (some instrument)) instruments

theorem register_cases (instruments : String → Option Instrument) (targets : List Instrument)
    (symbol : String) :
    (∃ instrument ∈ targets, instrument.exchangeSymbol = symbol ∧
        register instruments targets symbol = some instrument) ∨
      (symbol ∉ targets.map Instrument.exchangeSymbol ∧
        register instruments targets symbol = instruments symbol) := by
  induction targets generalizing instruments with
  | nil => exact .inr ⟨List.not_mem_nil, rfl⟩
  | cons first rest ih =>
    rw [register, List.foldl_cons]
    rcases ih (Function.update instruments first.exchangeSymbol (some first)) with
      ⟨instrument, hmem, hsymbol, hfound⟩ | ⟨hnot, hfound⟩
    · exact .inl ⟨instrument, List.mem_cons_of_mem _ hmem, hsymbol, hfound⟩
    · by_cases hfirst : first.exchangeSymbol = symbol
      · refine .inl ⟨first, List.mem_cons_self, hfirst, hfound.trans ?_⟩
        rw [hfirst, Function.update_self]
      · refine .inr ⟨?_, hfound.trans (Function.update_of_ne (Ne.symm hfirst) _ _)⟩
        rw [List.map_cons, List.mem_cons, not_or]
        exact ⟨Ne.symm hfirst, hnot⟩

namespace Registry

variable (registry : Registry)

/-- `self._instruments[symbol]` for each symbol. -/
def lookup (symbols : List String) : List Instrument := symbols.filterMap registry.instruments

def activeInstruments : List Instrument := registry.lookup registry.active

def reconcile (targets : List Instrument) : Registry where
  instruments := register registry.instruments targets
  active := sortedSet (targets.map Instrument.exchangeSymbol)
  keyed := by
    intro symbol instrument hfound
    rcases register_cases registry.instruments targets symbol with
      ⟨instrument', -, hsymbol, hfound'⟩ | ⟨-, hfound'⟩
    · rw [← Option.some.inj (hfound'.symm.trans hfound)]
      exact hsymbol
    · exact registry.keyed symbol instrument (hfound'.symm.trans hfound)
  known := by
    intro symbol hsymbol
    rcases register_cases registry.instruments targets symbol with
      ⟨instrument, -, -, hfound⟩ | ⟨hnot, -⟩
    · rw [hfound]
      rfl
    · exact absurd (mem_sortedSet.mp hsymbol) hnot

end Registry

/-- A stream from its opening on. `unsent` are the initial messages that are left to send, `taken`
is the update that has left the queue and waits to be sent, and `wire` is what the server has not
applied yet. -/
structure Connection where
  lane : Lane
  alive : Bool := true
  connected : Bool := false
  unsent : List Update
  taken : Option Update := none
  queue : List Update := []
  wire : List Update := []
  subscribed : Finset String := ∅
  deriving DecidableEq

/-- What the server has still to apply, in order. -/
def Connection.pending (connection : Connection) : List Update :=
  connection.wire ++ connection.unsent ++ connection.taken.toList ++ connection.queue

/-- `installed` is the queue of a lane, by the stream it belongs to. -/
structure Session where
  adapter : Adapter
  registry : Registry
  installed : Lane → Option ℕ := fun _ => none
  connections : ℕ → Connection := fun _ => { lane := .critical, unsent := [], alive := false }
  opened : ℕ := 0

inductive Event
  | reconcile (targets : List Instrument)
  | opens (lane : Lane)
  | connects (stream : ℕ)
  | takes (stream : ℕ)
  | sends (stream : ℕ)
  | serves (stream : ℕ)
  | loses (stream : ℕ)
  | finishes (stream : ℕ)

/-- The messages for some streams, none where there are none. -/
def message (method : List String → Update) (streams : List String) : List Update :=
  if streams = [] then [] else [method streams]

namespace Connection

variable (connection : Connection)

def connect : Connection := { connection with connected := connection.alive }

def lose : Connection := { connection with alive := false }

def take : Connection :=
  match connection.queue with
  | update :: queue =>
    if connection.alive && connection.connected && connection.unsent = [] && connection.taken = none
    then { connection with taken := some update, queue }
    else connection
  | [] => connection

def send : Connection :=
  if connection.alive && connection.connected then
    match connection.unsent, connection.taken with
    | update :: unsent, _ => { connection with unsent, wire := connection.wire ++ [update] }
    | [], some update => { connection with taken := none, wire := connection.wire ++ [update] }
    | [], none => connection
  else connection

def serve : Connection :=
  match connection.wire with
  | update :: wire => { connection with wire, subscribed := update.apply connection.subscribed }
  | [] => connection

end Connection

namespace Session

variable (session : Session)

def modify (stream : ℕ) (change : Connection → Connection) : Session :=
  { session with
    connections :=
      Function.update session.connections stream (change (session.connections stream)) }

def enqueue (lane : Lane) (updates : List Update) : Session :=
  match session.installed lane with
  | none => session
  | some stream => session.modify stream fun c => { c with queue := c.queue ++ updates }

/-- The updates of a lane from the active symbols to a target. -/
def updates (targets : List Instrument) (lane : Lane) : List Update :=
  let registry := session.registry.reconcile targets
  let added := registry.active.filter fun symbol => symbol ∉ session.registry.active
  let removed := session.registry.active.filter fun symbol => symbol ∉ registry.active
  message .subscribe (session.adapter.laneSubscriptions lane (registry.lookup added)) ++
    message .unsubscribe (session.adapter.laneSubscriptions lane (registry.lookup removed))

def reconcileInstruments (targets : List Instrument) : Session :=
  session.adapter.groups.foldl (fun current lane => current.enqueue lane (session.updates targets lane))
    { session with registry := session.registry.reconcile targets }

/-- `_stream_endpoint` up to its first pause: the queue is installed and the active set is read. -/
def openStream (lane : Lane) : Session :=
  let streams := session.adapter.laneSubscriptions lane session.registry.activeInstruments
  { session with
    installed := Function.update session.installed lane (some session.opened)
    connections := Function.update session.connections session.opened
      { lane, unsent := message .subscribe streams }
    opened := session.opened + 1 }

/-- The `finally` block of a lost stream gives up the queue if it is still installed. -/
def finish (stream : ℕ) : Session :=
  let connection := session.connections stream
  if !connection.alive && session.installed connection.lane = some stream then
    { session with installed := Function.update session.installed connection.lane none }
  else session

def step : Event → Session
  | .reconcile targets => session.reconcileInstruments targets
  | .opens lane => session.openStream lane
  | .connects stream => session.modify stream Connection.connect
  | .takes stream => session.modify stream Connection.take
  | .sends stream => session.modify stream Connection.send
  | .serves stream => session.modify stream Connection.serve
  | .loses stream => session.modify stream Connection.lose
  | .finishes stream => session.finish stream

/-- The streams of a lane for the active instruments. -/
def streams (lane : Lane) : Finset String :=
  (session.adapter.laneSubscriptions lane session.registry.activeInstruments).toFinset

/-- The current connection of a lane, if it is alive, comes to the streams of the active set. -/
def Converges (lane : Lane) : Prop :=
  ∀ stream, session.installed lane = some stream → (session.connections stream).alive = true →
    run Update.apply (session.connections stream).subscribed (session.connections stream).pending =
      session.streams lane

end Session

end ChainQuantStudio.Exchanges.Binance
