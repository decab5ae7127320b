import ChainQuantStudio.State.BinanceBridge
import ChainQuantStudio.State.DepthSupervisor
import ChainQuantStudio.State.StreamBootstrap

/-!
# The bootstraps of the supervisor

The two generations that bridge order books: one queue for all instruments, and one queue for each.
Where the venue's streams bridge the snapshots, no book falls out of sequence in any order of the
steps.
-/

namespace ChainQuantStudio.State.Supervisor

open Data Exchanges.Depth OrderBook PumpedQueues Run

/-- An event of a stream: a depth message, or one about no order book. -/
inductive StreamEvent
  | depth (event : DepthEvent)
  | other (metadata : EventMetadata)
  deriving DecidableEq, Repr

namespace StreamEvent

def instrument : StreamEvent → Instrument
  | .depth event => event.metadata.instrument
  | .other metadata => metadata.instrument

/-- `isinstance(event, OrderBookDelta)`, with the instrument. -/
def deltaInstrument : StreamEvent → Option Instrument
  | .depth (.delta delta) => some delta.metadata.instrument
  | _ => none

/-- The depth message about an instrument. -/
def depthOf (instrument : Instrument) : StreamEvent → Option DepthEvent
  | .depth event => if event.metadata.instrument = instrument then some event else none
  | .other _ => none

end StreamEvent

/-- What happens while an event is processed: the answers to a request for a snapshot, each of the
instrument asked for, and what an event about no order book raises. -/
structure Handling where
  fetched : Instrument → Option OrderBookSnapshot
  raised : Option Escaped
  own : ∀ instrument snapshot, fetched instrument = some snapshot →
    snapshot.metadata.instrument = instrument

def raisedBy {α : Type} : Except Escaped α → Option Escaped
  | .error escaped => some escaped
  | .ok _ => none

namespace DepthSupervisor

def takeSnapshot (supervisor : DepthSupervisor) (snapshot : OrderBookSnapshot) :
    DepthSupervisor × Option Escaped :=
  let (supervisor, outcome) := supervisor.applyOrderBookSnapshot snapshot
  (supervisor, raisedBy (outcome.mapError .raised))

def processStreamEvent (recycleUnhealthyStream : Bool) (supervisor : DepthSupervisor)
    (event : StreamEvent) (handling : Handling) : DepthSupervisor × Option Escaped :=
  match event with
  | .depth event =>
    let (supervisor, outcome) := supervisor.processEvent event recycleUnhealthyStream
      (handling.fetched event.metadata.instrument)
    (supervisor, raisedBy outcome)
  | .other _ => (supervisor, handling.raised)

end DepthSupervisor

/-- `_STREAM_BOOTSTRAP_BUFFER_SIZE`. -/
def streamBootstrapBufferSize : ℕ := 10000

theorem streamBootstrapBufferSize_pos : 0 < streamBootstrapBufferSize := by decide

theorem unit_nodup : [()].Nodup := List.nodup_singleton ()

theorem unit_mem (_ : StreamEvent) (key : Unit) (_ : some () = some key) : key ∈ [()] :=
  List.mem_singleton.mpr rfl

/-- `_consume_stream_with_order_book_bootstrap`. -/
def consumeStreamWithOrderBookBootstrap (instruments : List Instrument) :
    Generation Unit Instrument StreamEvent Escaped DepthSupervisor OrderBookSnapshot Handling where
  routing :=
    { size := streamBootstrapBufferSize
      keys := [()]
      route := fun _ => some ()
      size_pos := streamBootstrapBufferSize_pos
      nodup := unit_nodup
      route_mem := unit_mem }
  instruments _ := instruments
  discard awaitingDepth event :=
    match event.deltaInstrument with
    | some instrument => awaitingDepth.filter (· ≠ instrument)
    | none => awaitingDepth
  bufferFilled :=
    "Order-book bootstrap buffer filled before every instrument received a depth delta"
  applySnapshot := DepthSupervisor.takeSnapshot
  processEvent := DepthSupervisor.processStreamEvent true

/-- A generation that keeps each instrument's events in one lane. -/
structure Bootstraps {κ : Type*}
    (generation : Generation κ Instrument StreamEvent Escaped DepthSupervisor OrderBookSnapshot
      Handling) (recycle : Bool) (instruments : List Instrument) (lane : Instrument → κ) : Prop where
  applySnapshot_eq : generation.applySnapshot = DepthSupervisor.takeSnapshot
  processEvent_eq : generation.processEvent = DepthSupervisor.processStreamEvent recycle
  route_eq : ∀ event : StreamEvent, event.instrument ∈ instruments →
    generation.routing.route event = some (lane event.instrument)
  lane_mem : ∀ instrument ∈ instruments, instrument ∈ generation.instruments (lane instrument)
  lane_eq : ∀ key, ∀ instrument ∈ instruments, instrument ∈ generation.instruments key →
    key = lane instrument
  awaits : generation.Awaits StreamEvent.deltaInstrument

theorem consumeStream_bootstraps (instruments : List Instrument) :
    Bootstraps (consumeStreamWithOrderBookBootstrap instruments) true instruments
      (fun _ => ()) where
  applySnapshot_eq := rfl
  processEvent_eq := rfl
  route_eq _ _ := rfl
  lane_mem _ h := h
  lane_eq _ _ _ _ := rfl
  awaits key event awaitingDepth instrument _ _ hawaited hnot := by
    simp only [consumeStreamWithOrderBookBootstrap] at hnot
    cases hdelta : event.deltaInstrument with
    | none =>
      rw [hdelta] at hnot
      exact absurd hawaited hnot
    | some other =>
      rw [hdelta] at hnot
      by_contra hne
      refine hnot (List.mem_filter.mpr ⟨hawaited, ?_⟩)
      simpa using fun heq => hne (by rw [heq])

namespace DepthSupervisor

variable (supervisor : DepthSupervisor)

theorem processEvent_settings (event : DepthEvent) (recycle : Bool)
    (fetched : Option OrderBookSnapshot) :
    (supervisor.processEvent event recycle fetched).1.ingestionPolicy = supervisor.ingestionPolicy ∧
      (supervisor.processEvent event recycle fetched).1.requiresStreamOrderBookBootstrap =
        supervisor.requiresStreamOrderBookBootstrap := by
  unfold processEvent
  split
  · cases event with
    | snapshot snapshot => exact ⟨rfl, rfl⟩
    | delta delta =>
      simp only [reject]
      split_ifs <;> exact ⟨rfl, rfl⟩
  · cases event with
    | snapshot snapshot =>
      dsimp only
      split <;> exact ⟨rfl, rfl⟩
    | delta delta =>
      dsimp only
      split
      · split
        · exact ⟨rfl, rfl⟩
        · cases fetched with
          | none => exact ⟨rfl, rfl⟩
          | some snapshot =>
            simp only [resyncOrderBook, applyOrderBookSnapshot]
            split <;> exact ⟨rfl, rfl⟩
      · exact ⟨rfl, rfl⟩
      · exact ⟨rfl, rfl⟩

theorem processStreamEvent_settings (recycle : Bool) (event : StreamEvent) (handling : Handling) :
    (processStreamEvent recycle supervisor event handling).1.ingestionPolicy =
        supervisor.ingestionPolicy ∧
      (processStreamEvent recycle supervisor event handling).1.requiresStreamOrderBookBootstrap =
        supervisor.requiresStreamOrderBookBootstrap := by
  cases event with
  | depth event => exact supervisor.processEvent_settings event recycle _
  | other metadata => exact ⟨rfl, rfl⟩

theorem processStreamEvent_other (recycle : Bool) {event : StreamEvent} (handling : Handling)
    {instrument : Instrument} (hother : event.depthOf instrument = none) :
    (processStreamEvent recycle supervisor event handling).1.state.book instrument =
      supervisor.state.book instrument := by
  cases event with
  | other metadata => rfl
  | depth event =>
    have hne : event.metadata.instrument ≠ instrument := by
      intro heq
      simp [StreamEvent.depthOf, heq] at hother
    have htrue : DeliveryTrue instrument (fun _ => ⟨event.metadata, [], [], none, none⟩)
        (.other (.event event recycle (handling.fetched event.metadata.instrument))) := by
      refine ⟨hne, fun snapshot hfetched => ?_⟩
      rw [handling.own _ _ hfetched]
      exact hne
    exact step_other htrue

theorem processStreamEvent_delta (recycle : Bool) {delta : OrderBookDelta} (handling : Handling)
    (haccepted : supervisor.ingestionPolicy.rejectionReason delta.metadata = none)
    {after : LocalOrderBook} {applied : Bool}
    (happly : (supervisor.state.book delta.metadata.instrument).applyDelta delta =
      (after, .ok applied)) :
    (processStreamEvent recycle supervisor (.depth (.delta delta)) handling).1.state.book
      delta.metadata.instrument = after := by
  have hbook := supervisor.state.applyDelta_book delta delta.metadata.instrument
  have houtcome := supervisor.state.applyDelta_outcome delta
  rw [if_pos rfl, DepthState.deltaCalls] at hbook
  rw [happly] at hbook houtcome
  change (supervisor.processEvent (.delta delta) recycle _).1.state.book _ = _
  rw [processEvent_delta_state, haccepted]
  rcases happlied : supervisor.state.applyDelta delta with ⟨state, outcome⟩
  rw [happlied] at hbook houtcome
  simp only at houtcome
  subst houtcome
  refine hbook.trans ?_
  simp [LocalOrderBook.step, LocalOrderBook.call, happly]

theorem takeSnapshot_book (snapshot : OrderBookSnapshot) (instrument : Instrument) :
    (supervisor.takeSnapshot snapshot).1.state.book instrument =
      if instrument = snapshot.metadata.instrument then
        (supervisor.state.book instrument).step (.snapshot snapshot
          (supervisor.requiresStreamOrderBookBootstrap snapshot.metadata.instrument))
      else supervisor.state.book instrument :=
  supervisor.state.applyOrderBookSnapshot_book snapshot _ instrument

end DepthSupervisor

theorem step_snapshot_of_unsynchronized {book : LocalOrderBook}
    (hsync : book.isSynchronized = false) {snapshot : OrderBookSnapshot}
    (hinstrument : snapshot.metadata.instrument = book.instrument) (bridge : Bool) :
    book.step (.snapshot snapshot bridge) = book.load snapshot bridge := by
  have hfresh : book.snapshotIsStale snapshot = false := by
    simp [LocalOrderBook.snapshotIsStale, hsync]
  simp [LocalOrderBook.step, LocalOrderBook.call, LocalOrderBook.applySnapshot, hinstrument, hfresh]

section

variable {ε S In : Type*}

theorem prefix_append_cases {α : Type*} {xs ys zs : List α} (h : xs <+: ys ++ zs) :
    xs <+: ys ∨ ∃ more, xs = ys ++ more ∧ more <+: zs := by
  obtain ⟨rest, hrest⟩ := h
  rcases List.append_eq_append_iff.mp hrest with ⟨more, hys, -⟩ | ⟨more, hxs, hzs⟩
  · exact Or.inl ⟨more, hys.symm⟩
  · exact Or.inr ⟨more, hxs, rest, hzs.symm⟩

theorem snapshots_before {calls : List (Call ε S In)} {snapshot : S} {snapshots : List S}
    {events : List (ε × In)} (h : calls ++ [.snapshot snapshot] <+: callsFor snapshots events) :
    snapshot ∈ snapshots ∧ ∀ event input, Call.event event input ∉ calls := by
  have hin : calls ++ [.snapshot snapshot] <+: snapshots.map (Call.snapshot : S → Call ε S In) := by
    rcases prefix_append_cases h with hinitial | ⟨more, heq, hmore⟩
    · exact hinitial
    · rcases List.eq_nil_or_concat more with rfl | ⟨front, last, rfl⟩
      · exact ⟨[], by simpa using heq⟩
      · have hlast : last = .snapshot snapshot := by
          rw [List.concat_eq_append, ← List.append_assoc] at heq
          exact ((List.append_inj' heq rfl).2 |> List.singleton_inj.mp).symm
        have hmem := hmore.subset (show last ∈ front.concat last by simp)
        rw [hlast] at hmem
        simp at hmem
  refine ⟨?_, fun event input hmem => ?_⟩
  · have hmem := hin.subset (show Call.snapshot snapshot ∈ calls ++ [.snapshot snapshot] by simp)
    simpa using hmem
  · have hmem' := hin.subset (List.mem_append_left _ hmem)
    simp at hmem'

theorem snapshots_mem_before {calls : List (Call ε S In)} {event : ε} {input : In}
    {snapshots : List S} {events : List (ε × In)}
    (h : calls ++ [.event event input] <+: callsFor snapshots events) :
    events ≠ [] ∧ ∀ snapshot ∈ snapshots, .snapshot snapshot ∈ calls := by
  rcases prefix_append_cases h with hinitial | ⟨more, heq, hmore⟩
  · have hmem := hinitial.subset
      (show Call.event event input ∈ calls ++ [.event event input] by simp)
    simp at hmem
  · rcases List.eq_nil_or_concat more with rfl | ⟨front, last, rfl⟩
    · have hmem : Call.event event input ∈ snapshots.map (Call.snapshot : S → Call ε S In) := by
        rw [List.append_nil] at heq
        rw [← heq]
        simp
      simp at hmem
    · refine ⟨fun hnil => ?_, fun snapshot hsnapshot => ?_⟩
      · subst hnil
        simpa using hmore.length_le
      · rw [List.concat_eq_append, ← List.append_assoc] at heq
        rw [(List.append_inj' heq rfl).1]
        exact List.mem_append_left _ (List.mem_map_of_mem hsnapshot)

theorem eq_of_concat_prefix {α : Type*} {xs : List α} {x : α} {count : ℕ} {f : ℕ → α}
    (h : xs ++ [x] <+: (List.range count).map f) : x = f xs.length := by
  have hget := h.getElem (show xs.length < (xs ++ [x]).length by simp)
  simpa using hget

end

section

variable {κ : Type*} [DecidableEq κ]
  {generation : Generation κ Instrument StreamEvent Escaped DepthSupervisor OrderBookSnapshot
    Handling}
  {recycle : Bool} {instruments : List Instrument} {lane : Instrument → κ}
  {instrument : Instrument} {data : ℕ → BinanceDepthUpdate} {deltas : ℕ → OrderBookDelta}
  {place : ℕ} {number : ℤ} {supervisor : DepthSupervisor}

def depthCalls (instrument : Instrument)
    (calls : List (κ × Call StreamEvent OrderBookSnapshot Handling)) : List DepthEvent :=
  calls.filterMap fun call =>
    match call.2 with
    | .event event _ => event.depthOf instrument
    | .snapshot _ => none

/-- The supervisor after the calls. -/
def Generation.after
    (generation : Generation κ Instrument StreamEvent Escaped DepthSupervisor OrderBookSnapshot
      Handling) (supervisor : DepthSupervisor)
    (calls : List (κ × Call StreamEvent OrderBookSnapshot Handling)) : DepthSupervisor :=
  run (fun supervisor call => (generation.call supervisor call).1) supervisor (calls.map Prod.snd)

/-- The calls about an instrument are those of its lane: its snapshots, all of one number, and then
the updates of its stream from `place` on. -/
structure LaneCalls (lane : Instrument → κ) (instrument : Instrument)
    (deltas : ℕ → OrderBookDelta) (place : ℕ) (number : ℤ)
    (calls : List (κ × Call StreamEvent OrderBookSnapshot Handling)) : Prop where
  order : ∃ snapshots events,
    (calls.filter fun call => call.1 = lane instrument).map Prod.snd = callsFor snapshots events ∧
      (events ≠ [] → ∃ snapshot ∈ snapshots, snapshot.metadata.instrument = instrument)
  event_lane : ∀ key event input, (key, .event event input) ∈ calls →
    event.depthOf instrument ≠ none → key = lane instrument
  snapshot_lane : ∀ key snapshot, (key, .snapshot snapshot) ∈ calls →
    snapshot.metadata.instrument = instrument →
      key = lane instrument ∧ snapshot.metadata.sequenceId = some number
  updates : ∃ count, depthCalls instrument calls <+:
    (List.range count).map fun i => .delta (deltas (place + i))

structure Crosses (instrument : Instrument) (data : ℕ → BinanceDepthUpdate) (place : ℕ)
    (number : ℤ) (supervisor after : DepthSupervisor)
    (calls : List (κ × Call StreamEvent OrderBookSnapshot Handling)) : Prop where
  policy : after.ingestionPolicy = supervisor.ingestionPolicy
  needs : after.requiresStreamOrderBookBootstrap = supervisor.requiresStreamOrderBookBootstrap
  book : ((∀ key snapshot, (key, .snapshot snapshot) ∈ calls →
        snapshot.metadata.instrument ≠ instrument) ∧
      (after.state.book instrument).isSynchronized = false ∧ depthCalls instrument calls = []) ∨
    BinanceUpdates.Crossing instrument data place number (depthCalls instrument calls).length
      (after.state.book instrument)

omit [DecidableEq κ] in
theorem after_concat (supervisor : DepthSupervisor)
    (calls : List (κ × Call StreamEvent OrderBookSnapshot Handling))
    (call : κ × Call StreamEvent OrderBookSnapshot Handling) :
    generation.after supervisor (calls ++ [call]) =
      (generation.call (generation.after supervisor calls) call.2).1 := by
  simp [Generation.after]

omit [DecidableEq κ] in
theorem depthCalls_concat (instrument : Instrument)
    (calls : List (κ × Call StreamEvent OrderBookSnapshot Handling)) (key : κ)
    (call : Call StreamEvent OrderBookSnapshot Handling) :
    depthCalls instrument (calls ++ [(key, call)]) = depthCalls instrument calls ++
      match call with
      | .event event _ => (event.depthOf instrument).toList
      | .snapshot _ => [] := by
  cases call with
  | snapshot snapshot => simp [depthCalls]
  | event event input =>
    cases hdepth : event.depthOf instrument <;> simp [depthCalls, hdepth]

omit [DecidableEq κ] in
theorem depthCalls_isPrefix {calls more : List (κ × Call StreamEvent OrderBookSnapshot Handling)}
    (h : calls <+: more) (instrument : Instrument) :
    depthCalls instrument calls <+: depthCalls instrument more := by
  obtain ⟨rest, rfl⟩ := h
  exact ⟨_, (List.filterMap_append).symm⟩

theorem filter_prefix {calls more : List (κ × Call StreamEvent OrderBookSnapshot Handling)}
    (h : calls <+: more) (key : κ) :
    (calls.filter fun call => call.1 = key).map Prod.snd <+:
      (more.filter fun call => call.1 = key).map Prod.snd := by
  obtain ⟨rest, rfl⟩ := h
  rw [List.filter_append, List.map_append]
  exact List.prefix_append _ _

theorem Crosses.snapshot (hb : Bootstraps generation recycle instruments lane)
    (hneeds : supervisor.requiresStreamOrderBookBootstrap instrument = true)
    {all before : List (κ × Call StreamEvent OrderBookSnapshot Handling)} {key : κ}
    {snapshot : OrderBookSnapshot} (hlane : LaneCalls lane instrument deltas place number all)
    (hinitial : before ++ [(key, .snapshot snapshot)] <+: all)
    (h : Crosses instrument data place number supervisor (generation.after supervisor before)
      before) :
    Crosses instrument data place number supervisor
      (generation.after supervisor (before ++ [(key, .snapshot snapshot)]))
      (before ++ [(key, .snapshot snapshot)]) := by
  have hcall : generation.after supervisor (before ++ [(key, .snapshot snapshot)]) =
      ((generation.after supervisor before).takeSnapshot snapshot).1 := by
    rw [after_concat]
    simp only [Generation.call, hb.applySnapshot_eq]
  have hdepth : depthCalls instrument (before ++ [(key, .snapshot snapshot)]) =
      depthCalls instrument before := by
    rw [depthCalls_concat]
    exact List.append_nil _
  rw [hcall]
  refine ⟨h.policy, h.needs, ?_⟩
  rw [DepthSupervisor.takeSnapshot_book, hdepth]
  by_cases hinstrument : instrument = snapshot.metadata.instrument
  · rw [if_pos hinstrument]
    obtain ⟨rfl, hnumber⟩ := hlane.snapshot_lane key snapshot
      (hinitial.subset (by simp)) hinstrument.symm
    obtain ⟨snapshots, events, hcalls, -⟩ := hlane.order
    have hbefore := filter_prefix hinitial (lane instrument)
    rw [hcalls, List.filter_append, List.map_append] at hbefore
    have hnone : depthCalls instrument before = [] := by
      have hno := (snapshots_before (by simpa using hbefore)).2
      rw [depthCalls, List.filterMap_eq_nil_iff]
      rintro ⟨other, call⟩ hmem
      cases call with
      | snapshot snapshot => rfl
      | event event input =>
        by_contra hsome
        have hother := hlane.event_lane other event input
          ((List.prefix_append _ _).trans hinitial |>.subset hmem) hsome
        refine hno event input (List.mem_map.mpr ⟨(other, .event event input), ?_, rfl⟩)
        exact List.mem_filter.mpr ⟨hmem, by simpa using hother⟩
    have hsync : ((generation.after supervisor before).state.book instrument).isSynchronized =
        false := by
      rcases h.book with ⟨-, hsync, -⟩ | hcrossing
      · exact hsync
      · rw [hnone] at hcrossing
        have hiff := hcrossing.isSynchronized_iff
        cases hvalue : ((generation.after supervisor before).state.book instrument).isSynchronized
        · rfl
        · obtain ⟨i, hi, -⟩ := hiff.mp hvalue
          exact absurd hi (Nat.not_lt_zero i)
    refine Or.inr ?_
    rw [step_snapshot_of_unsynchronized hsync
      (hinstrument.symm.trans (DepthState.book_instrument _ _).symm), hnone, h.needs,
      ← hinstrument, hneeds]
    exact BinanceUpdates.crossing_load (DepthState.book_instrument _ _) hnumber
  · rw [if_neg hinstrument]
    rcases h.book with ⟨hno, hsync, hnone⟩ | hcrossing
    · refine Or.inl ⟨fun other earlier hmem heq => ?_, hsync, hnone⟩
      rcases List.mem_append.mp hmem with hold | hnew
      · exact hno other earlier hold heq
      · obtain ⟨-, hsame⟩ : other = key ∧ earlier = snapshot := by simpa using hnew
        exact hinstrument (by rw [← heq, hsame])
    · exact Or.inr hcrossing

theorem depthOf_eq_some {event : StreamEvent} {depth : DepthEvent}
    (h : event.depthOf instrument = some depth) :
    event = .depth depth ∧ depth.metadata.instrument = instrument := by
  cases event with
  | other metadata => cases h
  | depth other =>
    simp only [StreamEvent.depthOf] at h
    split_ifs at h with hinstrument
    cases h
    exact ⟨rfl, hinstrument⟩

theorem LaneCalls.next {all before : List (κ × Call StreamEvent OrderBookSnapshot Handling)}
    (hlane : LaneCalls lane instrument deltas place number all) {key : κ} {event : StreamEvent}
    {handling : Handling} (hinitial : before ++ [(key, .event event handling)] <+: all)
    {depth : DepthEvent} (hdepth : event.depthOf instrument = some depth) :
    depth = .delta (deltas (place + (depthCalls instrument before).length)) := by
  obtain ⟨count, hupdates⟩ := hlane.updates
  have hmore := (depthCalls_isPrefix hinitial instrument).trans hupdates
  rw [depthCalls_concat] at hmore
  simp only [hdepth, Option.toList_some] at hmore
  exact eq_of_concat_prefix hmore

theorem Crosses.crossing {all before : List (κ × Call StreamEvent OrderBookSnapshot Handling)}
    {after : DepthSupervisor}
    (h : Crosses instrument data place number supervisor after before)
    (hlane : LaneCalls lane instrument deltas place number all) {key : κ} {event : StreamEvent}
    {handling : Handling} (hinitial : before ++ [(key, .event event handling)] <+: all)
    (hdepth : event.depthOf instrument ≠ none) :
    BinanceUpdates.Crossing instrument data place number (depthCalls instrument before).length
      (after.state.book instrument) := by
  rcases h.book with ⟨hno, -, -⟩ | hcrossing
  · obtain rfl := hlane.event_lane key event handling (hinitial.subset (by simp)) hdepth
    obtain ⟨snapshots, events, hcalls, hsnapshot⟩ := hlane.order
    have hbefore := filter_prefix hinitial (lane instrument)
    rw [hcalls, List.filter_append, List.map_append] at hbefore
    obtain ⟨hevents, hmem⟩ := snapshots_mem_before (by simpa using hbefore)
    obtain ⟨snapshot, hin, hinstrument⟩ := hsnapshot hevents
    obtain ⟨⟨other, call⟩, hcall, heq⟩ := List.mem_map.mp (hmem snapshot hin)
    obtain rfl : call = .snapshot snapshot := heq
    exact absurd hinstrument (hno other snapshot (List.mem_of_mem_filter hcall))
  · exact hcrossing

variable (hb : Bootstraps generation recycle instruments lane)
  (hupdates : BinanceUpdates instrument data deltas)
  (hbridge : Bridgeable instrument.marketType data place number)
  (haccepted : ∀ i, supervisor.ingestionPolicy.rejectionReason (deltas i).metadata = none)

include hb hupdates hbridge haccepted

theorem Crosses.event {all before : List (κ × Call StreamEvent OrderBookSnapshot Handling)} {key : κ}
    {event : StreamEvent} {handling : Handling}
    (hlane : LaneCalls lane instrument deltas place number all)
    (hinitial : before ++ [(key, .event event handling)] <+: all)
    (h : Crosses instrument data place number supervisor (generation.after supervisor before)
      before) :
    Crosses instrument data place number supervisor
      (generation.after supervisor (before ++ [(key, .event event handling)]))
      (before ++ [(key, .event event handling)]) := by
  have hcall : generation.after supervisor (before ++ [(key, .event event handling)]) =
      (DepthSupervisor.processStreamEvent recycle (generation.after supervisor before) event
        handling).1 := by
    rw [after_concat]
    simp only [Generation.call, hb.processEvent_eq]
  have hsettings := (generation.after supervisor before).processStreamEvent_settings recycle event
    handling
  rw [hcall]
  refine ⟨hsettings.1.trans h.policy, hsettings.2.trans h.needs, ?_⟩
  rw [depthCalls_concat]
  cases hdepth : event.depthOf instrument with
  | none =>
    rw [DepthSupervisor.processStreamEvent_other _ recycle handling hdepth]
    simp only [hdepth, Option.toList_none, List.append_nil]
    rcases h.book with ⟨hno, hsync, hnone⟩ | hcrossing
    · refine Or.inl ⟨fun other snapshot hmem => ?_, hsync, hnone⟩
      rcases List.mem_append.mp hmem with hold | hnew
      · exact hno other snapshot hold
      · simp at hnew
    · exact Or.inr hcrossing
  | some depth =>
    refine Or.inr ?_
    have hcrossing := h.crossing hlane hinitial (by simp [hdepth])
    obtain ⟨rfl, -⟩ := depthOf_eq_some hdepth
    obtain rfl := hlane.next hinitial hdepth
    obtain ⟨after, applied, hdelta, hafter⟩ := hcrossing.next hupdates
      ((BinanceUpdates.bridgeable_iff hupdates).mp hbridge _)
    have hinstrument := hupdates.instrument_eq (place + (depthCalls instrument before).length)
    have haccepted' := haccepted (place + (depthCalls instrument before).length)
    rw [← h.policy] at haccepted'
    have hbook := (generation.after supervisor before).processStreamEvent_delta recycle handling
      haccepted' (by rw [hinstrument]; exact hdelta)
    rw [hinstrument] at hbook
    simp only [hbook, hdepth, Option.toList_some, List.length_append, List.length_singleton]
    exact hafter

theorem crosses_of_prefix {all : List (κ × Call StreamEvent OrderBookSnapshot Handling)}
    (hneeds : supervisor.requiresStreamOrderBookBootstrap instrument = true)
    (hsync : (supervisor.state.book instrument).isSynchronized = false)
    (hlane : LaneCalls lane instrument deltas place number all)
    (before : List (κ × Call StreamEvent OrderBookSnapshot Handling)) (hinitial : before <+: all) :
    Crosses instrument data place number supervisor (generation.after supervisor before) before := by
  induction before using List.reverseRecOn with
  | nil =>
    refine ⟨rfl, rfl, Or.inl ⟨fun key snapshot hmem => ?_, hsync, rfl⟩⟩
    cases hmem
  | append_singleton before call ih =>
    have h := ih ((List.prefix_append _ _).trans hinitial)
    obtain ⟨key, call⟩ := call
    cases call with
    | snapshot snapshot => exact h.snapshot hb hneeds hlane hinitial
    | event event handling => exact h.event hb hupdates hbridge haccepted hlane hinitial

omit hupdates hbridge haccepted in
theorem laneCalls_run (hmem : instrument ∈ instruments)
    {actions : List (BootstrapAction κ StreamEvent Escaped OrderBookSnapshot Handling)}
    (hanswers : ∀ action ∈ actions, Generation.Answers (fun key snapshots =>
      snapshots.map (fun snapshot => snapshot.metadata.instrument) = generation.instruments key ∧
        ∀ snapshot ∈ snapshots, snapshot.metadata.instrument = instrument →
          snapshot.metadata.sequenceId = some number) action)
    (hyielded : ∃ count,
      (run generation.step (generation.start supervisor) actions).feed.yielded.filterMap
          (StreamEvent.depthOf instrument) =
        (List.range count).map fun i => .delta (deltas (place + i))) :
    LaneCalls lane instrument deltas place number
      (run generation.step (generation.start supervisor) actions).calls := by
  have hkeeps := Generation.keeps_run hb.awaits supervisor actions
  have hloaded := Generation.loaded_run hb.awaits supervisor hanswers
  set streaming := run generation.step (generation.start supervisor) actions
  have hroute : ∀ key event handling, (key, .event event handling) ∈ streaming.calls →
      generation.routing.route event = some key := by
    intro key event handling hcall
    obtain ⟨snapshots, events, hcalls, hinitial, -⟩ := hkeeps.callsOf_eq key
    have hin : Call.event event handling ∈ streaming.callsOf key :=
      List.mem_map.mpr ⟨_, List.mem_filter.mpr ⟨hcall, by simp⟩, rfl⟩
    rw [hcalls] at hin
    have hevent : (event, handling) ∈ events := by simpa [callsFor] using hin
    have hrouted := (hinitial.trans (hkeeps.feed.taken_isPrefix key)).subset
      (List.mem_map_of_mem hevent)
    simpa [Feed.routed] using (List.mem_filter.mp hrouted).2
  have hlane : ∀ key event handling, (key, .event event handling) ∈ streaming.calls →
      event.depthOf instrument ≠ none → key = lane instrument := by
    intro key event handling hcall hdepth
    obtain ⟨depth, hdepth⟩ := Option.ne_none_iff_exists'.mp hdepth
    obtain ⟨rfl, hinstrument⟩ := depthOf_eq_some hdepth
    have hkey := hroute key _ handling hcall
    have hwatched : (StreamEvent.depth depth).instrument = instrument := hinstrument
    rw [hb.route_eq _ (by rw [hwatched]; exact hmem), hwatched] at hkey
    exact (Option.some.inj hkey).symm
  have hprocessing : ∀ key, streaming.callsOf key = [] ∨
      ∃ answer snapshots events,
        (answer.map (fun snapshot => snapshot.metadata.instrument) = generation.instruments key ∧
          ∀ snapshot ∈ answer, snapshot.metadata.instrument = instrument →
            snapshot.metadata.sequenceId = some number) ∧
        streaming.callsOf key = callsFor snapshots events ∧ snapshots <+: answer ∧
        (streaming.ending = none ∨ events ≠ [] → snapshots = answer) := by
    intro key
    have hexplains := hkeeps.explains key
    cases hconsumer : streaming.consumers key with
    | awaiting awaitingDepth buffered =>
      rw [hconsumer] at hexplains
      exact Or.inl hexplains.1
    | fetching buffered =>
      rw [hconsumer] at hexplains
      exact Or.inl hexplains.1
    | processing rest => exact Or.inr (hloaded key rest hconsumer)
  refine ⟨?_, hlane, fun key snapshot hcall hinstrument => ?_, ?_⟩
  · rcases hprocessing (lane instrument) with
      hnone | ⟨answer, snapshots, events, ⟨hanswer, -⟩, hcalls, -, hall⟩
    · exact ⟨[], [], hnone, fun hne => absurd rfl hne⟩
    · refine ⟨snapshots, events, hcalls, fun hne => ?_⟩
      have hin := hb.lane_mem instrument hmem
      rw [← hanswer, ← hall (Or.inr hne)] at hin
      exact List.mem_map.mp hin
  · have hin : Call.snapshot snapshot ∈ streaming.callsOf key :=
      List.mem_map.mpr ⟨_, List.mem_filter.mpr ⟨hcall, by simp⟩, rfl⟩
    rcases hprocessing key with
      hnone | ⟨answer, snapshots, events, ⟨hanswer, hnumber⟩, hcalls, hinitial, -⟩
    · rw [hnone] at hin
      cases hin
    · rw [hcalls] at hin
      have hsnapshot : snapshot ∈ answer := hinitial.subset (by simpa [callsFor] using hin)
      refine ⟨hb.lane_eq key instrument hmem ?_, hnumber snapshot hsnapshot hinstrument⟩
      rw [← hanswer, ← hinstrument]
      exact List.mem_map_of_mem hsnapshot
  · obtain ⟨count, hyielded⟩ := hyielded
    refine ⟨count, ?_⟩
    obtain ⟨snapshots, events, hcalls, hinitial, -⟩ := hkeeps.callsOf_eq (lane instrument)
    have hdepth : depthCalls instrument streaming.calls =
        (events.map Prod.fst).filterMap (StreamEvent.depthOf instrument) := by
      have hfilter : depthCalls instrument streaming.calls =
          (streaming.callsOf (lane instrument)).filterMap fun call =>
            match call with
            | .event event _ => event.depthOf instrument
            | .snapshot _ => none := by
        unfold Streaming.callsOf depthCalls
        rw [List.filterMap_map, List.filterMap_filter]
        refine List.filterMap_congr fun call hcall => ?_
        obtain ⟨key, call⟩ := call
        by_cases hkey : key = lane instrument
        · simp [hkey]
        · cases call with
          | snapshot snapshot => simp [hkey]
          | event event handling =>
            have hnone : event.depthOf instrument = none := by
              by_contra hsome
              exact hkey (hlane key event handling hcall hsome)
            simp [hkey, hnone]
      rw [hfilter, hcalls]
      simp [callsFor, List.filterMap_map]
    have hrouted : (streaming.feed.routed generation.routing (lane instrument)).filterMap
          (StreamEvent.depthOf instrument) =
        streaming.feed.yielded.filterMap (StreamEvent.depthOf instrument) := by
      rw [Feed.routed, List.filterMap_filter]
      refine List.filterMap_congr fun event _ => ?_
      split_ifs with hkey
      · rfl
      · cases hdepth : event.depthOf instrument with
        | none => rfl
        | some depth =>
          obtain ⟨rfl, hinstrument⟩ := depthOf_eq_some hdepth
          have hwatched : (StreamEvent.depth depth).instrument = instrument := hinstrument
          rw [hb.route_eq _ (by rw [hwatched]; exact hmem), hwatched] at hkey
          simp at hkey
    rw [hdepth, ← hyielded, ← hrouted]
    obtain ⟨rest, hrest⟩ := hinitial.trans (hkeeps.feed.taken_isPrefix (lane instrument))
    rw [← hrest, List.filterMap_append]
    exact List.prefix_append _ _

end

/-- In every order of the steps from a book that is not synchronized, where the policy takes all
updates: an instrument whose stream bridges its snapshots takes every update that is processed
without a break in the sequence, and its book is synchronized as soon as one of them has reached
beyond the snapshot. -/
theorem bootstrap_connects {κ : Type*} [DecidableEq κ]
    (generation : Generation κ Instrument StreamEvent Escaped DepthSupervisor OrderBookSnapshot
      Handling)
    (recycle : Bool) (instruments : List Instrument) (lane : Instrument → κ)
    (hbootstraps : Bootstraps generation recycle instruments lane) (supervisor : DepthSupervisor)
    (actions : List (BootstrapAction κ StreamEvent Escaped OrderBookSnapshot Handling))
    (instrument : Instrument) (hmem : instrument ∈ instruments) (data : ℕ → BinanceDepthUpdate)
    (received : ℕ → Instant) (deltas : ℕ → OrderBookDelta)
    (hdecodes : DecodesBinance instrument data received deltas) (place : ℕ) (number : ℤ)
    (hbridge : Bridgeable instrument.marketType data place number)
    (haccepted : ∀ i, supervisor.ingestionPolicy.rejectionReason (deltas i).metadata = none)
    (hneeds : supervisor.requiresStreamOrderBookBootstrap instrument = true)
    (hsync : (supervisor.state.book instrument).isSynchronized = false)
    (hanswers : ∀ action ∈ actions, Generation.Answers (fun key snapshots =>
      snapshots.map (fun snapshot => snapshot.metadata.instrument) = generation.instruments key ∧
        ∀ snapshot ∈ snapshots, snapshot.metadata.instrument = instrument →
          snapshot.metadata.sequenceId = some number) action)
    (hyielded : ∃ count,
      (run generation.step (generation.start supervisor) actions).feed.yielded.filterMap
          (StreamEvent.depthOf instrument) =
        (List.range count).map fun i => .delta (deltas (place + i))) :
    let streaming := run generation.step (generation.start supervisor) actions
    (∀ before key delta handling,
      before ++ [(key, .event (.depth (.delta delta)) handling)] <+: streaming.calls →
        delta.metadata.instrument = instrument →
          ∃ applied, (((generation.after supervisor before).state.book instrument).applyDelta
            delta).2 = .ok applied) ∧
      ((streaming.market.state.book instrument).isSynchronized = true ↔
        ∃ i < (depthCalls instrument streaming.calls).length,
          Reaches instrument.marketType number (data (place + i))) := by
  intro streaming
  have hupdates := hdecodes.updates
  have hlane : LaneCalls lane instrument deltas place number streaming.calls :=
    laneCalls_run hbootstraps hmem hanswers hyielded
  have hcrosses := crosses_of_prefix hbootstraps hupdates hbridge haccepted hneeds hsync hlane
  constructor
  · intro before key delta handling hinitial hinstrument
    have hdepth : StreamEvent.depthOf instrument (.depth (.delta delta)) = some (.delta delta) :=
      if_pos hinstrument
    have hbefore := hcrosses before ((List.prefix_append _ _).trans hinitial)
    have hcrossing := hbefore.crossing hlane hinitial (by simp [hdepth])
    obtain rfl : delta = deltas (place + (depthCalls instrument before).length) :=
      DepthEvent.delta.inj (hlane.next hinitial hdepth)
    obtain ⟨after, applied, hdelta, -⟩ := hcrossing.next hupdates
      ((BinanceUpdates.bridgeable_iff hupdates).mp hbridge _)
    exact ⟨applied, congrArg Prod.snd hdelta⟩
  · have hmarket : streaming.market = generation.after supervisor streaming.calls :=
      (Generation.keeps_run hbootstraps.awaits supervisor actions).market_eq
    rw [hmarket]
    rcases (hcrosses streaming.calls List.prefix_rfl).book with ⟨-, hunsynced, hnone⟩ | hcrossing
    · rw [hunsynced, hnone]
      simp
    · exact hcrossing.isSynchronized_iff

/-! One instrument, whose first update reaches beyond the snapshot. -/

def btcPerpetual : Instrument := btcUsdt .binance .linearPerpetual

def bridgingSupervisor : DepthSupervisor :=
  { Followed.emptySupervisor with requiresStreamOrderBookBootstrap := fun _ => true }

theorem nothing_fetched (instrument : Instrument) (snapshot : OrderBookSnapshot)
    (h : none = some snapshot) : snapshot.metadata.instrument = instrument := by
  cases h

def idle : Handling where
  fetched _ := none
  raised := none
  own := nothing_fetched

def bridgingActions : List (BootstrapAction Unit StreamEvent Escaped OrderBookSnapshot Handling) :=
  [.answer (.event (.depth (.delta (holedDeltas 0)))), .enqueue, .proceed () idle,
    .fetched () (.ok [holedSnapshot 7]), .proceed () idle]

theorem holed_accepted (i : ℕ) :
    bridgingSupervisor.ingestionPolicy.rejectionReason (holedDeltas i).metadata = none := by
  simp only [bridgingSupervisor, Followed.emptySupervisor, IngestionPolicy.rejectionReason, holedDeltas,
    binanceFuturesDelta, binanceSpotDelta, holedUpdates, totalSeconds, fromMilliseconds,
    reduceCtorEq, if_false]
  norm_num

theorem bridgingActions_answers :
    ∀ action ∈ bridgingActions, Generation.Answers (fun key snapshots =>
      snapshots.map (fun snapshot => snapshot.metadata.instrument) =
          (consumeStreamWithOrderBookBootstrap [btcPerpetual]).instruments key ∧
        ∀ snapshot ∈ snapshots, snapshot.metadata.instrument = btcPerpetual →
          snapshot.metadata.sequenceId = some 7) action := by
  intro action haction key snapshots heq
  subst heq
  simp only [bridgingActions, List.mem_cons, List.not_mem_nil, or_false, reduceCtorEq,
    BootstrapAction.fetched.injEq, Except.ok.injEq, false_or] at haction
  obtain ⟨-, rfl⟩ := haction
  refine ⟨rfl, fun snapshot hsnapshot _ => ?_⟩
  rw [List.mem_singleton.mp hsnapshot]
  rfl

theorem bridgingActions_yielded :
    (run (consumeStreamWithOrderBookBootstrap [btcPerpetual]).step
        ((consumeStreamWithOrderBookBootstrap [btcPerpetual]).start bridgingSupervisor)
        bridgingActions).feed.yielded.filterMap (StreamEvent.depthOf btcPerpetual) =
      (List.range 1).map fun i => .delta (holedDeltas (0 + i)) := by
  decide +kernel

theorem bootstrap_connects_of_holed :
    let generation := consumeStreamWithOrderBookBootstrap [btcPerpetual]
    let streaming := run generation.step (generation.start bridgingSupervisor) bridgingActions
    (∀ before key delta handling,
      before ++ [(key, .event (.depth (.delta delta)) handling)] <+: streaming.calls →
        delta.metadata.instrument = btcPerpetual →
          ∃ applied, (((generation.after bridgingSupervisor before).state.book
            btcPerpetual).applyDelta delta).2 = .ok applied) ∧
      ((streaming.market.state.book btcPerpetual).isSynchronized = true ↔
        ∃ i < (depthCalls btcPerpetual streaming.calls).length,
          Reaches .linearPerpetual 7 (holedUpdates (0 + i))) :=
  bootstrap_connects (consumeStreamWithOrderBookBootstrap [btcPerpetual]) true [btcPerpetual]
    (fun _ => ()) (consumeStream_bootstraps [btcPerpetual]) bridgingSupervisor bridgingActions
    btcPerpetual (List.mem_singleton.mpr rfl) holedUpdates (fun _ => 0) holedDeltas holed_decodes 0 7
    ⟨0, le_rfl, by decide, by decide⟩ holed_accepted rfl rfl bridgingActions_answers
    ⟨1, bridgingActions_yielded⟩

end ChainQuantStudio.State.Supervisor
