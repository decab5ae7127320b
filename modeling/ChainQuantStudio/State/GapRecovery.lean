import ChainQuantStudio.State.BridgedBooks
import ChainQuantStudio.State.ConsumeForever
import ChainQuantStudio.State.OrderBookInvalidation
import Mathlib.Data.Finset.Insert

/-!
# Order books from one generation to the next

The loop of an adapter whose snapshots are not bridged by its stream. A gap in one book ends the
generation and asks for that book alone; any other failure invalidates all books and asks for all of
them. Requests can fail, which again invalidates all books, and the other adapters go on in between.
-/

namespace ChainQuantStudio.State

open Data Exchanges.Depth OrderBook Run

namespace OrderBook.LocalOrderBook

def Ready (book : LocalOrderBook) : Prop := book.isSynchronized = true ∨ book.sequenceId = none

theorem ready_load {book : LocalOrderBook} (snapshot : OrderBookSnapshot) :
    (book.load snapshot false).Ready := by
  cases h : snapshot.metadata.sequenceId with
  | none => exact Or.inr h
  | some sequenceId => exact Or.inl (by simp [load, h])

theorem Ready.applySnapshot {book : LocalOrderBook} (h : book.Ready)
    (snapshot : OrderBookSnapshot) : (book.applySnapshot snapshot false).1.Ready := by
  obtain ⟨e, heq⟩ | ⟨heq, -⟩ | ⟨heq, -⟩ := applySnapshot_cases book snapshot false
  · rw [heq]
    exact h
  · rw [heq]
    exact h
  · rw [heq]
    exact ready_load snapshot

theorem ready_of_applySnapshot_ok {book : LocalOrderBook} {snapshot : OrderBookSnapshot}
    {applied : Bool} (h : (book.applySnapshot snapshot false).2 = .ok applied) :
    (book.applySnapshot snapshot false).1.Ready := by
  obtain ⟨e, heq⟩ | ⟨heq, hsync⟩ | ⟨heq, -⟩ := applySnapshot_cases book snapshot false
  · rw [heq] at h
    cases h
  · rw [heq]
    exact Or.inl hsync
  · rw [heq]
    exact ready_load snapshot

theorem Ready.applyDelta {book : LocalOrderBook} (h : book.Ready) {delta : OrderBookDelta}
    {applied : Bool} (hok : (book.applyDelta delta).2 = .ok applied) :
    (book.applyDelta delta).1.Ready ∧ book.isSynchronized = true := by
  obtain ⟨e, heq, -⟩ | ⟨e, heq, -⟩ | ⟨current, final, hr, -, -, -, ⟨-, heq⟩ | ⟨-, heq⟩⟩ :=
    applyDelta_cases book delta
  · rw [heq] at hok
    cases hok
  · rw [heq] at hok
    cases hok
  · have hsync : book.isSynchronized = true := h.resolve_right hr.1
    rw [heq]
    exact ⟨h, hsync⟩
  · have hsync : book.isSynchronized = true := h.resolve_right hr.1
    rw [heq]
    exact ⟨Or.inl rfl, hsync⟩

end OrderBook.LocalOrderBook

namespace Supervisor

namespace DepthSupervisor

def Avoids (instrument : Instrument) : Input → Prop
  | .event event _ fetched => event.metadata.instrument ≠ instrument ∧
    ∀ snapshot, fetched = some snapshot → snapshot.metadata.instrument ≠ instrument
  | .bootstrap snapshot => snapshot.metadata.instrument ≠ instrument
  | .disconnect other => other ≠ instrument

theorem step_avoids {instrument : Instrument} {supervisor : DepthSupervisor} {input : Input}
    (h : Avoids instrument input) :
    (supervisor.step input).state.book instrument = supervisor.state.book instrument := by
  refine @step_other instrument (fun _ => (supervisor.state.book instrument).bridgingDelta 0)
    supervisor input ?_
  cases input with
  | event event recycle fetched => exact h
  | bootstrap snapshot => exact h
  | disconnect other => exact h

theorem resyncOrderBook_requires (supervisor : DepthSupervisor)
    (fetched : Option OrderBookSnapshot) :
    (supervisor.resyncOrderBook fetched).1.requiresStreamOrderBookBootstrap =
      supervisor.requiresStreamOrderBookBootstrap := by
  cases fetched with
  | none => rfl
  | some snapshot =>
    rcases h : supervisor.state.applyOrderBookSnapshot snapshot
      (supervisor.requiresStreamOrderBookBootstrap snapshot.metadata.instrument) with
      ⟨state, outcome⟩
    cases outcome <;> simp [resyncOrderBook, applyOrderBookSnapshot, h]

theorem step_requires (supervisor : DepthSupervisor) (input : Input) :
    (supervisor.step input).requiresStreamOrderBookBootstrap =
      supervisor.requiresStreamOrderBookBootstrap := by
  cases input with
  | event event recycle fetched => exact supervisor.processEvent_requires event recycle fetched
  | bootstrap snapshot => rfl
  | disconnect instrument => rfl

theorem ready_resyncOrderBook {supervisor after : DepthSupervisor} {snapshot : OrderBookSnapshot}
    {instrument : Instrument} (hi : snapshot.metadata.instrument = instrument)
    (h : supervisor.resyncOrderBook (some snapshot) = (after, .ok ())) :
    (supervisor.requiresStreamOrderBookBootstrap instrument = false →
      (after.state.book instrument).Ready) ∧
    ∀ other, other ≠ instrument → after.state.book other = supervisor.state.book other := by
  subst hi
  have hbook := supervisor.state.applyOrderBookSnapshot_book snapshot
    (supervisor.requiresStreamOrderBookBootstrap snapshot.metadata.instrument)
  rcases happly : (supervisor.state.book snapshot.metadata.instrument).applySnapshot snapshot
    (supervisor.requiresStreamOrderBookBootstrap snapshot.metadata.instrument) with ⟨book, outcome⟩
  have hstate : supervisor.state.applyOrderBookSnapshot snapshot
      (supervisor.requiresStreamOrderBookBootstrap snapshot.metadata.instrument) =
      (supervisor.state.withBook book, outcome) := by
    simp only [DepthState.applyOrderBookSnapshot, happly]
  simp only [resyncOrderBook, applyOrderBookSnapshot, hstate] at h
  rw [hstate] at hbook
  cases outcome with
  | error e => cases h
  | ok applied =>
    cases h
    constructor
    · intro hrequires
      rw [hrequires] at happly
      have hok : ((supervisor.state.book snapshot.metadata.instrument).applySnapshot snapshot
          false).2 = .ok applied := by rw [happly]
      have hready := LocalOrderBook.ready_of_applySnapshot_ok hok
      have hthis := hbook snapshot.metadata.instrument
      rw [if_pos rfl, hrequires] at hthis
      change ((supervisor.state.withBook book).book _).Ready
      rw [show (supervisor.state.withBook book).book _ = _ from hthis]
      exact hready
    · intro other hother
      exact (hbook other).trans (if_neg hother)

def LeavesReady (instrument : Instrument) : DepthSupervisor × Except Escaped Unit → Prop
  | (after, .ok ()) => (after.state.book instrument).Ready
  | (after, .error (.orderBookStreamGap gap)) =>
    instrument = gap ∨ (after.state.book instrument).Ready
  | (_, .error _) => True

theorem leavesReady_of_ready {instrument : Instrument} {after : DepthSupervisor}
    (h : (after.state.book instrument).Ready) (outcome : Except Escaped Unit) :
    LeavesReady instrument (after, outcome) := by
  cases outcome with
  | ok done => exact h
  | error escaped =>
    cases escaped with
    | orderBookStreamGap gap => exact Or.inr h
    | staleStreamBacklog message => trivial
    | fetchFailed => trivial
    | raised e => trivial

theorem leavesReady_processEvent {supervisor : DepthSupervisor} {instrument : Instrument}
    (hready : (supervisor.state.book instrument).Ready) (event : DepthEvent) :
    LeavesReady instrument (supervisor.processEvent event true none) := by
  unfold processEvent
  cases supervisor.ingestionPolicy.rejectionReason event.metadata with
  | some rejection =>
    have hafter : ((supervisor.reject event rejection true).1.state.book instrument).Ready := by
      rw [reject_book]
      exact hready
    exact leavesReady_of_ready hafter _
  | none =>
    cases event with
    | snapshot snapshot =>
      have hbook := supervisor.state.applyOrderBookSnapshot_book snapshot false instrument
      rcases happly : supervisor.state.applyOrderBookSnapshot snapshot false with ⟨state, outcome⟩
      rw [happly] at hbook
      have hafter : (state.book instrument).Ready := by
        rw [show state.book instrument = _ from hbook]
        split_ifs
        · exact hready.applySnapshot snapshot
        · exact hready
      simp only [happly]
      cases outcome with
      | error e => trivial
      | ok applied => exact hafter
    | delta delta =>
      have hbook := supervisor.state.applyDelta_book delta instrument
      have houtcome := supervisor.state.applyDelta_outcome delta
      rcases happly : supervisor.state.applyDelta delta with ⟨state, outcome⟩
      rw [happly] at hbook houtcome
      replace hbook : state.book instrument = _ := hbook
      replace houtcome : outcome = _ := houtcome
      simp only [happly, if_true]
      by_cases hi : instrument = delta.metadata.instrument
      · rcases outcome with (message | message) | applied
        · exact Or.inl hi
        · trivial
        · rw [← hi] at houtcome
          rw [if_pos hi, DepthState.deltaCalls, ← houtcome] at hbook
          change (state.book instrument).Ready
          rw [hbook]
          exact (hready.applyDelta houtcome.symm).1
      · rw [if_neg hi] at hbook
        have hafter : (state.book instrument).Ready := by
          rw [hbook]
          exact hready
        rcases outcome with (message | message) | applied
        · exact Or.inr hafter
        · trivial
        · exact hafter

end DepthSupervisor

inductive LoopPhase
  | waiting
  | recovering (mode : RecoveryMode) (remaining : List Instrument)
  | streaming
  deriving DecidableEq, Repr

/-- What `_consume_forever` keeps for the books of an adapter. -/
structure BookLoop where
  supervisor : DepthSupervisor
  pendingOrderBookResyncs : Finset Instrument := ∅
  recoveryMode : Option RecoveryMode := none
  phase : LoopPhase := .waiting

inductive Happening
  | wake (long : Bool)
  | recover (fetched : Option OrderBookSnapshot)
  | event (event : DepthEvent)
  | fail
  | elsewhere (input : DepthSupervisor.Input)

namespace BookLoop

variable (instruments : List Instrument)

def invalidateAll (supervisor : DepthSupervisor) : DepthSupervisor :=
  { supervisor with state := instruments.foldl DepthState.invalidateOrderBook supervisor.state }

/-- The `except` branch. -/
def interrupt (loop : BookLoop) (escaped : Escaped) : BookLoop :=
  match escaped with
  | .orderBookStreamGap instrument =>
    { loop with
      pendingOrderBookResyncs := insert instrument loop.pendingOrderBookResyncs
      recoveryMode := some .orderBook
      phase := .waiting }
  | _ =>
    { loop with
      supervisor := invalidateAll instruments loop.supervisor
      recoveryMode := some .shortDisconnect
      phase := .waiting }

def wake (loop : BookLoop) (long : Bool) : BookLoop :=
  match loop.recoveryMode with
  | none => { loop with phase := .streaming }
  | some mode =>
    { loop with
      phase := .recovering (if mode = .shortDisconnect ∧ long then .full else mode) instruments }

/-- One turn of the loop of `_recover_adapter`. In a full recovery the snapshot is applied by
`_warm_instrument`, after its other requests. -/
def recover (loop : BookLoop) (mode : RecoveryMode) (instrument : Instrument)
    (remaining : List Instrument) (fetched : Option OrderBookSnapshot) : BookLoop :=
  if mode = .orderBook ∧ instrument ∉ loop.pendingOrderBookResyncs then
    { loop with phase := .recovering mode remaining }
  else
    match loop.supervisor.resyncOrderBook fetched with
    | (supervisor, .error escaped) => interrupt instruments { loop with supervisor } escaped
    | (supervisor, .ok ()) =>
      { loop with
        supervisor
        pendingOrderBookResyncs :=
          if mode = .orderBook then loop.pendingOrderBookResyncs.erase instrument
          else loop.pendingOrderBookResyncs
        phase := .recovering mode remaining }

def consume (loop : BookLoop) (event : DepthEvent) : BookLoop :=
  match loop.supervisor.processEvent event true none with
  | (supervisor, .error escaped) => interrupt instruments { loop with supervisor } escaped
  | (supervisor, .ok ()) => { loop with supervisor }

def step (loop : BookLoop) (happening : Happening) : BookLoop :=
  match happening, loop.phase with
  | .wake long, .waiting => loop.wake instruments long
  | .recover _, .recovering _ [] => { loop with recoveryMode := none, phase := .streaming }
  | .recover fetched, .recovering mode (instrument :: remaining) =>
    loop.recover instruments mode instrument remaining fetched
  | .event event, .streaming => loop.consume instruments event
  | .fail, .recovering _ _ | .fail, .streaming =>
    interrupt instruments loop .fetchFailed
  | .elsewhere input, _ => { loop with supervisor := loop.supervisor.step input }
  | _, _ => loop

def Faithful (loop : BookLoop) : Happening → Prop
  | .recover (some snapshot) => ∀ mode instrument remaining,
    loop.phase = .recovering mode (instrument :: remaining) →
      snapshot.metadata.instrument = instrument
  | .elsewhere input => ∀ instrument ∈ instruments, DepthSupervisor.Avoids instrument input
  | _ => True

/-- The book is one of those that the recovery still asks for before the next generation. -/
def Awaits (loop : BookLoop) (instrument : Instrument) : Prop :=
  match loop.phase, loop.recoveryMode with
  | .streaming, _ => False
  | .recovering mode remaining, _ =>
    instrument ∈ remaining ∧ (mode = .orderBook → instrument ∈ loop.pendingOrderBookResyncs)
  | .waiting, none => False
  | .waiting, some mode => mode = .orderBook → instrument ∈ loop.pendingOrderBookResyncs

structure Sound (loop : BookLoop) : Prop where
  requires : ∀ instrument ∈ instruments,
    loop.supervisor.requiresStreamOrderBookBootstrap instrument = false
  ready : ∀ instrument ∈ instruments,
    loop.Awaits instrument ∨ (loop.supervisor.state.book instrument).Ready

variable {instruments}

theorem sound_interrupt {loop : BookLoop} {escaped : Escaped}
    (hrequires : ∀ instrument ∈ instruments,
      loop.supervisor.requiresStreamOrderBookBootstrap instrument = false)
    (hgap : ∀ gap, escaped ≠ .orderBookStreamGap gap) :
    Sound instruments (interrupt instruments loop escaped) := by
  cases escaped with
  | orderBookStreamGap gap => exact absurd rfl (hgap gap)
  | staleStreamBacklog message => exact ⟨hrequires, fun _ _ => Or.inl fun h => by cases h⟩
  | fetchFailed => exact ⟨hrequires, fun _ _ => Or.inl fun h => by cases h⟩
  | raised e => exact ⟨hrequires, fun _ _ => Or.inl fun h => by cases h⟩

theorem Sound.wake {loop : BookLoop} (h : Sound instruments loop)
    (hwaiting : loop.phase = .waiting) (long : Bool) :
    Sound instruments (loop.wake instruments long) := by
  rcases loop with ⟨supervisor, pending, recoveryMode, phase⟩
  subst hwaiting
  cases recoveryMode with
  | none => exact ⟨h.requires, fun i hi => Or.inr ((h.ready i hi).resolve_left id)⟩
  | some mode =>
    refine ⟨h.requires, fun i hi => (h.ready i hi).imp_left fun hawaits => ⟨hi, fun hmode => ?_⟩⟩
    apply hawaits
    split_ifs at hmode with hlong
    exact hmode

theorem Sound.recover {loop : BookLoop} (h : Sound instruments loop) {mode : RecoveryMode}
    {instrument : Instrument} {remaining : List Instrument}
    (hphase : loop.phase = .recovering mode (instrument :: remaining))
    {fetched : Option OrderBookSnapshot}
    (hfaithful : ∀ snapshot, fetched = some snapshot → snapshot.metadata.instrument = instrument) :
    Sound instruments (loop.recover instruments mode instrument remaining fetched) := by
  rcases loop with ⟨supervisor, pending, recoveryMode, phase⟩
  subst hphase
  unfold BookLoop.recover
  by_cases hskip : mode = .orderBook ∧ instrument ∉ pending
  · rw [if_pos hskip]
    refine ⟨h.requires, fun i hi => (h.ready i hi).imp_left fun hawaits => ⟨?_, hawaits.2⟩⟩
    refine (List.mem_cons.mp hawaits.1).resolve_left fun heq => hskip.2 ?_
    exact heq ▸ hawaits.2 hskip.1
  · rw [if_neg hskip]
    have hrequires := supervisor.resyncOrderBook_requires fetched
    rcases hresync : supervisor.resyncOrderBook fetched with ⟨after, outcome⟩
    rw [hresync] at hrequires
    have hafter : ∀ i ∈ instruments, after.requiresStreamOrderBookBootstrap i = false := by
      intro i hi
      rw [show after.requiresStreamOrderBookBootstrap = _ from hrequires]
      exact h.requires i hi
    cases fetched with
    | none =>
      cases hresync
      exact sound_interrupt hafter fun gap => by intro heq; cases heq
    | some snapshot =>
      cases outcome with
      | error escaped =>
        refine sound_interrupt hafter fun gap => ?_
        intro heq
        simp only [DepthSupervisor.resyncOrderBook] at hresync
        split at hresync
        · cases hresync
          cases heq
        · cases hresync
      | ok done =>
        obtain ⟨hready, hother⟩ :=
          DepthSupervisor.ready_resyncOrderBook (hfaithful snapshot rfl) hresync
        refine ⟨hafter, fun i hi => ?_⟩
        by_cases heq : i = instrument
        · exact Or.inr (heq ▸ hready (heq ▸ h.requires i hi))
        · rw [show after.state.book i = _ from hother i heq]
          refine (h.ready i hi).imp_left fun hawaits => ⟨?_, fun hmode => ?_⟩
          · exact (List.mem_cons.mp hawaits.1).resolve_left heq
          · subst hmode
            exact Finset.mem_erase.mpr ⟨heq, hawaits.2 rfl⟩

theorem Sound.consume {loop : BookLoop} (h : Sound instruments loop)
    (hphase : loop.phase = .streaming) (event : DepthEvent) :
    Sound instruments (loop.consume instruments event) := by
  rcases loop with ⟨supervisor, pending, recoveryMode, phase⟩
  subst hphase
  have hready : ∀ i ∈ instruments,
      DepthSupervisor.LeavesReady i (supervisor.processEvent event true none) :=
    fun i hi => DepthSupervisor.leavesReady_processEvent ((h.ready i hi).resolve_left id) event
  have hrequires := supervisor.processEvent_requires event true none
  unfold BookLoop.consume
  rcases hprocess : supervisor.processEvent event true none with ⟨after, outcome⟩
  rw [hprocess] at hready hrequires
  have hafter : ∀ i ∈ instruments, after.requiresStreamOrderBookBootstrap i = false := by
    intro i hi
    rw [show after.requiresStreamOrderBookBootstrap = _ from hrequires]
    exact h.requires i hi
  cases outcome with
  | ok done => exact ⟨hafter, fun i hi => Or.inr (hready i hi)⟩
  | error escaped =>
    by_cases hgap : ∃ gap, escaped = .orderBookStreamGap gap
    · obtain ⟨gap, rfl⟩ := hgap
      refine ⟨hafter, fun i hi => ?_⟩
      rcases hready i hi with heq | hbook
      · exact Or.inl fun _ => heq ▸ Finset.mem_insert_self i pending
      · exact Or.inr hbook
    · exact sound_interrupt hafter fun gap heq => hgap ⟨gap, heq⟩

theorem Sound.step {loop : BookLoop} (h : Sound instruments loop) {happening : Happening}
    (hfaithful : Faithful instruments loop happening) :
    Sound instruments (loop.step instruments happening) := by
  cases happening with
  | wake long =>
    cases hphase : loop.phase with
    | waiting =>
      simp only [BookLoop.step, hphase]
      exact h.wake hphase long
    | recovering mode remaining => simpa only [BookLoop.step, hphase] using h
    | streaming => simpa only [BookLoop.step, hphase] using h
  | recover fetched =>
    cases hphase : loop.phase with
    | waiting => simpa only [BookLoop.step, hphase] using h
    | recovering mode remaining =>
      cases remaining with
      | nil =>
        simp only [BookLoop.step, hphase]
        refine ⟨h.requires, fun i hi => Or.inr ((h.ready i hi).resolve_left ?_)⟩
        simp only [Awaits, hphase, List.not_mem_nil, false_and, not_false_eq_true]
      | cons instrument remaining =>
        simp only [BookLoop.step, hphase]
        refine h.recover hphase fun snapshot heq => ?_
        subst heq
        exact hfaithful mode instrument remaining hphase
    | streaming => simpa only [BookLoop.step, hphase] using h
  | event event =>
    cases hphase : loop.phase with
    | waiting => simpa only [BookLoop.step, hphase] using h
    | recovering mode remaining => simpa only [BookLoop.step, hphase] using h
    | streaming =>
      simp only [BookLoop.step, hphase]
      exact h.consume hphase event
  | fail =>
    cases hphase : loop.phase with
    | waiting => simpa only [BookLoop.step, hphase] using h
    | recovering mode remaining =>
      simp only [BookLoop.step, hphase]
      exact sound_interrupt h.requires fun gap heq => by cases heq
    | streaming =>
      simp only [BookLoop.step, hphase]
      exact sound_interrupt h.requires fun gap heq => by cases heq
  | elsewhere input =>
    simp only [BookLoop.step]
    refine ⟨fun i hi => ?_, fun i hi => ?_⟩
    · exact (congrFun (DepthSupervisor.step_requires loop.supervisor input) i).trans
        (h.requires i hi)
    · rw [show (loop.supervisor.step input).state.book i = _ from
        DepthSupervisor.step_avoids (hfaithful i hi)]
      exact h.ready i hi

theorem sound_run {loop : BookLoop} (h : Sound instruments loop) {happenings : List Happening}
    (hfaithful : Guarded (step instruments) (Faithful instruments) loop happenings) :
    Sound instruments (run (step instruments) loop happenings) :=
  run_invariant_of_guarded (Sound instruments) (fun _ _ hsound => hsound.step) h hfaithful

/-- An adapter without bootstrap, from books that are ready: in every run, with requests that fail
and any failure of the stream in between, all its books are ready as long as a generation streams.
Its stream changes no book by a delta that is not synchronized. -/
theorem streams_on_ready_books (instruments : List Instrument) (supervisor : DepthSupervisor)
    (hrequires : ∀ instrument ∈ instruments,
      supervisor.requiresStreamOrderBookBootstrap instrument = false)
    (hwarm : ∀ instrument ∈ instruments, (supervisor.state.book instrument).Ready)
    (happenings : List Happening)
    (hfaithful : Guarded (step instruments) (Faithful instruments) { supervisor } happenings)
    (hstreaming : (run (step instruments) { supervisor } happenings).phase = .streaming)
    (instrument : Instrument) (hmem : instrument ∈ instruments) :
    let book := (run (step instruments) { supervisor } happenings).supervisor.state.book instrument
    book.Ready ∧ ∀ delta applied, (book.applyDelta delta).2 = .ok applied →
      book.isSynchronized = true := by
  intro book
  have hstart : Sound instruments { supervisor } :=
    ⟨hrequires, fun i hi => Or.inr (hwarm i hi)⟩
  have hsound := sound_run hstart hfaithful
  have hready : book.Ready := by
    refine (hsound.ready instrument hmem).resolve_left ?_
    simp only [Awaits, hstreaming, not_false_eq_true]
  exact ⟨hready, fun delta applied hok => (hready.applyDelta hok).2⟩

/-! A gap, a request that fails, and the recovery of all books. -/

def okxPerpetual : Instrument := btcUsdt .okx .linearPerpetual

def okxSnapshot (sequenceId : ℤ) : OrderBookSnapshot :=
  { metadata := .numbered okxPerpetual sequenceId 0, bids := [], asks := [] }

def unconnectedDelta : OrderBookDelta :=
  { metadata := .numbered okxPerpetual 9 0, bids := [], asks := [], previousSequenceId := some 7 }

def gapHappenings : List Happening :=
  [.wake false, .event (.snapshot (okxSnapshot 5)), .event (.delta unconnectedDelta), .wake false,
    .recover none, .wake false, .recover (some (okxSnapshot 9)), .recover none]

theorem gapHappenings_faithful :
    Guarded (step [okxPerpetual]) (Faithful [okxPerpetual])
      { supervisor := Followed.emptySupervisor } gapHappenings := by
  refine ⟨trivial, trivial, trivial, trivial, trivial, trivial, ?_, trivial, trivial⟩
  intro mode instrument remaining hphase
  have hrecovering := hphase.symm.trans
    (show _ = LoopPhase.recovering .shortDisconnect [okxPerpetual] by decide +kernel)
  cases hrecovering
  rfl

theorem streams_on_ready_books_of_gap :
    let book := (run (step [okxPerpetual]) { supervisor := Followed.emptySupervisor }
      gapHappenings).supervisor.state.book okxPerpetual
    book.Ready ∧ ∀ delta applied, (book.applyDelta delta).2 = .ok applied →
      book.isSynchronized = true :=
  streams_on_ready_books [okxPerpetual] Followed.emptySupervisor (fun _ _ => rfl)
    (fun _ _ => Or.inr rfl) gapHappenings gapHappenings_faithful (by decide +kernel) okxPerpetual
    (List.mem_singleton_self _)

end BookLoop

end Supervisor

end ChainQuantStudio.State
