import ChainQuantStudio.Exchanges.Depth
import ChainQuantStudio.Library.Run
import ChainQuantStudio.State.OrderBook
import Mathlib.Data.Finset.Insert

/-!
# A book that follows a stream of numbered updates

The updates of a venue for one instrument are an infinite sequence; the calls of a run name the
updates by their place in it. `Tracked` follows the run: which update the book has reached, and
which ones have been applied since the last accepted snapshot.
-/

namespace ChainQuantStudio.State.OrderBook

open Data Exchanges.Depth Run

inductive Numbering (exchange : Exchange) (deltas : ℕ → OrderBookDelta) (final : ℕ → ℤ) : Prop
  | intervals (venue : exchange = .binance) (increasing : StrictMono final)
      (first : ∀ i, ∃ first, (deltas (i + 1)).firstSequenceId = some first ∧ 0 < first ∧
        final i < first)
      (previous : ∀ i, (deltas (i + 1)).previousSequenceId = none ∨
        (deltas (i + 1)).previousSequenceId = some (final i))
  | chain (venue : exchange = .okx)
      (previous : ∀ i, (deltas (i + 1)).previousSequenceId = some (final i))
      (fresh : ∀ i j, i < j → (deltas i).previousSequenceId = (deltas j).previousSequenceId →
        ∀ m, i ≤ m → m < j → (deltas m).previousSequenceId = some (final m))
  | bare (venue : declaresPrevious exchange = false) (increasing : StrictMono final)
      (previous : ∀ i, (deltas i).previousSequenceId = none)

structure NumberedBy (instrument : Instrument) (deltas : ℕ → OrderBookDelta) (final : ℕ → ℤ) :
    Prop where
  instrument_eq : ∀ i, (deltas i).metadata.instrument = instrument
  final_eq : ∀ i, (deltas i).metadata.sequenceId = some (final i)
  numbering : Numbering instrument.exchange deltas final

/-- The deltas are what the adapter makes of the venue's messages. -/
structure Decodes (instrument : Instrument) (messages : ℕ → DepthMessage)
    (received : ℕ → Instant) (deltas : ℕ → OrderBookDelta) : Prop where
  venue : VenueStream instrument messages
  parsed : ∀ i, parseDepth instrument (received i) (messages i) = .delta (deltas i)

theorem strictMono_of_range {data : ℕ → BinanceDepthUpdate}
    (range : ∀ i, 0 < (data i).U ∧ (data i).U ≤ (data i).u)
    (next : ∀ i, (data i).u < (data (i + 1)).U) : StrictMono fun i => (data i).u := by
  apply strictMono_nat_of_lt_succ
  intro i
  exact (next i).trans_le (range (i + 1)).2

theorem Decodes.numberedBy {instrument : Instrument} {messages : ℕ → DepthMessage}
    {received : ℕ → Instant} {deltas : ℕ → OrderBookDelta}
    (h : Decodes instrument messages received deltas) :
    ∃ final, NumberedBy instrument deltas final := by
  obtain ⟨venue, parsed⟩ := h
  cases venue with
  | binanceSpot data exchange market range next =>
    have hd : ∀ i, binanceSpotDelta instrument (received i) (data i) = deltas i :=
      fun i => DepthEvent.delta.inj (parsed i)
    have hlt : ∀ i, (data i).u < (data (i + 1)).U := fun i => by have := next i; omega
    refine ⟨fun i => (data i).u, fun i => by rw [← hd i]; rfl, fun i => by rw [← hd i]; rfl,
      .intervals exchange (strictMono_of_range range hlt) (fun i => ?_) fun i => Or.inl ?_⟩
    · exact ⟨(data (i + 1)).U, by rw [← hd (i + 1)]; rfl, (range (i + 1)).1, hlt i⟩
    · rw [← hd (i + 1)]; rfl
  | binanceFutures data exchange market range next =>
    have hd : ∀ i, binanceFuturesDelta instrument (received i) (data i) = deltas i :=
      fun i => DepthEvent.delta.inj (parsed i)
    have hlt : ∀ i, (data i).u < (data (i + 1)).U := fun i => (next i).2
    refine ⟨fun i => (data i).u, fun i => by rw [← hd i]; rfl, fun i => by rw [← hd i]; rfl,
      .intervals exchange (strictMono_of_range range hlt) (fun i => ?_) fun i => Or.inr ?_⟩
    · exact ⟨(data (i + 1)).U, by rw [← hd (i + 1)]; rfl, (range (i + 1)).1, hlt i⟩
    · rw [← hd (i + 1), ← (next i).1]; rfl
  | okx rows exchange next fresh =>
    have hd : ∀ i, okxDelta instrument (received i) (rows i) = deltas i :=
      fun i => DepthEvent.delta.inj (by simpa [parseDepth] using parsed i)
    have hp : ∀ i, (deltas i).previousSequenceId = some (rows i).prevSeqId :=
      fun i => by rw [← hd i]; rfl
    refine ⟨fun i => (rows i).seqId, fun i => by rw [← hd i]; rfl, fun i => by rw [← hd i]; rfl,
      .chain exchange (fun i => by rw [hp, next i]) fun i j hij heq m him hmj => ?_⟩
    rw [hp, hp, Option.some.injEq] at heq
    rw [hp, fresh i j hij heq m him hmj]
  | bybit rows exchange next delta increasing =>
    have hd : ∀ i, bybitDelta instrument (received i) (rows i) = deltas i :=
      fun i => DepthEvent.delta.inj (by simpa [parseDepth, delta i] using parsed i)
    exact ⟨fun i => (rows i).sequence, fun i => by rw [← hd i]; rfl, fun i => by rw [← hd i]; rfl,
      .bare (by rw [exchange]; rfl) increasing fun i => by rw [← hd i]; rfl⟩

inductive StreamCall
  | snapshot (position : ℕ) (snapshot : OrderBookSnapshot) (requireDeltaBridge : Bool)
  | delta (index : ℕ)
  | invalidate
  deriving DecidableEq, Repr

def StreamCall.op (deltas : ℕ → OrderBookDelta) : StreamCall → BookOp
  | .snapshot _ event bridge => .snapshot event bridge
  | .delta index => .delta (deltas index)
  | .invalidate => .invalidate

/-- A book numbered `n` holds exactly the updates before `position`. -/
def StandsAt (exchange : Exchange) (deltas : ℕ → OrderBookDelta) (position : ℕ) (n : ℤ) : Prop :=
  if exchange = .okx then (deltas position).previousSequenceId = some n
  else ∀ i final, (deltas i).metadata.sequenceId = some final → (final ≤ n ↔ i < position)

def CallTrue (instrument : Instrument) (deltas : ℕ → OrderBookDelta) : StreamCall → Prop
  | .snapshot position snapshot _ => snapshot.metadata.instrument = instrument →
    ∀ n, snapshot.metadata.sequenceId = some n → StandsAt instrument.exchange deltas position n
  | _ => True

def Updates (delta : OrderBookDelta) : Prop :=
  delta.previousSequenceId ≠ delta.metadata.sequenceId

structure Tracked where
  book : LocalOrderBook
  base : ℕ
  next : ℕ
  applied : Finset ℕ

namespace Tracked

def new (book : LocalOrderBook) : Tracked := { book, base := 0, next := 0, applied := ∅ }

def step (deltas : ℕ → OrderBookDelta) (tracked : Tracked) (call : StreamCall) : Tracked :=
  let (book, outcome) := tracked.book.call (call.op deltas)
  match call, outcome with
  | .snapshot position _ _, .ok true => { book, base := position, next := position, applied := ∅ }
  | .delta index, .ok true =>
    { tracked with book, next := index + 1, applied := insert index tracked.applied }
  | _, _ => { tracked with book }

def NoneMissed (deltas : ℕ → OrderBookDelta) (tracked : Tracked) : Prop :=
  ∀ i, tracked.base ≤ i → i < tracked.next → Updates (deltas i) → i ∈ tracked.applied

def NextInLine (tracked : Tracked) : StreamCall → Prop
  | .delta index => declaresPrevious tracked.book.instrument.exchange = false →
    tracked.book.Receptive → index ≤ tracked.next
  | _ => True

theorem step_book (deltas : ℕ → OrderBookDelta) (tracked : Tracked) (call : StreamCall) :
    (tracked.step deltas call).book = tracked.book.step (call.op deltas) := by
  rcases h : tracked.book.call (call.op deltas) with ⟨book, outcome⟩
  rcases outcome with e | b
  · cases call <;> simp [step, LocalOrderBook.step, h]
  · cases b <;> cases call <;> simp [step, LocalOrderBook.step, h]

structure Follows (instrument : Instrument) (deltas : ℕ → OrderBookDelta) (tracked : Tracked) :
    Prop where
  instrument_eq : tracked.book.instrument = instrument
  position : ∀ n, tracked.book.sequenceId = some n →
    StandsAt instrument.exchange deltas tracked.next n
  noneMissed : NoneMissed deltas tracked
  below : ∀ i ∈ tracked.applied, i < tracked.next
  reached : tracked.base ≤ tracked.next

theorem follows_new (instrument : Instrument) (deltas : ℕ → OrderBookDelta) (depth : ℕ)
    (depth_pos : 0 < depth) :
    Follows instrument deltas (new (.new instrument depth depth_pos)) := by
  refine ⟨rfl, fun n hn => ?_, fun i _ hi => ?_, fun i hi => ?_, le_rfl⟩
  · simp [new, LocalOrderBook.new] at hn
  · exact absurd hi (Nat.not_lt_zero i)
  · exact absurd hi (Finset.notMem_empty i)

theorem standsAt_of_increasing {exchange : Exchange} {deltas : ℕ → OrderBookDelta}
    {final : ℕ → ℤ} (hvenue : exchange ≠ .okx)
    (hfinal : ∀ i, (deltas i).metadata.sequenceId = some (final i)) (hmono : StrictMono final)
    (i : ℕ) : StandsAt exchange deltas (i + 1) (final i) := by
  unfold StandsAt
  rw [if_neg hvenue]
  intro j f hf
  obtain rfl : final j = f := by simpa [hfinal j] using hf
  rw [hmono.le_iff_le, Nat.lt_succ_iff]

theorem placed_of_follows {instrument : Instrument} {deltas : ℕ → OrderBookDelta}
    {final : ℕ → ℤ} (hn : NumberedBy instrument deltas final) {book : LocalOrderBook}
    (hi : book.instrument = instrument) {next : ℕ} {current : ℤ}
    (hs : StandsAt instrument.exchange deltas next current) {i : ℕ}
    (hline : declaresPrevious instrument.exchange = false → i ≤ next)
    (hk : book.continuity (deltas i) current (final i) = .follows) :
    next ≤ i + 1 ∧ (∀ m, next ≤ m → m < i → ¬ Updates (deltas m)) ∧
      StandsAt instrument.exchange deltas (i + 1) (final i) := by
  subst hi
  cases hn.numbering with
  | intervals venue increasing first previous =>
    have hvenue : book.instrument.exchange ≠ .okx := by simp [venue]
    have hstand : ∀ j, final j ≤ current ↔ j < next := by
      intro j
      simp only [StandsAt, hvenue, if_false] at hs
      exact hs j (final j) (hn.final_eq j)
    simp only [LocalOrderBook.continuity, venue] at hk
    obtain ⟨hle, hwhy⟩ := LocalOrderBook.validateBinance_follows hk
    have hafter : next ≤ i + 1 := by
      by_contra hlt
      have h1 := (hstand (i + 1)).mpr (by omega)
      have h2 : final i < final (i + 1) := increasing (Nat.lt_succ_self i)
      omega
    have hbefore : i ≤ next := by
      cases i with
      | zero => exact Nat.zero_le next
      | succ k =>
        have hk' : final k ≤ current := by
          obtain ⟨f, hf, hpos, hlt⟩ := first k
          rcases hwhy with hp | hfirst
          · rcases previous k with hnone | hsome
            · simp [hnone] at hp
            · exact (Option.some.inj (hsome.symm.trans hp)).le
          · rw [LocalOrderBook.firstSequence, hf] at hfirst
            simp only [hpos.ne', if_false] at hfirst
            omega
        exact (hstand k).mp hk'
    refine ⟨hafter, fun m h1 h2 => by omega, ?_⟩
    exact standsAt_of_increasing hvenue hn.final_eq increasing i
  | chain venue previous fresh =>
    simp only [StandsAt, venue, if_true] at hs ⊢
    simp only [LocalOrderBook.continuity, venue, LocalOrderBook.requirePreviousSequence] at hk
    split_ifs at hk with hstale hp
    have hnot : ¬ i < next := by
      intro hlt
      have hself := fresh i next hlt (by rw [hp, hs]) i le_rfl hlt
      exact hstale (Option.some.inj (hself.symm.trans hp))
    refine ⟨by omega, fun m h1 h2 hup => ?_, previous i⟩
    exact hup ((fresh next i (by omega) (by rw [hp, hs]) m h1 h2).trans (hn.final_eq m).symm)
  | bare venue increasing previous =>
    have hvenue : book.instrument.exchange ≠ .okx := by
      intro h
      simp [h, declaresPrevious] at venue
    simp only [StandsAt, hvenue, if_false] at hs
    rw [LocalOrderBook.continuity_of_undeclared venue] at hk
    split_ifs at hk with hle
    have hnot : ¬ i < next := fun hlt => hle ((hs i (final i) (hn.final_eq i)).mpr hlt)
    have hbefore := hline venue
    refine ⟨by omega, fun m h1 h2 => by omega, ?_⟩
    exact standsAt_of_increasing hvenue hn.final_eq increasing i

theorem Follows.loaded {instrument : Instrument} {deltas : ℕ → OrderBookDelta}
    {tracked : Tracked} (h : Follows instrument deltas tracked) {position : ℕ}
    {snapshot : OrderBookSnapshot} (bridge : Bool)
    (hs : ∀ n, snapshot.metadata.sequenceId = some n →
      StandsAt instrument.exchange deltas position n) :
    Follows instrument deltas
      { book := tracked.book.load snapshot bridge
        base := position
        next := position
        applied := ∅ } := by
  refine ⟨h.instrument_eq, hs, fun i h1 h2 => ?_, fun i hi => ?_, le_rfl⟩
  · exact absurd h2 (not_lt.mpr h1)
  · exact absurd hi (Finset.notMem_empty i)

theorem Follows.advance {instrument : Instrument} {deltas : ℕ → OrderBookDelta}
    {tracked : Tracked} (h : Follows instrument deltas tracked) {i : ℕ} {final : ℤ}
    (hafter : tracked.next ≤ i + 1)
    (hnone : ∀ m, tracked.next ≤ m → m < i → ¬ Updates (deltas m))
    (hs : StandsAt instrument.exchange deltas (i + 1) final) :
    Follows instrument deltas
      { book := tracked.book.advance (deltas i) final
        base := tracked.base
        next := i + 1
        applied := insert i tracked.applied } := by
  refine ⟨h.instrument_eq, fun n hn => ?_, fun m h1 h2 hup => ?_, fun m hm => ?_,
    h.reached.trans hafter⟩
  · obtain rfl : final = n := Option.some.inj hn
    exact hs
  · rw [Finset.mem_insert]
    by_cases hlt : m < tracked.next
    · exact Or.inr (h.noneMissed m h1 hlt hup)
    · left
      by_contra hne
      have h2 : m < i + 1 := h2
      exact hnone m (by omega) (by omega) hup
  · rcases Finset.mem_insert.mp hm with rfl | hm
    · exact Nat.lt_succ_self m
    · exact (h.below m hm).trans_le hafter

theorem Follows.step {instrument : Instrument} {deltas : ℕ → OrderBookDelta} {final : ℕ → ℤ}
    (hn : NumberedBy instrument deltas final) {tracked : Tracked} {call : StreamCall}
    (h : Follows instrument deltas tracked) (hcall : CallTrue instrument deltas call)
    (hline : tracked.NextInLine call) : Follows instrument deltas (tracked.step deltas call) := by
  cases call with
  | snapshot position snapshot bridge =>
    obtain ⟨e, heq⟩ | ⟨heq, -⟩ | ⟨heq, hi⟩ := tracked.book.applySnapshot_cases snapshot bridge
    · simpa [Tracked.step, StreamCall.op, LocalOrderBook.call, heq] using h
    · simpa [Tracked.step, StreamCall.op, LocalOrderBook.call, heq] using h
    · have hs := hcall (hi.trans h.instrument_eq)
      simpa [Tracked.step, StreamCall.op, LocalOrderBook.call, heq] using h.loaded bridge hs
  | delta i =>
    obtain ⟨e, heq, -⟩ | ⟨e, heq, -⟩ | ⟨current, f, hr, hc, hi, hf, hplaced⟩ :=
      tracked.book.applyDelta_cases (deltas i)
    · simpa [Tracked.step, StreamCall.op, LocalOrderBook.call, heq] using h
    · have hinv : Follows instrument deltas { tracked with book := tracked.book.invalidate } :=
        ⟨h.instrument_eq, h.position, h.noneMissed, h.below, h.reached⟩
      simpa [Tracked.step, StreamCall.op, LocalOrderBook.call, heq] using hinv
    · rcases hplaced with ⟨-, heq⟩ | ⟨hk, heq⟩
      · simpa [Tracked.step, StreamCall.op, LocalOrderBook.call, heq] using h
      · obtain rfl : final i = f := by simpa [hn.final_eq i] using hf
        obtain ⟨hafter, hnone, hs⟩ := placed_of_follows hn h.instrument_eq (h.position current hc)
          (fun hv => hline (by rw [h.instrument_eq]; exact hv) hr) hk
        simpa [Tracked.step, StreamCall.op, LocalOrderBook.call, heq] using
          h.advance hafter hnone hs
  | invalidate => exact ⟨h.instrument_eq, h.position, h.noneMissed, h.below, h.reached⟩

theorem follows_run {instrument : Instrument} {deltas : ℕ → OrderBookDelta} {final : ℕ → ℤ}
    (hn : NumberedBy instrument deltas final) {tracked : Tracked} {calls : List StreamCall}
    (h : Follows instrument deltas tracked)
    (hcalls : ∀ call ∈ calls, CallTrue instrument deltas call)
    (hline : Guarded (step deltas) NextInLine tracked calls) :
    Follows instrument deltas (run (step deltas) tracked calls) := by
  induction calls generalizing tracked with
  | nil => exact h
  | cons call calls ih =>
    exact ih (h.step hn (hcalls call (by simp)) hline.1) (fun c hc => hcalls c (by simp [hc]))
      hline.2

theorem applies_ahead {instrument : Instrument} {deltas : ℕ → OrderBookDelta}
    {final : ℕ → ℤ} (hn : NumberedBy instrument deltas final)
    (hv : declaresPrevious instrument.exchange = false) {tracked : Tracked}
    (h : Follows instrument deltas tracked) (hr : tracked.book.Receptive) {i : ℕ}
    (hi : tracked.next < i) :
    tracked.book.applyDelta (deltas i) = (tracked.book.advance (deltas i) (final i), .ok true) := by
  obtain ⟨current, hc⟩ := Option.ne_none_iff_exists'.mp hr.1
  have hvenue : instrument.exchange ≠ .okx := by
    intro hokx
    simp [hokx, declaresPrevious] at hv
  have hstand := h.position current hc
  simp only [StandsAt, hvenue, if_false] at hstand
  have hnew : ¬ final i ≤ current := by
    intro hle
    have := (hstand i (final i) (hn.final_eq i)).mp hle
    omega
  have hk : tracked.book.continuity (deltas i) current (final i) = .follows := by
    rw [LocalOrderBook.continuity_of_undeclared (by rw [h.instrument_eq]; exact hv), if_neg hnew]
  exact LocalOrderBook.applyDelta_of_follows hr hc
    ((hn.instrument_eq i).trans h.instrument_eq.symm) (hn.final_eq i) hk

theorem missed_of_ahead {instrument : Instrument} {deltas : ℕ → OrderBookDelta}
    {final : ℕ → ℤ} (hn : NumberedBy instrument deltas final)
    (hv : declaresPrevious instrument.exchange = false) {tracked : Tracked}
    (h : Follows instrument deltas tracked) (hr : tracked.book.Receptive) {i : ℕ}
    (hi : tracked.next < i) :
    (tracked.step deltas (.delta i)).book.isSynchronized = true ∧
      ¬ NoneMissed deltas (tracked.step deltas (.delta i)) := by
  have hup : Updates (deltas tracked.next) := by
    cases hn.numbering with
    | intervals venue _ _ _ => simp [venue, declaresPrevious] at hv
    | chain venue _ _ => simp [venue, declaresPrevious] at hv
    | bare _ _ previous => simp [Updates, previous, hn.final_eq]
  simp only [Tracked.step, StreamCall.op, LocalOrderBook.call, applies_ahead hn hv h hr hi]
  refine ⟨rfl, fun hnone => ?_⟩
  have hlt : tracked.next < i + 1 := by omega
  rcases Finset.mem_insert.mp (hnone tracked.next h.reached hlt hup) with heq | hmem
  · exact hi.ne heq
  · exact lt_irrefl _ (h.below _ hmem)

end Tracked

end ChainQuantStudio.State.OrderBook
