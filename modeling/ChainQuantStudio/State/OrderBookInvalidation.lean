import ChainQuantStudio.Library.Run
import ChainQuantStudio.State.OrderBook

/-!
# What an invalidated book can still do

`invalidate` clears the synchronized flag and leaves the sequence number and the mark that the
book still waits for its first delta. While both are there a delta can place itself on the book
and synchronize it again, so whether an invalidation lasts is decided by the state it falls on.
-/

namespace ChainQuantStudio.State.OrderBook.LocalOrderBook

open Data Run

/-- The call invalidates the book: directly, or as a delta whose sequence does not connect. -/
def Invalidates (book : LocalOrderBook) (op : BookOp) : Prop :=
  op = .invalidate ∨
    ∃ message, book.call op = (book.invalidate, .error (.orderBookOutOfSync message))

def StaysUnsynchronized (book : LocalOrderBook) : Prop :=
  ∀ later : List BookOp,
    Guarded step (fun current op => ¬ current.AcceptsSnapshot op) book later →
      (run step book later).isSynchronized = false

theorem step_of_invalidates {book : LocalOrderBook} {op : BookOp} (h : book.Invalidates op) :
    book.step op = book.invalidate := by
  rcases h with rfl | ⟨message, h⟩
  · rfl
  · rw [step, h]

theorem step_of_not_receptive {book : LocalOrderBook} (hr : ¬ book.Receptive) {op : BookOp}
    (hop : ¬ book.AcceptsSnapshot op) :
    book.step op = book ∨ book.step op = book.invalidate := by
  cases op with
  | snapshot snapshot bridge =>
    obtain ⟨e, h⟩ | ⟨h, hsync⟩ | ⟨h, -⟩ := applySnapshot_cases book snapshot bridge
    · left; simp [step, call, h]
    · left; simp [step, call, h]
    · exact absurd (by simp [AcceptsSnapshot, h]) hop
  | delta delta =>
    obtain ⟨e, h, -⟩ | ⟨e, h, -⟩ | ⟨_, _, hrec, -⟩ := applyDelta_cases book delta
    · left; simp [step, call, h]
    · right; simp [step, call, h]
    · exact absurd hrec hr
  | invalidate => exact Or.inr rfl

theorem step_keeps_not_receptive (book : LocalOrderBook) (op : BookOp)
    (h : book.isSynchronized = false ∧ ¬ book.Receptive) (hop : ¬ book.AcceptsSnapshot op) :
    (book.step op).isSynchronized = false ∧ ¬ (book.step op).Receptive := by
  rcases step_of_not_receptive h.2 hop with heq | heq
  · rw [heq]; exact h
  · rw [heq]
    refine ⟨rfl, fun hr => h.2 ⟨hr.1, Or.inr ?_⟩⟩
    exact ((invalidate_receptive_iff book).mp hr).2

theorem staysUnsynchronized_of_not_receptive {book : LocalOrderBook}
    (hs : book.isSynchronized = false) (hr : ¬ book.Receptive) : book.StaysUnsynchronized := by
  intro later hlater
  have hinv := run_invariant_of_guarded
    (fun current => current.isSynchronized = false ∧ ¬ current.Receptive)
    step_keeps_not_receptive ⟨hs, hr⟩ hlater
  exact hinv.1

/-- The final sequence number with which a delta bridges a snapshot numbered `current`. -/
def bridgingFinal (book : LocalOrderBook) (current : ℤ) : ℤ :=
  if book.instrument.exchange = .binance ∧ book.instrument.marketType = .linearPerpetual then
    current
  else current + 1

/-- An empty delta that bridges a snapshot numbered `current`. -/
def bridgingDelta (book : LocalOrderBook) (current : ℤ) : OrderBookDelta where
  metadata :=
    { instrument := book.instrument
      exchangeTimestamp := 0
      receivedAt := 0
      sequenceId := some (book.bridgingFinal current) }
  bids := []
  asks := []
  previousSequenceId := some current

theorem continuity_bridgingDelta {book : LocalOrderBook}
    (hf : book.firstDeltaAfterSnapshot = true) (current : ℤ) :
    book.continuity (book.bridgingDelta current) current (book.bridgingFinal current) =
      .follows := by
  cases he : book.instrument.exchange with
  | binance =>
    cases hm : book.instrument.marketType <;>
      simp [continuity, validateBinance, firstSequence, bridgingDelta, bridgingFinal, he, hm, hf]
  | bybit => simp [continuity, bridgingFinal, he]
  | hyperliquid => simp [continuity, bridgingFinal, he]
  | okx =>
    simp [continuity, requirePreviousSequence, bridgingDelta, bridgingFinal, he]

theorem not_staysUnsynchronized_of_receptive {book : LocalOrderBook}
    (hs : book.isSynchronized = false) (hr : book.Receptive) : ¬ book.StaysUnsynchronized := by
  intro hstays
  obtain ⟨current, hc⟩ := Option.ne_none_iff_exists'.mp hr.1
  have hf : book.firstDeltaAfterSnapshot = true := by
    rcases hr.2 with h | h
    · simp [hs] at h
    · exact h
  have happly : book.applyDelta (book.bridgingDelta current) = _ :=
    applyDelta_of_follows hr hc rfl rfl (continuity_bridgingDelta hf current)
  have hend := hstays [.delta (book.bridgingDelta current)] (by simp [AcceptsSnapshot])
  simp [step, call, happly, advance] at hend

/-- In every run, the book a call invalidates stays unsynchronized up to the next accepted
snapshot exactly when it holds no snapshot that still waits for its first delta. -/
theorem invalidated_stays_unsynchronized_iff (instrument : Instrument) (depth : ℕ)
    (depth_pos : 0 < depth) (ops : List BookOp) (op : BookOp)
    (hop : (run step (new instrument depth depth_pos) ops).Invalidates op) :
    let book := run step (new instrument depth depth_pos) ops
    (book.step op).StaysUnsynchronized ↔
      (book.sequenceId = none ∨ book.firstDeltaAfterSnapshot = false) := by
  intro book
  have heq : book.step op = book.invalidate := step_of_invalidates hop
  have hiff := invalidate_receptive_iff book
  rw [heq]
  constructor
  · intro hstays
    by_contra hno
    push Not at hno
    refine not_staysUnsynchronized_of_receptive rfl (hiff.mpr ⟨hno.1, ?_⟩) hstays
    simpa using hno.2
  · intro h
    refine staysUnsynchronized_of_not_receptive rfl fun hr => ?_
    obtain ⟨hseq, hfirst⟩ := hiff.mp hr
    rcases h with h | h
    · exact hseq h
    · simp [hfirst] at h

/-! A snapshot numbered 100 is loaded, the connection drops, and the buffered delta 101 arrives. -/

def snapshotThenDelta : List BookOp :=
  let instrument := btcUsdt .binance .spot
  [.snapshot { metadata := .numbered instrument 100 0, bids := [], asks := [] } false,
    .delta
      { metadata := .numbered instrument 101 1, bids := [], asks := []
        firstSequenceId := some 101 }]

theorem invalidated_stays_unsynchronized_iff_after_first_delta :
    (run step (new (btcUsdt .binance .spot) 100 (by decide))
      snapshotThenDelta).invalidate.StaysUnsynchronized :=
  (invalidated_stays_unsynchronized_iff (btcUsdt .binance .spot) 100 (by decide)
    snapshotThenDelta .invalidate (Or.inl rfl)).mpr (by decide)

theorem invalidated_book_rearmed :
    ¬ ∀ (instrument : Instrument) (depth : ℕ) (depth_pos : 0 < depth) (ops : List BookOp)
      (op : BookOp), (run step (new instrument depth depth_pos) ops).Invalidates op →
        ((run step (new instrument depth depth_pos) ops).step op).StaysUnsynchronized := by
  intro h
  have hstays := h (btcUsdt .binance .spot) 100 (by decide) [snapshotThenDelta.head (by decide)]
    .invalidate (Or.inl rfl) snapshotThenDelta.tail (by simp [snapshotThenDelta, AcceptsSnapshot])
  exact absurd hstays (by decide)

end ChainQuantStudio.State.OrderBook.LocalOrderBook
