import ChainQuantStudio.State.DepthStream

/-!
# Bridging a Binance snapshot with the updates of an open stream

The book has been loaded from a snapshot and takes the updates of the stream from some place on, one
after the other. `Bridgeable` says where the snapshot has to stand for no update to break the
sequence.
-/

namespace ChainQuantStudio.State.OrderBook

open Data Exchanges.Depth Run

def binanceMessage (marketType : MarketType) (data : BinanceDepthUpdate) : DepthMessage :=
  match marketType with
  | .spot => .binanceSpot data
  | .linearPerpetual => .binanceFutures data

/-- The deltas are what the Binance adapters make of the updates. -/
abbrev DecodesBinance (instrument : Instrument) (data : ℕ → BinanceDepthUpdate)
    (received : ℕ → Instant) (deltas : ℕ → OrderBookDelta) : Prop :=
  Decodes instrument (fun i => binanceMessage instrument.marketType (data i)) received deltas

/-- The update reaches beyond a snapshot: it is not one that the first comparison skips. -/
def Reaches (marketType : MarketType) (number : ℤ) (update : BinanceDepthUpdate) : Prop :=
  match marketType with
  | .spot => number < update.u
  | .linearPerpetual => number ≤ update.u

/-- A stream taken up at `place` bridges a snapshot of this number: on spot the first update does
not start later than the number after it, on a perpetual the number lies in one of the updates. -/
def Bridgeable (marketType : MarketType) (data : ℕ → BinanceDepthUpdate) (place : ℕ) (number : ℤ) :
    Prop :=
  match marketType with
  | .spot => (data place).U ≤ number + 1
  | .linearPerpetual => ∃ i, place ≤ i ∧ (data i).U ≤ number ∧ number ≤ (data i).u

structure BinanceUpdates (instrument : Instrument) (data : ℕ → BinanceDepthUpdate)
    (deltas : ℕ → OrderBookDelta) : Prop where
  exchange : instrument.exchange = .binance
  instrument_eq : ∀ i, (deltas i).metadata.instrument = instrument
  final_eq : ∀ i, (deltas i).metadata.sequenceId = some (data i).u
  first_eq : ∀ i, (deltas i).firstSequenceId = some (data i).U
  range : ∀ i, 0 < (data i).U ∧ (data i).U ≤ (data i).u
  next_lt : ∀ i, (data i).u < (data (i + 1)).U
  spot : instrument.marketType = .spot →
    ∀ i, (deltas i).previousSequenceId = none ∧ (data (i + 1)).U = (data i).u + 1
  perpetual : instrument.marketType = .linearPerpetual →
    ∀ i, (deltas (i + 1)).previousSequenceId = some (data i).u

theorem DecodesBinance.updates {instrument : Instrument} {data : ℕ → BinanceDepthUpdate}
    {received : ℕ → Instant} {deltas : ℕ → OrderBookDelta}
    (h : DecodesBinance instrument data received deltas) :
    BinanceUpdates instrument data deltas := by
  obtain ⟨venue, parsed⟩ := h
  generalize hmessages : (fun i => binanceMessage instrument.marketType (data i)) = messages
    at venue
  have hmessage := congrFun hmessages
  cases venue with
  | binanceSpot rows exchange market range next =>
    rw [market] at parsed hmessage
    obtain rfl : rows = data := funext fun i => (DepthMessage.binanceSpot.inj (hmessage i)).symm
    have hd : ∀ i, binanceSpotDelta instrument (received i) (rows i) = deltas i :=
      fun i => DepthEvent.delta.inj (parsed i)
    refine ⟨exchange, fun i => by rw [← hd i]; rfl, fun i => by rw [← hd i]; rfl,
      fun i => by rw [← hd i]; rfl, range, fun i => ?_, fun _ i => ⟨by rw [← hd i]; rfl, next i⟩,
      fun hmarket => ?_⟩
    · have := next i
      omega
    · rw [market] at hmarket
      cases hmarket
  | binanceFutures rows exchange market range next =>
    rw [market] at parsed hmessage
    obtain rfl : rows = data := funext fun i => (DepthMessage.binanceFutures.inj (hmessage i)).symm
    have hd : ∀ i, binanceFuturesDelta instrument (received i) (rows i) = deltas i :=
      fun i => DepthEvent.delta.inj (parsed i)
    refine ⟨exchange, fun i => by rw [← hd i]; rfl, fun i => by rw [← hd i]; rfl,
      fun i => by rw [← hd i]; rfl, range, fun i => (next i).2, fun hmarket => ?_, fun _ i => ?_⟩
    · rw [market] at hmarket
      cases hmarket
    · rw [← hd (i + 1), ← (next i).1]
      rfl
  | okx rows exchange next fresh =>
    have hspot := hmessage 0
    cases hmarket : instrument.marketType <;> simp [binanceMessage, hmarket] at hspot
  | bybit rows exchange next delta increasing =>
    have hspot := hmessage 0
    cases hmarket : instrument.marketType <;> simp [binanceMessage, hmarket] at hspot

namespace BinanceUpdates

variable {instrument : Instrument} {data : ℕ → BinanceDepthUpdate} {deltas : ℕ → OrderBookDelta}
  {place : ℕ} {number : ℤ}

theorem final_strictMono (h : BinanceUpdates instrument data deltas) :
    StrictMono fun i => (data i).u :=
  strictMono_of_range h.range h.next_lt

theorem exists_reaches (h : BinanceUpdates instrument data deltas) (place : ℕ) (number : ℤ) :
    ∃ k, Reaches instrument.marketType number (data (place + k)) := by
  have hgrows : ∀ k : ℕ, (data place).u + k ≤ (data (place + k)).u := by
    intro k
    induction k with
    | zero => simp
    | succ k ih =>
      have hnext := h.final_strictMono (Nat.lt_succ_self (place + k))
      simp only [Nat.succ_eq_add_one] at hnext
      rw [← Nat.add_assoc]
      push_cast
      omega
  refine ⟨(number - (data place).u).toNat + 1, ?_⟩
  have hreach := hgrows ((number - (data place).u).toNat + 1)
  push_cast at hreach
  have hnumber : number < (data (place + ((number - (data place).u).toNat + 1))).u := by omega
  unfold Reaches
  cases instrument.marketType
  · exact hnumber
  · exact hnumber.le

theorem Reaches.mono (h : BinanceUpdates instrument data deltas) {i j : ℕ} (hij : i ≤ j)
    (hreaches : Reaches instrument.marketType number (data i)) :
    Reaches instrument.marketType number (data j) := by
  have hle : (data i).u ≤ (data j).u := h.final_strictMono.monotone hij
  unfold Reaches at hreaches ⊢
  cases hmarket : instrument.marketType
  · rw [hmarket] at hreaches
    exact lt_of_lt_of_le hreaches hle
  · rw [hmarket] at hreaches
    exact le_trans hreaches hle

def Crossing (instrument : Instrument) (data : ℕ → BinanceDepthUpdate) (place : ℕ) (number : ℤ)
    (taken : ℕ) (book : LocalOrderBook) : Prop :=
  book.instrument = instrument ∧
    ((∀ i < taken, ¬ Reaches instrument.marketType number (data (place + i))) ∧
        book.sequenceId = some number ∧ book.firstDeltaAfterSnapshot = true ∧
        book.isSynchronized = false ∨
      ∃ before, taken = before + 1 ∧
        Reaches instrument.marketType number (data (place + before)) ∧
        book.sequenceId = some (data (place + before)).u ∧
        book.firstDeltaAfterSnapshot = false ∧ book.isSynchronized = true)

theorem Crossing.isSynchronized_iff {taken : ℕ} {book : LocalOrderBook}
    (hcrossing : Crossing instrument data place number taken book) :
    book.isSynchronized = true ↔
      ∃ i < taken, Reaches instrument.marketType number (data (place + i)) := by
  obtain ⟨-, ⟨hnone, -, -, hsync⟩ | ⟨before, rfl, hreaches, -, -, hsync⟩⟩ := hcrossing
  · rw [hsync]
    constructor
    · intro hfalse
      cases hfalse
    · rintro ⟨i, hi, hreaches⟩
      exact absurd hreaches (hnone i hi)
  · exact ⟨fun _ => ⟨before, Nat.lt_succ_self before, hreaches⟩, fun _ => hsync⟩

theorem applyDelta_eq (h : BinanceUpdates instrument data deltas) {book : LocalOrderBook}
    (hbook : book.instrument = instrument) {current : ℤ} (hcurrent : book.sequenceId = some current)
    (hready : book.isSynchronized = true ∨ book.firstDeltaAfterSnapshot = true) (i : ℕ) :
    book.applyDelta (deltas i) =
      match book.validateBinance (deltas i) current (data i).u with
      | .follows => (book.advance (deltas i) (data i).u, .ok true)
      | .stale => (book, .ok false)
      | .gap message => (book.invalidate, .error (.orderBookOutOfSync message)) := by
  have hn : (!book.isSynchronized && !book.firstDeltaAfterSnapshot) = false := by
    rcases hready with hready | hready <;> simp [hready]
  have hcontinuity : book.continuity (deltas i) current (data i).u =
      book.validateBinance (deltas i) current (data i).u := by
    simp only [LocalOrderBook.continuity, hbook, h.exchange]
  cases hvalid : book.validateBinance (deltas i) current (data i).u <;>
    simp only [LocalOrderBook.applyDelta, h.instrument_eq, hbook, ne_eq, not_true_eq_false, if_false,
      hcurrent, hn, Bool.false_eq_true, h.final_eq, hcontinuity, hvalid]

theorem firstSequence_eq (h : BinanceUpdates instrument data deltas) (i : ℕ) :
    LocalOrderBook.firstSequence (deltas i) (data i).u = (data i).U := by
  simp only [LocalOrderBook.firstSequence, h.first_eq]
  rw [if_neg (h.range i).1.ne']

def Meets (instrument : Instrument) (number : ℤ) (update : BinanceDepthUpdate) : Prop :=
  match instrument.marketType with
  | .spot => update.U ≤ number + 1
  | .linearPerpetual => update.U ≤ number

section

variable {book : LocalOrderBook} (h : BinanceUpdates instrument data deltas)
  (hbook : book.instrument = instrument) (hfirst : book.firstDeltaAfterSnapshot = true)

include h hbook hfirst

omit h in
theorem stale_of_not_reaches {i : ℕ} (hnot : ¬ Reaches instrument.marketType number (data i)) :
    book.validateBinance (deltas i) number (data i).u = .stale := by
  simp only [LocalOrderBook.validateBinance, hfirst, if_true, hbook, Reaches] at hnot ⊢
  cases hmarket : instrument.marketType
  · simp only [hmarket, not_lt] at hnot
    simp [hnot]
  · simp only [hmarket, not_le] at hnot
    simp [hnot]

theorem follows_of_meets {i : ℕ} (hreaches : Reaches instrument.marketType number (data i))
    (hmeets : Meets instrument number (data i)) :
    book.validateBinance (deltas i) number (data i).u = .follows := by
  simp only [LocalOrderBook.validateBinance, hfirst, if_true, hbook, h.firstSequence_eq, Reaches,
    Meets] at hreaches hmeets ⊢
  cases hmarket : instrument.marketType
  · simp only [hmarket] at hreaches hmeets
    have hnext : number + 1 ≤ (data i).u := hreaches
    simp [hnext, hmeets, not_le.mpr hreaches]
  · simp only [hmarket] at hreaches hmeets
    simp [hreaches, hmeets, not_lt.mpr hreaches]

theorem gap_of_not_meets {i : ℕ} (hreaches : Reaches instrument.marketType number (data i))
    (hmeets : ¬ Meets instrument number (data i)) :
    ∃ message, book.validateBinance (deltas i) number (data i).u = .gap message := by
  simp only [LocalOrderBook.validateBinance, hfirst, if_true, hbook, h.firstSequence_eq, Reaches,
    Meets] at hreaches hmeets ⊢
  cases hmarket : instrument.marketType
  · simp only [hmarket] at hreaches hmeets
    simp [hmeets, not_le.mpr hreaches]
  · simp only [hmarket] at hreaches hmeets
    simp [hmeets, not_lt.mpr hreaches]

end

theorem follows_of_bridged (h : BinanceUpdates instrument data deltas) {book : LocalOrderBook}
    (hfirst : book.firstDeltaAfterSnapshot = false) (i : ℕ) :
    book.validateBinance (deltas (i + 1)) (data i).u (data (i + 1)).u = .follows := by
  have hlt := h.next_lt i
  have hrange := h.range (i + 1)
  have hnew : ¬ (data (i + 1)).u ≤ (data i).u := by omega
  simp only [LocalOrderBook.validateBinance, hfirst, Bool.false_eq_true, if_false, hnew,
    h.firstSequence_eq]
  cases hmarket : instrument.marketType
  · obtain ⟨hprevious, -⟩ := h.spot hmarket (i + 1)
    have hnext := (h.spot hmarket i).2
    have hreach : (data i).u + 1 ≤ (data (i + 1)).u := by omega
    simp [hprevious, hnext, hreach]
  · simp [h.perpetual hmarket i, LocalOrderBook.requirePreviousSequence]

theorem Crossing.next (h : BinanceUpdates instrument data deltas) {taken : ℕ}
    {book : LocalOrderBook} (hcrossing : Crossing instrument data place number taken book)
    (hmeets : (∀ i < taken, ¬ Reaches instrument.marketType number (data (place + i))) →
      Reaches instrument.marketType number (data (place + taken)) →
      Meets instrument number (data (place + taken))) :
    ∃ after applied, book.applyDelta (deltas (place + taken)) = (after, .ok applied) ∧
      Crossing instrument data place number (taken + 1) after := by
  obtain ⟨hbook, ⟨hnone, hnumber, hfirst, hsync⟩ | ⟨before, rfl, hreaches, hnumber, hfirst, hsync⟩⟩ :=
    hcrossing
  · have hdelta := applyDelta_eq h hbook hnumber (Or.inr hfirst) (place + taken)
    by_cases hreaches : Reaches instrument.marketType number (data (place + taken))
    · rw [follows_of_meets h hbook hfirst hreaches (hmeets hnone hreaches)] at hdelta
      exact ⟨_, true, hdelta, hbook, Or.inr ⟨taken, rfl, hreaches, rfl, rfl, rfl⟩⟩
    · rw [stale_of_not_reaches hbook hfirst hreaches] at hdelta
      refine ⟨_, false, hdelta, hbook, Or.inl ⟨fun i hi => ?_, hnumber, hfirst, hsync⟩⟩
      rcases Nat.lt_succ_iff_lt_or_eq.mp hi with hlt | rfl
      · exact hnone i hlt
      · exact hreaches
  · have hdelta := applyDelta_eq h hbook hnumber (Or.inl hsync) (place + before + 1)
    rw [follows_of_bridged h hfirst] at hdelta
    have hlater : Reaches instrument.marketType number (data (place + (before + 1))) :=
      Reaches.mono h (by omega) hreaches
    exact ⟨_, true, hdelta, hbook, Or.inr ⟨before + 1, rfl, hlater, rfl, rfl, rfl⟩⟩

theorem bridgeable_iff (h : BinanceUpdates instrument data deltas) :
    Bridgeable instrument.marketType data place number ↔
      ∀ k, (∀ i < k, ¬ Reaches instrument.marketType number (data (place + i))) →
        Reaches instrument.marketType number (data (place + k)) →
        Meets instrument number (data (place + k)) := by
  constructor
  · intro hbridge k hnone hreaches
    unfold Bridgeable at hbridge
    unfold Reaches at hnone hreaches
    unfold Meets
    cases hmarket : instrument.marketType with
    | spot =>
      simp only [hmarket, not_lt] at hbridge hnone hreaches ⊢
      cases k with
      | zero => exact hbridge
      | succ k =>
        have hbefore := hnone k (Nat.lt_succ_self k)
        have hnext := (h.spot hmarket (place + k)).2
        rw [← Nat.add_assoc]
        omega
    | linearPerpetual =>
      simp only [hmarket, not_le] at hbridge hnone hreaches ⊢
      obtain ⟨i, hplace, hstart, hend⟩ := hbridge
      have hle : k ≤ i - place := by
        by_contra hlt
        have hbefore := hnone (i - place) (by omega)
        rw [Nat.add_sub_cancel' hplace] at hbefore
        omega
      have hstarts : (data (place + k)).U ≤ (data i).U := by
        rcases Nat.eq_or_lt_of_le (show place + k ≤ i by omega) with heq | hlt
        · rw [heq]
        · have hlast : (data (place + k)).u ≤ (data (i - 1)).u :=
            h.final_strictMono.monotone (by omega)
          have hnext := h.next_lt (i - 1)
          rw [Nat.sub_add_cancel (by omega)] at hnext
          have hrange := h.range (place + k)
          omega
      omega
  · intro hmeets
    obtain ⟨k, hreaches, hnone⟩ : ∃ k, Reaches instrument.marketType number (data (place + k)) ∧
        ∀ i < k, ¬ Reaches instrument.marketType number (data (place + i)) := by
      classical
      exact ⟨Nat.find (h.exists_reaches place number), Nat.find_spec (h.exists_reaches place number),
        fun i hi => Nat.find_min (h.exists_reaches place number) hi⟩
    have hstart := hmeets k hnone hreaches
    unfold Meets at hstart
    unfold Reaches at hreaches
    unfold Bridgeable
    cases hmarket : instrument.marketType with
    | spot =>
      simp only [hmarket] at hstart hreaches ⊢
      rcases Nat.eq_zero_or_pos k with rfl | hpos
      · exact hstart
      · have hstarts : (data place).U ≤ (data (place + k)).U := by
          have hlast : (data place).u ≤ (data (place + k - 1)).u :=
            h.final_strictMono.monotone (by omega)
          have hnext := h.next_lt (place + k - 1)
          rw [Nat.sub_add_cancel (by omega)] at hnext
          have hrange := h.range place
          omega
        omega
    | linearPerpetual =>
      simp only [hmarket] at hstart hreaches ⊢
      exact ⟨place + k, Nat.le_add_right _ _, hstart, hreaches⟩

theorem crossing_load {book : LocalOrderBook} (hbook : book.instrument = instrument)
    {snapshot : OrderBookSnapshot} (hnumber : snapshot.metadata.sequenceId = some number) :
    Crossing instrument data place number 0 (book.load snapshot true) :=
  ⟨hbook, Or.inl ⟨fun i hi => absurd hi (Nat.not_lt_zero i), hnumber, rfl, by
    simp [LocalOrderBook.load]⟩⟩

end BinanceUpdates

/-- The book after the first updates of a stream taken up at `place`. -/
def crossed (deltas : ℕ → OrderBookDelta) (place : ℕ) (book : LocalOrderBook) (count : ℕ) :
    LocalOrderBook :=
  run LocalOrderBook.step book ((List.range count).map fun i => .delta (deltas (place + i)))

theorem crossed_succ (deltas : ℕ → OrderBookDelta) (place : ℕ) (book : LocalOrderBook) (count : ℕ) :
    crossed deltas place book (count + 1) =
      ((crossed deltas place book count).applyDelta (deltas (place + count))).1 := by
  simp [crossed, List.range_succ, LocalOrderBook.step, LocalOrderBook.call]

theorem crossing_crossed {instrument : Instrument} {data : ℕ → BinanceDepthUpdate}
    {deltas : ℕ → OrderBookDelta} (h : BinanceUpdates instrument data deltas) {place : ℕ}
    {number : ℤ} {book : LocalOrderBook}
    (hstart : BinanceUpdates.Crossing instrument data place number 0 book)
    (hbridge : Bridgeable instrument.marketType data place number) (count : ℕ) :
    BinanceUpdates.Crossing instrument data place number count (crossed deltas place book count) := by
  have hmeets := (BinanceUpdates.bridgeable_iff h).mp hbridge
  induction count with
  | zero => exact hstart
  | succ count ih =>
    obtain ⟨after, applied, hdelta, hafter⟩ := ih.next h (hmeets count)
    rw [crossed_succ, hdelta]
    exact hafter

/-- A book loaded from a snapshot takes the updates of a stream without a break exactly when the
stream bridges the snapshot, and then it is synchronized as soon as an update has reached beyond
the snapshot. -/
theorem updates_connect_iff_bridgeable (instrument : Instrument) (data : ℕ → BinanceDepthUpdate)
    (received : ℕ → Instant) (deltas : ℕ → OrderBookDelta)
    (hdecodes : DecodesBinance instrument data received deltas) (place : ℕ) (book : LocalOrderBook)
    (hbook : book.instrument = instrument) (snapshot : OrderBookSnapshot) (number : ℤ)
    (hnumber : snapshot.metadata.sequenceId = some number) :
    let after := crossed deltas place (book.load snapshot true)
    ((∀ count, ∃ applied, ((after count).applyDelta (deltas (place + count))).2 = .ok applied) ↔
        Bridgeable instrument.marketType data place number) ∧
      (Bridgeable instrument.marketType data place number → ∀ count,
        ((after count).isSynchronized = true ↔
          ∃ i < count, Reaches instrument.marketType number (data (place + i)))) := by
  intro after
  have h := hdecodes.updates
  have hstart : BinanceUpdates.Crossing instrument data place number 0 (book.load snapshot true) :=
    BinanceUpdates.crossing_load hbook hnumber
  refine ⟨⟨fun hconnects => ?_, fun hbridge count => ?_⟩, fun hbridge count => ?_⟩
  · by_contra hnot
    rw [BinanceUpdates.bridgeable_iff h] at hnot
    push Not at hnot
    obtain ⟨count, hnone, hreaches, hmeets⟩ := hnot
    -- up to this update every one before it is skipped
    have hcrossing : BinanceUpdates.Crossing instrument data place number count (after count) := by
      clear hreaches hmeets
      induction count with
      | zero => exact hstart
      | succ count ih =>
        have hbefore : ∀ i < count, ¬ Reaches instrument.marketType number (data (place + i)) :=
          fun i hi => hnone i (Nat.lt_succ_of_lt hi)
        obtain ⟨next, applied, hdelta, hnext⟩ := (ih hbefore).next h
          fun _ hreaches => absurd hreaches (hnone count (Nat.lt_succ_self count))
        change BinanceUpdates.Crossing _ _ _ _ _ (crossed deltas place _ (count + 1))
        rw [crossed_succ, hdelta]
        exact hnext
    obtain ⟨hinstrument, ⟨-, hcurrent, hfirst, -⟩ | ⟨before, rfl, hearlier, -⟩⟩ := hcrossing
    · obtain ⟨message, hgap⟩ := BinanceUpdates.gap_of_not_meets h hinstrument hfirst hreaches hmeets
      obtain ⟨applied, hok⟩ := hconnects count
      rw [BinanceUpdates.applyDelta_eq h hinstrument hcurrent (Or.inr hfirst), hgap] at hok
      cases hok
    · exact hnone before (Nat.lt_succ_self before) hearlier
  · obtain ⟨next, applied, hdelta, -⟩ := (crossing_crossed h hstart hbridge count).next h
      ((BinanceUpdates.bridgeable_iff h).mp hbridge count)
    exact ⟨applied, congrArg Prod.snd hdelta⟩
  · exact (crossing_crossed h hstart hbridge count).isSynchronized_iff

/-! Updates of a perpetual that leave numbers out between them. -/

def holedUpdates (i : ℕ) : BinanceDepthUpdate where
  E := 0
  U := 10 * i + 5
  u := 10 * i + 10
  pu := 10 * i
  b := []
  a := []

def holedDeltas (i : ℕ) : OrderBookDelta :=
  binanceFuturesDelta (btcUsdt .binance .linearPerpetual) 0 (holedUpdates i)

theorem holed_decodes :
    DecodesBinance (btcUsdt .binance .linearPerpetual) holedUpdates (fun _ => 0) holedDeltas := by
  refine ⟨.binanceFutures holedUpdates rfl rfl (fun i => ?_) fun i => ?_, fun _ => rfl⟩
  · simp only [holedUpdates]
    omega
  · simp only [holedUpdates]
    omega

def holedSnapshot (number : ℤ) : OrderBookSnapshot where
  metadata := .numbered (btcUsdt .binance .linearPerpetual) number 0
  bids := []
  asks := []

theorem hundred_pos : 0 < 100 := by decide

theorem updates_connect_iff_bridgeable_of_holed :
    let after := crossed holedDeltas 0
      ((LocalOrderBook.new (btcUsdt .binance .linearPerpetual) 100 hundred_pos).load
        (holedSnapshot 12) true)
    ((∀ count, ∃ applied, ((after count).applyDelta (holedDeltas (0 + count))).2 = .ok applied) ↔
        Bridgeable .linearPerpetual holedUpdates 0 12) ∧
      (Bridgeable .linearPerpetual holedUpdates 0 12 → ∀ count,
        ((after count).isSynchronized = true ↔
          ∃ i < count, Reaches .linearPerpetual 12 (holedUpdates (0 + i)))) :=
  updates_connect_iff_bridgeable (btcUsdt .binance .linearPerpetual) holedUpdates (fun _ => 0)
    holedDeltas holed_decodes 0
    (LocalOrderBook.new (btcUsdt .binance .linearPerpetual) 100 hundred_pos) rfl
    (holedSnapshot 12) 12 rfl

end ChainQuantStudio.State.OrderBook
