import ChainQuantStudio.State.MarketHistories

/-!
# Histories and lost synchronization

A result of a query should not reach back over a moment at which the book was not synchronized. An
invalidation advances the generation and clears the histories; a snapshot that waits for a bridge
does neither, so what decides is whether it falls on a book whose generation has observations.
-/

namespace ChainQuantStudio.State.Market

open BoundedDeque Data OrderBook Run Supervisor

namespace MarketState

/-- No result reaches back over a moment of the run at which the book was not synchronized. -/
def SpansNoGap (start : MarketState) (ops : List MarketOp) : Prop :=
  ∀ instrument before, before <+: ops →
    ((run step start before).depth.book instrument).isSynchronized = false →
    (∀ item ∈ (run step start ops).getOrderBookHistory instrument, before.length ≤ item.call) ∧
    ∀ boundary item, (run step start ops).bestLevelAt instrument boundary = some item →
      before.length ≤ item.call

/-- A snapshot takes the book out of synchronization only while its history shows nothing. -/
def DesynchronizesUnobserved (state : MarketState) : MarketOp → Prop
  | .snapshot snapshot bridge =>
    let book := state.depth.book snapshot.metadata.instrument
    book.isSynchronized = true → book.snapshotIsStale snapshot = false →
      (bridge = true ∨ snapshot.metadata.sequenceId = none) →
      state.getOrderBookHistory snapshot.metadata.instrument = []
  | _ => True

variable {state : MarketState} {instrument : Instrument}

theorem newestLevel_eq_some {generation : ℕ} {limit : ℚ} {boundary : Instant}
    {history : List (Recorded BestLevelObservation)} {item : Recorded BestLevelObservation}
    (h : newestLevel generation limit boundary history = some item) :
    item ∈ history ∧ item.observation.generation = generation := by
  induction history with
  | nil => cases h
  | cons newest older ih =>
    unfold newestLevel at h
    split_ifs at h with hgeneration hbefore hfresh
    · obtain rfl : newest = item := Option.some.inj h
      exact ⟨List.mem_cons_self, not_not.mp hgeneration⟩
    · obtain ⟨hmem, heq⟩ := ih h
      exact ⟨List.mem_cons_of_mem _ hmem, heq⟩

theorem book_of_orderBooks {depth : DepthState} {book : LocalOrderBook}
    (h : depth.orderBooks instrument = some book) : depth.book instrument = book := by
  rw [DepthState.book, h, Option.getD_some]

theorem retained_of_getOrderBookHistory {item : Recorded OrderBookObservation}
    (h : item ∈ state.getOrderBookHistory instrument) :
    ((state.depth.book instrument).generation, item.call) ∈ state.retained instrument := by
  unfold getOrderBookHistory at h
  cases hbook : state.depth.orderBooks instrument with
  | none => simp [hbook] at h
  | some book =>
    simp only [hbook, List.mem_filter, beq_iff_eq] at h
    rw [book_of_orderBooks hbook, ← h.2]
    exact mem_retained.mpr (Or.inl ⟨item, h.1, rfl⟩)

theorem retained_of_bestLevelAt {boundary : Instant} {item : Recorded BestLevelObservation}
    (h : state.bestLevelAt instrument boundary = some item) :
    ((state.depth.book instrument).generation, item.call) ∈ state.retained instrument := by
  unfold bestLevelAt at h
  cases hbook : state.depth.orderBooks instrument with
  | none => simp [hbook] at h
  | some book =>
    simp only [hbook] at h
    split_ifs at h with hsync
    obtain ⟨hmem, hgeneration⟩ := newestLevel_eq_some h
    rw [book_of_orderBooks hbook, ← hgeneration]
    exact mem_retained.mpr (Or.inr ⟨item, List.mem_reverse.mp hmem, rfl⟩)

def Dated (state : MarketState) : Prop :=
  ∀ instrument, ∀ p ∈ state.retained instrument,
    p.1 ≤ (state.depth.book instrument).generation ∧ p.2 < state.calls

theorem calls_run (start : MarketState) (ops : List MarketOp) :
    (run step start ops).calls = start.calls + ops.length := by
  induction ops generalizing start with
  | nil => rfl
  | cons op ops ih =>
    rw [run_cons, ih, List.length_cons]
    change start.calls + 1 + ops.length = start.calls + (ops.length + 1)
    omega

theorem dated_step (op : MarketOp) (h : state.Dated) : (state.step op).Dated := by
  intro instrument p hp
  have hevolves : Evolves _ state (state.step op) instrument := step_evolves op instrument
  have hcalls : (state.step op).calls = state.calls + 1 := rfl
  rcases hevolves.recorded p hp with hold | ⟨rfl, _⟩
  · have hdated := h instrument p hold
    exact ⟨hdated.1.trans hevolves.generation_le, by omega⟩
  · exact ⟨le_rfl, by simp [hcalls]⟩

theorem dated_run (settings : MarketSettings) (ops : List MarketOp) :
    (run step (new settings) ops).Dated :=
  run_invariant Dated (fun _ op h => dated_step op h) (fun _ p hp => by cases hp) ops

structure Apart (start : MarketState) (ops : List MarketOp) (instrument : Instrument) : Prop where
  unsynchronized : ((run step start ops).depth.book instrument).isSynchronized = false →
    ∀ p ∈ (run step start ops).retained instrument,
      p.1 ≠ ((run step start ops).depth.book instrument).generation
  later : ∀ before, before <+: ops →
    ((run step start before).depth.book instrument).isSynchronized = false →
    ∀ p ∈ (run step start ops).retained instrument,
      p.1 = ((run step start ops).depth.book instrument).generation → before.length ≤ p.2

theorem apart_append {settings : MarketSettings} {ops : List MarketOp} {op : MarketOp}
    (h : Apart (new settings) ops instrument)
    (hempty : (run step (new settings) ops).DesynchronizesEmpty op) :
    Apart (new settings) (ops ++ [op]) instrument := by
  have hdated := dated_run settings ops instrument
  have hcalls : (run step (new settings) ops).calls = ops.length := by
    rw [calls_run]
    exact Nat.zero_add _
  have hevolves : Evolves _ (run step (new settings) ops)
      ((run step (new settings) ops).step op) instrument := step_evolves op instrument
  have hkept : ∀ p ∈ (run step (new settings) ops).retained instrument,
      p.1 = ((run step (new settings) (ops ++ [op])).depth.book instrument).generation →
      p.1 = ((run step (new settings) ops).depth.book instrument).generation := by
    intro p hp heq
    have hle := (hdated p hp).1
    have hge := hevolves.generation_le
    rw [run_append, run_cons, run_nil] at heq
    omega
  have hunsynchronized : ((run step (new settings) (ops ++ [op])).depth.book
        instrument).isSynchronized = false →
      ∀ p ∈ (run step (new settings) (ops ++ [op])).retained instrument,
        p.1 ≠ ((run step (new settings) (ops ++ [op])).depth.book instrument).generation := by
    intro hsync p hp heq
    have hsame := hkept p
    simp only [run_append, run_cons, run_nil] at hsync hp heq hsame
    rcases hevolves.recorded p hp with hold | ⟨_, hnow⟩
    · rcases hevolves.dropped hempty hsync with ⟨hbefore, _⟩ | hdropped
      · exact h.unsynchronized hbefore p hold (hsame hold heq)
      · exact hdropped p hold hp heq
    · rw [hsync] at hnow
      cases hnow
  refine ⟨hunsynchronized, fun before hprefix hsync p hp heq => ?_⟩
  rcases List.prefix_concat_iff.mp hprefix with rfl | hprefix
  · exact absurd heq (hunsynchronized hsync p hp)
  · have hold := hp
    rw [run_append, run_cons, run_nil] at hold
    rcases hevolves.recorded p hold with hold | ⟨rfl, _⟩
    · exact h.later before hprefix hsync p hold (hkept p hold heq)
    · rw [hcalls]
      exact hprefix.length_le

theorem apart_run {settings : MarketSettings} {ops : List MarketOp}
    (hguard : Guarded step DesynchronizesEmpty (new settings) ops) (instrument : Instrument) :
    Apart (new settings) ops instrument := by
  induction ops using List.reverseRecOn with
  | nil =>
    refine ⟨fun _ p hp => ?_, fun _ _ _ p hp => ?_⟩
    · cases hp
    · cases hp
  | append_singleton ops op ih =>
    obtain ⟨hbefore, hop⟩ := guarded_append.mp hguard
    exact apart_append (ih hbefore) hop.1

theorem spansNoGap_of_guarded {settings : MarketSettings} {ops : List MarketOp}
    (hguard : Guarded step DesynchronizesEmpty (new settings) ops) :
    SpansNoGap (new settings) ops := by
  intro instrument before hprefix hsync
  have hapart := apart_run hguard instrument
  constructor
  · intro item hitem
    exact hapart.later before hprefix hsync _ (retained_of_getOrderBookHistory hitem) rfl
  · intro boundary item hitem
    exact hapart.later before hprefix hsync _ (retained_of_bestLevelAt hitem) rfl

theorem desynchronizes_keeps {snapshot : OrderBookSnapshot} {bridge : Bool}
    (hstale : (state.depth.book snapshot.metadata.instrument).snapshotIsStale snapshot = false)
    (hlost : bridge = true ∨ snapshot.metadata.sequenceId = none) :
    let after := state.step (.snapshot snapshot bridge)
    (after.depth.book snapshot.metadata.instrument).isSynchronized = false ∧
      ∀ item ∈ state.getOrderBookHistory snapshot.metadata.instrument,
        item ∈ after.getOrderBookHistory snapshot.metadata.instrument := by
  set instrument := snapshot.metadata.instrument with hinstrument
  set loaded := (state.depth.book instrument).load snapshot bridge with hloaded
  have hkey := state.depth.book_instrument instrument
  have hload : loaded.instrument = instrument := hkey
  have hcall : state.depth.applyOrderBookSnapshot snapshot bridge =
      (state.depth.withBook loaded, .ok true) := by
    simp [DepthState.applyOrderBookSnapshot, LocalOrderBook.applySnapshot, ← hinstrument, hkey,
      hstale, hloaded]
  have hsync : loaded.isSynchronized = false := by
    rcases hlost with rfl | hnone <;> simp [LocalOrderBook.load, *]
  have hview : loaded.view.isSynchronized = false := hsync
  have hbook : (state.depth.withBook loaded).book instrument = loaded := by
    rw [DepthState.book_withBook, hload, if_pos rfl]
  have hrecord : { state with depth := state.depth.withBook loaded }.recordOrderBook instrument
      snapshot.metadata.receivedAt = { state with depth := state.depth.withBook loaded } := by
    simp [recordOrderBook, recordBestLevel, recordRange, hbook, hview]
  intro after
  have hafter : after =
      { state with depth := state.depth.withBook loaded, calls := state.calls + 1 } := by
    simp only [after, step, call, applyOrderBookSnapshot, hcall, ← hinstrument, hrecord]
  constructor
  · rw [hafter]
    dsimp only
    rw [hbook]
    exact hsync
  · intro item hitem
    rw [hafter]
    unfold getOrderBookHistory at hitem ⊢
    cases hold : state.depth.orderBooks instrument with
    | none => simp [hold] at hitem
    | some book =>
      have hnew : (state.depth.withBook loaded).orderBooks instrument =
          some (book.load snapshot bridge) := by
        rw [DepthState.withBook]
        dsimp only
        rw [hload, Function.update_self, hloaded, book_of_orderBooks hold]
      rw [hold] at hitem
      dsimp only
      rw [hnew]
      exact hitem

theorem desynchronizesUnobserved_of_spansNoGap {settings : MarketSettings} {ops : List MarketOp}
    {op : MarketOp} (h : SpansNoGap (new settings) (ops ++ [op])) :
    (run step (new settings) ops).DesynchronizesUnobserved op := by
  cases op with
  | snapshot snapshot bridge =>
    intro _ hstale hlost
    apply List.eq_nil_iff_forall_not_mem.mpr
    intro item hitem
    obtain ⟨hsync, hkeeps⟩ := desynchronizes_keeps hstale hlost
    have hdated := dated_run settings ops _ _ (retained_of_getOrderBookHistory hitem)
    rw [calls_run] at hdated
    have hlater := (h snapshot.metadata.instrument (ops ++ [.snapshot snapshot bridge])
      List.prefix_rfl (by simpa using hsync)).1 item (by simpa using hkeeps item hitem)
    rw [List.length_append, List.length_singleton] at hlater
    have hzero : (new settings).calls = 0 := rfl
    omega
  | delta delta => trivial
  | invalidate instrument => trivial

/-- Results never reach back over a lost synchronization in a run whose snapshots take a book out
of synchronization only while nothing of its generation is kept; and such a run is needed as far as
the sampled history is concerned. -/
theorem histories_span_no_gap (settings : MarketSettings) (ops : List MarketOp) :
    (Guarded step DesynchronizesEmpty (new settings) ops → SpansNoGap (new settings) ops) ∧
      ((∀ upto, upto <+: ops → SpansNoGap (new settings) upto) →
        Guarded step DesynchronizesUnobserved (new settings) ops) := by
  refine ⟨spansNoGap_of_guarded, fun h => ?_⟩
  induction ops using List.reverseRecOn with
  | nil => trivial
  | append_singleton ops op ih =>
    apply guarded_append.mpr
    refine ⟨ih fun upto hupto => h upto (hupto.trans (List.prefix_append ops [op])), ?_, trivial⟩
    exact desynchronizesUnobserved_of_spansNoGap (h (ops ++ [op]) List.prefix_rfl)

/-! A book is bridged by delta 101, a recovery loads snapshot 110 and delta 111 bridges it. -/

def defaultSettings : MarketSettings where
  depth_pos := DepthState.default_depth_pos
  range_pos := MarketSettings.default_range_pos
  range_lt := MarketSettings.default_range_lt
  size_ge := MarketSettings.default_size_ge
  sample_pos := MarketSettings.default_sample_pos

def level (price : ℚ) (price_pos : 0 < price) : BookLevel where
  price := price
  quantity := 1
  price_pos := price_pos
  quantity_nonneg := zero_le_one

def recoveredBook : List MarketOp :=
  let instrument := btcUsdt .binance .linearPerpetual
  let bids := [level 99 (by norm_num)]
  let asks := [level 101 (by norm_num)]
  [.snapshot { metadata := .numbered instrument 100 0, bids, asks } true,
    .delta
      { metadata := .numbered instrument 101 1, bids, asks
        firstSequenceId := some 100, previousSequenceId := some 99 },
    .snapshot { metadata := .numbered instrument 110 2, bids, asks } true,
    .delta
      { metadata := .numbered instrument 111 3, bids, asks
        firstSequenceId := some 110, previousSequenceId := some 109 }]

theorem history_reaches_over_recovery : ¬ SpansNoGap (new defaultSettings) recoveredBook := by
  intro h
  have hsync : ((run step (new defaultSettings) (recoveredBook.take 3)).depth.book
      (btcUsdt .binance .linearPerpetual)).isSynchronized = false := by decide +kernel
  have hcall : ((run step (new defaultSettings) recoveredBook).getOrderBookHistory
      (btcUsdt .binance .linearPerpetual)).any (fun item => item.call == 1) = true := by
    decide +kernel
  obtain ⟨item, hitem, heq⟩ := List.any_eq_true.mp hcall
  have hlater := (h _ _ (List.take_prefix 3 recoveredBook) hsync).1 item hitem
  rw [beq_iff_eq.mp heq] at hlater
  exact absurd hlater (by decide)

end MarketState

end ChainQuantStudio.State.Market
