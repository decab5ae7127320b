import ChainQuantStudio.State.UnifiedMarket

/-!
# The stored ticker as a merge

Each value of a stored ticker is the newest one that the events since the last invalidation bring,
where an event older than the ticker it meets brings nothing. An event that changes no value is not
stored, and the values are the merged ones all the same.
-/

namespace ChainQuantStudio.State.Market

open Data Run Supervisor

inductive TickerField
  | lastPrice
  | markPrice
  | indexPrice
  | midPrice
  | bestBid
  | bestAsk
  | baseVolume24h
  | quoteVolume24h
  deriving DecidableEq, Repr

namespace TickerField

def value : TickerField → Ticker → Option ℚ
  | .lastPrice, ticker => ticker.lastPrice
  | .markPrice, ticker => ticker.markPrice
  | .indexPrice, ticker => ticker.indexPrice
  | .midPrice, ticker => ticker.midPrice
  | .bestBid, ticker => ticker.bestBid
  | .bestAsk, ticker => ticker.bestAsk
  | .baseVolume24h, ticker => ticker.baseVolume24h
  | .quoteVolume24h, ticker => ticker.quoteVolume24h

/-- The value in the newest of the events, oldest first, that has one. -/
def newest (field : TickerField) (events : List Ticker) : Option ℚ :=
  events.reverse.findSome? field.value

theorem newest_concat (field : TickerField) (events : List Ticker) (event : Ticker) :
    field.newest (events ++ [event]) = (field.value event).or (field.newest events) := by
  unfold newest
  rw [List.reverse_append, List.reverse_singleton, List.singleton_append, List.findSome?_cons]
  cases field.value event <;> rfl

theorem value_mergeTicker (field : TickerField) (previous : Option Ticker) (event : Ticker) :
    field.value (mergeTicker previous event) =
      (field.value event).or (previous.bind field.value) := by
  cases previous with
  | none => exact Option.or_none.symm
  | some previous => cases field <;> rfl

theorem value_eq_of_tickerValues {ticker ticker' : Ticker}
    (h : tickerValues ticker = tickerValues ticker') (field : TickerField) :
    field.value ticker = field.value ticker' := by
  simp only [tickerValues, TickerValues.mk.injEq] at h
  cases field <;> simp only [value, h]

end TickerField

structure Merged (stored : Option Ticker) (events : List Ticker) : Prop where
  stored_iff : stored.isSome = true ↔ events ≠ []
  values : ∀ field : TickerField, stored.bind field.value = field.newest events

theorem merged_none : Merged none [] := ⟨by simp, fun _ => rfl⟩

theorem Merged.forget {tickers : Instrument → Option Ticker} {instrument : Instrument}
    {events : List Ticker} (h : Merged (tickers instrument) events) (other : Instrument) :
    Merged (Function.update tickers other none instrument)
      (if other = instrument then [] else events) := by
  by_cases hother : other = instrument
  · subst hother
    rw [Function.update_self, if_pos rfl]
    exact merged_none
  · rw [Function.update_of_ne (Ne.symm hother), if_neg hother]
    exact h

theorem Merged.apply {stored : Option Ticker} {events : List Ticker} (h : Merged stored events)
    {event : Ticker} (hcurrent : isOlder event.metadata (stored.map (·.metadata)) = false) :
    Merged (applyTicker stored event).1 (events ++ [event]) := by
  have hvalues : ∀ field : TickerField, field.value (mergeTicker stored event) =
      field.newest (events ++ [event]) := by
    intro field
    rw [field.value_mergeTicker, field.newest_concat, h.values]
  cases hstored : stored with
  | none =>
    subst hstored
    refine ⟨by simp [applyTicker, isOlder], fun field => ?_⟩
    simpa [applyTicker, isOlder] using hvalues field
  | some ticker =>
    subst hstored
    unfold applyTicker
    rw [if_neg (Bool.eq_false_iff.mp hcurrent)]
    dsimp only
    split
    case isTrue hsame =>
      -- nothing is stored, and the values agree with the merged ones
      refine ⟨by simp, fun field => ?_⟩
      rw [← hvalues field]
      exact (TickerField.value_eq_of_tickerValues hsame.2 field).symm
    case isFalse => exact ⟨by simp, hvalues⟩

theorem applyTicker_of_isOlder {stored : Option Ticker} {event : Ticker}
    (h : isOlder event.metadata (stored.map (·.metadata)) = true) :
    applyTicker stored event = (stored, false) := by
  simp [applyTicker, h]

namespace UnifiedState

variable {settings : UnifiedSettings}

@[simp] theorem markIf_tickers (state : UnifiedState settings) (event : MarketEvent)
    (applied : Bool) : (state.markIf event applied).tickers = state.tickers := by
  unfold markIf
  split <;> rfl

@[simp] theorem applyOrderBookSnapshot_tickers (state : UnifiedState settings)
    (snapshot : OrderBookSnapshot) (bridge : Bool) :
    (state.applyOrderBookSnapshot snapshot bridge).1.tickers = state.tickers := by
  unfold applyOrderBookSnapshot
  dsimp only
  split
  · exact markIf_tickers ..
  · rfl

theorem applyDelta_tickers (state : UnifiedState settings) (delta : OrderBookDelta) :
    (state.applyDelta delta).1.tickers = state.tickers := by
  unfold applyDelta
  dsimp only
  split
  · exact markIf_tickers ..
  · rfl
  · rfl

theorem apply_ticker_tickers (state : UnifiedState settings) (event : Ticker) :
    (state.apply (.ticker event)).1.tickers =
      Function.update state.tickers event.metadata.instrument
        (applyTicker (state.tickers event.metadata.instrument) event).1 :=
  markIf_tickers ..

theorem apply_tickers (state : UnifiedState settings) {event : MarketEvent}
    (h : event.kind ≠ .ticker) : (state.apply event).1.tickers = state.tickers := by
  cases event with
  | ticker event => exact absurd rfl h
  | candle event => exact markIf_tickers ..
  | trade event => exact markIf_tickers ..
  | snapshot event => exact applyOrderBookSnapshot_tickers ..
  | delta event => exact applyDelta_tickers ..
  | funding event => exact markIf_tickers ..
  | openInterest event => exact markIf_tickers ..

def contribute (state : UnifiedState settings) (instrument : Instrument) (events : List Ticker) :
    UnifiedOp → List Ticker
  | .apply (.ticker event) =>
    if event.metadata.instrument = instrument ∧
        isOlder event.metadata ((state.tickers instrument).map (·.metadata)) = false then
      events ++ [event]
    else events
  | .invalidateRealtimeState other | .invalidateStreamState other =>
    if other = instrument then [] else events
  | _ => events

def contributions (instrument : Instrument) (state : UnifiedState settings) (events : List Ticker) :
    List UnifiedOp → List Ticker
  | [] => events
  | op :: ops =>
    contributions instrument (state.step op) (state.contribute instrument events op) ops

theorem merged_step {state : UnifiedState settings} {instrument : Instrument} {events : List Ticker}
    (h : Merged (state.tickers instrument) events) (op : UnifiedOp) :
    Merged ((state.step op).tickers instrument) (state.contribute instrument events op) := by
  cases op with
  | apply event =>
    by_cases hkind : event.kind = .ticker
    · cases event with
      | ticker event =>
        simp only [step, contribute, apply_ticker_tickers]
        by_cases hinstrument : event.metadata.instrument = instrument
        · subst hinstrument
          rw [Function.update_self]
          cases hcurrent : isOlder event.metadata
              ((state.tickers event.metadata.instrument).map (·.metadata)) with
          | false => simpa using h.apply hcurrent
          | true => simpa [applyTicker_of_isOlder hcurrent] using h
        · rw [Function.update_of_ne (Ne.symm hinstrument), if_neg fun hboth => hinstrument hboth.1]
          exact h
      | _ => cases hkind
    · have hcontribute : state.contribute instrument events (.apply event) = events := by
        cases event with
        | ticker event => exact absurd rfl hkind
        | _ => rfl
      rw [hcontribute, step, apply_tickers state hkind]
      exact h
  | applyOrderBookSnapshot snapshot bridge =>
    rw [step, applyOrderBookSnapshot_tickers]
    exact h
  | registerInstruments instruments => exact h
  | invalidateOrderBook other => exact h
  | invalidateRealtimeState other =>
    simp only [step, contribute, invalidateRealtimeState, invalidateOrderBook]
    exact h.forget other
  | invalidateStreamState other =>
    simp only [step, contribute, invalidateStreamState, invalidateRealtimeState,
      invalidateOrderBook]
    exact h.forget other

theorem merged_run {state : UnifiedState settings} {instrument : Instrument} {events : List Ticker}
    (h : Merged (state.tickers instrument) events) (ops : List UnifiedOp) :
    Merged ((run step state ops).tickers instrument)
      (contributions instrument state events ops) := by
  induction ops generalizing state events with
  | nil => exact h
  | cons op ops ih => exact ih (merged_step h op)

/-- After any run each value of an instrument's ticker is the newest one that the contributing
events have, and there is a ticker exactly when there is such an event. -/
theorem ticker_merges (settings : UnifiedSettings) (ops : List UnifiedOp) (instrument : Instrument) :
    let ticker := (run step (.new settings) ops).tickers instrument
    let events := contributions instrument (.new settings) [] ops
    (ticker.isSome = true ↔ events ≠ []) ∧
      ∀ field : TickerField, ticker.bind field.value = field.newest events := by
  have hempty : Merged ((UnifiedState.new settings).tickers instrument) [] := merged_none
  have hmerged := merged_run hempty ops
  exact ⟨hmerged.stored_iff, hmerged.values⟩

end UnifiedState

end ChainQuantStudio.State.Market
