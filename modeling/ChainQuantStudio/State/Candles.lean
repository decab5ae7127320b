import ChainQuantStudio.Data.Models
import ChainQuantStudio.Library.BoundedDeque
import Mathlib.Data.List.Nodup

/-!
# Bounded rolling OHLCV windows

A window holds the newest bars of one instrument and interval in the order of their open times; it
carries the order and the bound. `upsert` appends a bar newer than the window, otherwise replaces
the bar of the same open time, and says whether it did either.
-/

namespace ChainQuantStudio.State.Candles

open BoundedDeque Data

structure Candle where
  metadata : EventMetadata
  interval : String
  openTime : Instant
  closeTime : Instant
  openPrice : ℚ
  high : ℚ
  low : ℚ
  closePrice : ℚ
  baseVolume : ℚ
  quoteVolume : Option ℚ
  isClosed : Bool
  takerBuyBaseVolume : Option ℚ := none
  takerBuyQuoteVolume : Option ℚ := none
  range : max openPrice closePrice ≤ high ∧ low ≤ min openPrice closePrice
  taker_nonneg : ∀ volume, takerBuyBaseVolume = some volume ∨ takerBuyQuoteVolume = some volume →
    0 ≤ volume
  deriving DecidableEq

structure CandleValues where
  interval : String
  openTime : Instant
  closeTime : Instant
  openPrice : ℚ
  high : ℚ
  low : ℚ
  closePrice : ℚ
  baseVolume : ℚ
  quoteVolume : Option ℚ
  deriving DecidableEq

/-- The window a candle belongs to. -/
abbrev Key := Instrument × String

namespace Candle

def key (candle : Candle) : Key := (candle.metadata.instrument, candle.interval)

def values (candle : Candle) : CandleValues where
  interval := candle.interval
  openTime := candle.openTime
  closeTime := candle.closeTime
  openPrice := candle.openPrice
  high := candle.high
  low := candle.low
  closePrice := candle.closePrice
  baseVolume := candle.baseVolume
  quoteVolume := candle.quoteVolume

end Candle

def isDuplicateClosedCandle (existing current : Candle) : Bool :=
  existing.isClosed && current.isClosed && existing.values = current.values

def replaceBar (candle : Candle) : List Candle → List Candle × Bool
  | [] => ([], false)
  | existing :: newer =>
    if existing.openTime = candle.openTime then
      if existing.isClosed && !candle.isClosed then (existing :: newer, false)
      else if isDuplicateClosedCandle existing candle then (existing :: newer, false)
      else (candle :: newer, true)
    else
      let (bars, replaced) := replaceBar candle newer
      (existing :: bars, replaced)

def upsertBars (maxSize : ℕ) (bars : List Candle) (candle : Candle) : List Candle × Bool :=
  match bars.getLast? with
  | none => (pushBack maxSize bars candle, true)
  | some last =>
    if last.openTime < candle.openTime then (pushBack maxSize bars candle, true)
    else if candle.openTime = last.openTime then
      if last.isClosed && !candle.isClosed then (bars, false)
      else if isDuplicateClosedCandle last candle then (bars, false)
      else (bars.dropLast ++ [candle], true)
    else replaceBar candle bars

def Ordered (bars : List Candle) : Prop := bars.Pairwise fun a b => a.openTime < b.openTime

variable {maxSize : ℕ} {bars older newer : List Candle} {candle existing : Candle}

theorem replaceBar_of_forall_ne (h : ∀ bar ∈ bars, bar.openTime ≠ candle.openTime) :
    replaceBar candle bars = (bars, false) := by
  induction bars with
  | nil => rfl
  | cons bar bars ih =>
    rw [replaceBar, if_neg (h bar List.mem_cons_self),
      ih fun b hb => h b (List.mem_cons_of_mem bar hb)]

theorem replaceBar_append (h : ∀ bar ∈ older, bar.openTime ≠ candle.openTime) :
    replaceBar candle (older ++ newer) =
      (older ++ (replaceBar candle newer).1, (replaceBar candle newer).2) := by
  induction older with
  | nil => rfl
  | cons bar older ih =>
    rw [List.cons_append, replaceBar, if_neg (h bar List.mem_cons_self),
      ih fun b hb => h b (List.mem_cons_of_mem bar hb)]
    rfl

theorem replaceBar_append_of_forall_ne (h : ∀ bar ∈ newer, bar.openTime ≠ candle.openTime) :
    replaceBar candle (older ++ newer) =
      ((replaceBar candle older).1 ++ newer, (replaceBar candle older).2) := by
  induction older with
  | nil => exact replaceBar_of_forall_ne h
  | cons bar older ih =>
    rw [List.cons_append, replaceBar, replaceBar, ih]
    split_ifs <;> rfl

def keep (existing candle : Candle) : Candle :=
  if (existing.isClosed && !candle.isClosed) || isDuplicateClosedCandle existing candle then
    existing
  else candle

theorem replaceBar_cons_self (h : existing.openTime = candle.openTime) :
    (replaceBar candle (existing :: newer)).1 = keep existing candle :: newer := by
  rw [replaceBar, if_pos h, keep]
  split_ifs with hfinal hduplicate hkeep hkeep hkeep <;> simp_all

theorem keep_openTime (h : existing.openTime = candle.openTime) :
    (keep existing candle).openTime = candle.openTime := by
  unfold keep
  split
  · exact h
  · rfl

theorem map_openTime_replaceBar (candle : Candle) (bars : List Candle) :
    (replaceBar candle bars).1.map Candle.openTime = bars.map Candle.openTime := by
  induction bars with
  | nil => rfl
  | cons bar bars ih =>
    by_cases h : bar.openTime = candle.openTime
    · rw [replaceBar_cons_self h, List.map_cons, List.map_cons, keep_openTime h, h]
    · rw [replaceBar, if_neg h]
      simp only [List.map_cons, ih]

theorem length_replaceBar (candle : Candle) (bars : List Candle) :
    (replaceBar candle bars).1.length = bars.length := by
  have h := congrArg List.length (map_openTime_replaceBar candle bars)
  simpa using h

theorem ordered_iff_map : Ordered bars ↔ (bars.map Candle.openTime).Pairwise (· < ·) :=
  List.pairwise_map.symm

theorem eq_of_openTime (h : Ordered bars) {bar bar' : Candle} (hbar : bar ∈ bars)
    (hbar' : bar' ∈ bars) (htime : bar'.openTime = bar.openTime) : bar' = bar := by
  have hnodup : (bars.map Candle.openTime).Nodup := (ordered_iff_map.mp h).imp ne_of_lt
  exact List.inj_on_of_nodup_map hnodup hbar' hbar htime

theorem replaceBar_eq_map (h : Ordered bars) :
    (replaceBar candle bars).1 =
      bars.map fun bar => if bar.openTime = candle.openTime then keep bar candle else bar := by
  induction bars with
  | nil => rfl
  | cons existing newer ih =>
    obtain ⟨hexisting, hnewer⟩ := List.pairwise_cons.mp h
    rw [List.map_cons]
    by_cases htime : existing.openTime = candle.openTime
    · have hrest : newer.map (fun bar =>
          if bar.openTime = candle.openTime then keep bar candle else bar) = newer := by
        apply (List.map_congr_left fun bar hbar => ?_).trans (List.map_id newer)
        exact if_neg (htime ▸ (hexisting bar hbar).ne')
      rw [replaceBar_cons_self htime, if_pos htime, hrest]
    · rw [replaceBar, if_neg htime, if_neg htime, ← ih hnewer]

theorem keep_isClosed (existing candle : Candle) :
    (keep existing candle).isClosed = (existing.isClosed || candle.isClosed) := by
  unfold keep isDuplicateClosedCandle
  cases hold : existing.isClosed with
  | false => simp
  | true =>
    cases hnew : candle.isClosed with
    | false => simp [hold]
    | true => split_ifs <;> simp [hold, hnew]

theorem keep_keep (existing candle : Candle) :
    keep (keep existing candle) candle = keep existing candle := by
  by_cases h : (existing.isClosed && !candle.isClosed || isDuplicateClosedCandle existing candle) = true
  · have hkept : keep existing candle = existing := if_pos h
    rw [hkept, hkept]
  · have hnew : keep existing candle = candle := if_neg h
    rw [hnew, keep, ite_self]

theorem le_getLast_of_ordered (h : Ordered bars) {last : Candle} (hlast : bars.getLast? = some last) :
    ∀ bar ∈ bars, bar.openTime ≤ last.openTime := by
  obtain ⟨init, rfl⟩ := List.getLast?_eq_some_iff.mp hlast
  intro bar hbar
  rcases List.mem_append.mp hbar with hinit | hsingle
  · exact ((List.pairwise_append.mp h).2.2 bar hinit last (List.mem_singleton_self _)).le
  · rw [List.mem_singleton.mp hsingle]

theorem upsertBars_eq (h : Ordered bars) :
    upsertBars maxSize bars candle =
      if ∀ bar ∈ bars, bar.openTime < candle.openTime then (pushBack maxSize bars candle, true)
      else replaceBar candle bars := by
  unfold upsertBars
  cases hlast : bars.getLast? with
  | none =>
    rw [List.getLast?_eq_none_iff.mp hlast]
    simp
  | some last =>
    have hle := le_getLast_of_ordered h hlast
    have hmem : last ∈ bars := List.mem_of_getLast? hlast
    dsimp only
    by_cases hlt : last.openTime < candle.openTime
    · rw [if_pos hlt, if_pos fun bar hbar => (hle bar hbar).trans_lt hlt]
    · have hnot : ¬ ∀ bar ∈ bars, bar.openTime < candle.openTime := fun hall => hlt (hall last hmem)
      rw [if_neg hlt, if_neg hnot]
      by_cases heq : candle.openTime = last.openTime
      · rw [if_pos heq]
        obtain ⟨init, rfl⟩ := List.getLast?_eq_some_iff.mp hlast
        have hinit : ∀ bar ∈ init, bar.openTime ≠ candle.openTime := by
          intro bar hbar
          rw [heq]
          exact ((List.pairwise_append.mp h).2.2 bar hbar last (List.mem_singleton_self _)).ne
        rw [replaceBar_append hinit, replaceBar, if_pos heq.symm, List.dropLast_concat]
        split_ifs <;> rfl
      · rw [if_neg heq]

theorem mem_of_mem_upsertBars (h : Ordered bars) {bar : Candle}
    (hbar : bar ∈ (upsertBars maxSize bars candle).1) : bar ∈ bars ∨ bar = candle := by
  rw [upsertBars_eq h] at hbar
  split_ifs at hbar
  · exact mem_of_mem_pushBack hbar
  · rw [replaceBar_eq_map h] at hbar
    obtain ⟨old, hold, rfl⟩ := List.mem_map.mp hbar
    unfold keep
    split_ifs
    · exact .inl hold
    · exact .inr rfl
    · exact .inl hold

theorem ordered_upsertBars (h : Ordered bars) : Ordered (upsertBars maxSize bars candle).1 := by
  rw [upsertBars_eq h]
  split_ifs with hnewer
  · exact pairwise_pushBack h hnewer
  · rw [ordered_iff_map, map_openTime_replaceBar]
    exact ordered_iff_map.mp h

theorem length_upsertBars_le (h : Ordered bars) (hlength : bars.length ≤ maxSize) :
    (upsertBars maxSize bars candle).1.length ≤ maxSize := by
  rw [upsertBars_eq h]
  split_ifs
  · exact length_pushBack_le
  · rw [length_replaceBar]
    exact hlength

structure CandleWindow (maxSize : ℕ) where
  bars : List Candle
  ordered : Ordered bars
  bounded : bars.length ≤ maxSize

namespace CandleWindow

def empty (maxSize : ℕ) : CandleWindow maxSize := ⟨[], List.Pairwise.nil, Nat.zero_le _⟩

def upsert (window : CandleWindow maxSize) (candle : Candle) : CandleWindow maxSize where
  bars := (upsertBars maxSize window.bars candle).1
  ordered := ordered_upsertBars window.ordered
  bounded := length_upsertBars_le window.ordered window.bounded

/-- What `upsert` returns. -/
def accepts (window : CandleWindow maxSize) (candle : Candle) : Bool :=
  (upsertBars maxSize window.bars candle).2

end CandleWindow

structure CandleWindowStore where
  maxSize : ℕ
  windows : Key → CandleWindow maxSize
  size_pos : 0 < maxSize

namespace CandleWindowStore

variable (store : CandleWindowStore)

def upsert (candle : Candle) : CandleWindowStore × Bool :=
  let window := store.windows candle.key
  ({ store with windows := Function.update store.windows candle.key (window.upsert candle) },
    window.accepts candle)

def invalidate (instrument : Instrument) : CandleWindowStore :=
  { store with
    windows := fun key => if key.1 = instrument then .empty store.maxSize else store.windows key }

def latest (key : Key) : Option Candle := (store.windows key).bars.getLast?

/-- `apply_many` of candles. -/
def applyMany (candles : List Candle) : CandleWindowStore :=
  candles.foldl (fun store candle => (store.upsert candle).1) store

end CandleWindowStore

end ChainQuantStudio.State.Candles
