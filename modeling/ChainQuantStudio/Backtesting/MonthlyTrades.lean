import ChainQuantStudio.Exchanges.BinanceArchive
import ChainQuantStudio.Library.DateTimes
import ChainQuantStudio.Library.FloatArith
import ChainQuantStudio.Library.Months
import Mathlib.Algebra.BigOperators.Group.List.Basic
import Mathlib.Data.List.Chain

/-!
# Trades by calendar month

The performance report counts the trades of each month from the first point of the equity curve to
the last. A month is read off a timestamp's own clock, so timestamps with different UTC offsets may
disagree on it.
-/

namespace ChainQuantStudio.Backtesting

open Calendar DateTimes
open Exchanges.BinanceArchive (pad)

/-- What `datetime.fromisoformat` returns: a clock's reading and the offset of its zone, if any. -/
structure IsoReading where
  wall : ℤ
  offset : Option ℤ
  ranged : Ranged wall

abbrev Timestamp := Aware ℤ

variable (fromisoformat : List Char → Except String IsoReading)

/-- `value.replace("Z", "+00:00")`. -/
def withoutZulu (value : String) : List Char :=
  value.toList.flatMap fun c => if c = 'Z' then "+00:00".toList else [c]

def parseTimestamp (value : String) : Except String Timestamp := do
  let reading ← fromisoformat (withoutZulu value)
  match reading.offset with
  | none => throw "timestamps must include a UTC offset"
  | some zone => return { wall := reading.wall, zone, ranged := reading.ranged }

section

variable {F : Type} [FloatArith F]

structure EquityCurve (F : Type) [FloatArith F] where
  timestamps : List Timestamp
  values : List F
  paired : values.length = timestamps.length
  clean : ∀ value ∈ values, FloatArith.isFinite value = true ∧
    FloatArith.lt value (FloatArith.ofRat 0) = false
  increasing : timestamps.IsChain fun a b => fixedOffsets.before a b = true

def EquityCurve.empty : EquityCurve F where
  timestamps := []
  values := []
  paired := rfl
  clean _ hvalue := absurd hvalue List.not_mem_nil
  increasing := .nil

theorem isChain_concat {α : Type*} {r : α → α → Prop} {l : List α} (hl : l.IsChain r) {a : α}
    (h : ∀ b ∈ l.getLast?, r b a) : (l ++ [a]).IsChain r :=
  List.isChain_append.mpr ⟨hl, .singleton a, fun b hb c hc => by
    obtain rfl : a = c := by simpa using hc
    exact h b hb⟩

/-- One turn of the loop of `_validated_equity_curve`. -/
def EquityCurve.append (curve : EquityCurve F) (point : String × F) :
    Except String (EquityCurve F) := do
  let timestamp ← parseTimestamp fromisoformat point.1
  if hclean : FloatArith.isFinite point.2 = true ∧
      FloatArith.lt point.2 (FloatArith.ofRat 0) = false then
    if hlater : ∀ last ∈ curve.timestamps.getLast?, fixedOffsets.before last timestamp = true then
      return { timestamps := curve.timestamps ++ [timestamp]
               values := curve.values ++ [point.2]
               paired := by rw [List.length_append, List.length_append, curve.paired]; rfl
               clean := by
                 intro value hvalue
                 rcases List.mem_append.mp hvalue with hold | hnew
                 · exact curve.clean value hold
                 · rw [List.mem_singleton.mp hnew]
                   exact hclean
               increasing := isChain_concat curve.increasing hlater }
    else throw "equity timestamps must be strictly increasing"
  else throw "equity values must be finite and non-negative"

def validatedEquityCurve (points : List (String × F)) : Except String (EquityCurve F) :=
  points.foldlM (EquityCurve.append fromisoformat) .empty

end

/-- Timestamps of which none is before the one ahead of it. -/
structure TradeTimes where
  timestamps : List Timestamp
  chronological : timestamps.IsChain fun a b => fixedOffsets.before b a = false

def validatedTradeTimestamps (values : Option (List String)) (expected : ℕ) :
    Except String (Option TradeTimes) := do
  match values with
  | none => return none
  | some values =>
    if values.length ≠ expected then throw "trade_timestamps must match trade_returns"
    let parsed ← values.mapM (parseTimestamp fromisoformat)
    if h : parsed.IsChain fun a b => fixedOffsets.before b a = false then return some ⟨parsed, h⟩
    else throw "trade timestamps must be chronological"

def calendarMonth (timestamp : Timestamp) : Month := Month.ofDate (timestamp.wall / dayLength)

/-- `%Y-%m`. -/
def monthLabel (m : Month) : String := pad 4 m.year ++ "-" ++ pad 2 m.month

def reportSpan (equity trades : List Timestamp) : Option (Timestamp × Timestamp) :=
  match equity.head?, equity.getLast? with
  | some start, some last => some (start, last)
  | _, _ =>
    match trades.head?, trades.getLast? with
    | some start, some last => some (start, last)
    | _, _ => none

/-- The labels of the months from `start` to `last`. -/
def reportMonths (start last : Timestamp) : List String :=
  (Month.through (calendarMonth last) (calendarMonth start)).map monthLabel

def monthlyTradeCounts (equity : List Timestamp) (trades : Option (List Timestamp)) :
    List String × List ℕ :=
  match trades with
  | none => ([], [])
  | some trades =>
    match reportSpan equity trades with
    | none => ([], [])
    | some (start, last) =>
      let counts := trades.map fun trade => monthLabel (calendarMonth trade)
      let months := reportMonths start last
      (months, months.map fun month => counts.count month)

theorem toList_pad (width n : ℕ) :
    (pad width (n : ℤ)).toList =
      List.replicate (width - (toString n).length) '0' ++ Nat.toDigits 10 n := by
  have hstring : toString (n : ℤ) = toString n := rfl
  rw [pad, String.toList_append, String.toList_ofList, hstring, Nat.toString_eq_ofList_toDigits,
    String.toList_ofList]

theorem ofDigitChars_pad (width n : ℕ) : Nat.ofDigitChars 10 (pad width (n : ℤ)).toList 0 = n := by
  rw [toList_pad, Nat.ofDigitChars_append, Nat.ofDigitChars_replicate_zero, Nat.mul_zero,
    Nat.ofDigitChars_ten_toDigits]

theorem dash_not_mem_pad (width n : ℕ) : '-' ∉ (pad width (n : ℤ)).toList := by
  rw [toList_pad, List.mem_append, not_or]
  constructor
  · intro h
    exact absurd (List.eq_of_mem_replicate h) (by decide)
  · intro h
    exact absurd (Nat.isDigit_of_mem_toDigits (by decide) le_rfl h) (by decide)

theorem pad_injective {width m n : ℕ}
    (h : (pad width (m : ℤ)).toList = (pad width (n : ℤ)).toList) : m = n := by
  rw [← ofDigitChars_pad width m, h, ofDigitChars_pad]

theorem toList_monthLabel (m : Month) :
    (monthLabel m).toList = (pad 4 m.year).toList ++ '-' :: (pad 2 m.month).toList := by
  have hdash : "-".toList = ['-'] := by decide
  rw [monthLabel, String.toList_append, String.toList_append, hdash, List.append_assoc,
    List.singleton_append]

theorem monthLabel_injective {a b : Month} (ha : 0 ≤ a.year) (hb : 0 ≤ b.year)
    (h : monthLabel a = monthLabel b) : a = b := by
  obtain ⟨y, m, hm, hm'⟩ := a
  obtain ⟨y', m', hn, hn'⟩ := b
  obtain ⟨y, rfl⟩ := Int.eq_ofNat_of_zero_le ha
  obtain ⟨y', rfl⟩ := Int.eq_ofNat_of_zero_le hb
  obtain ⟨m, rfl⟩ := Int.eq_ofNat_of_zero_le (show 0 ≤ m by omega)
  obtain ⟨m', rfl⟩ := Int.eq_ofNat_of_zero_le (show 0 ≤ m' by omega)
  have hlists := congrArg String.toList h
  rw [toList_monthLabel, toList_monthLabel] at hlists
  obtain ⟨hyears, -, hmonths⟩ := (List.append_cons_inj_of_notMem (dash_not_mem_pad 4 y)
    (dash_not_mem_pad 2 m)).mp hlists
  obtain rfl : y = y' := pad_injective hyears
  obtain rfl : m = m' := pad_injective hmonths
  rfl

theorem countP_mem_cons {α : Type*} [DecidableEq α] {key : α} {keys : List α} (h : key ∉ keys)
    (l : List α) : l.countP (· ∈ key :: keys) = l.count key + l.countP (· ∈ keys) := by
  induction l with
  | nil => rfl
  | cons a l ih =>
    rw [List.countP_cons, List.countP_cons, List.count_cons, ih]
    simp only [List.mem_cons, decide_eq_true_eq, beq_iff_eq]
    by_cases hkey : a = key
    · subst hkey
      simp only [true_or, if_true, h, if_false]
      omega
    · simp only [hkey, false_or, if_false]
      omega

theorem sum_map_count {α : Type*} [DecidableEq α] {keys : List α} (hkeys : keys.Nodup)
    (l : List α) : (keys.map fun key => l.count key).sum = l.countP (· ∈ keys) := by
  induction keys with
  | nil => simp
  | cons key keys ih =>
    obtain ⟨hnew, hrest⟩ := List.nodup_cons.mp hkeys
    rw [List.map_cons, List.sum_cons, ih hrest, countP_mem_cons hnew]

theorem sum_map_count_eq_length {α : Type*} [DecidableEq α] {keys : List α} (hkeys : keys.Nodup)
    (l : List α) : (keys.map fun key => l.count key).sum = l.length ↔ ∀ a ∈ l, a ∈ keys := by
  rw [sum_map_count hkeys, List.countP_eq_length]
  simp only [decide_eq_true_eq]

theorem index_calendarMonth (timestamp : Timestamp) : 12 ≤ (calendarMonth timestamp).index := by
  have hranged := timestamp.ranged
  rw [calendarMonth, Month.index_ofDate]
  obtain ⟨-, hnext⟩ := monthIndex_spec (timestamp.wall / dayLength)
  have hfirst : monthStart 12 ≤ timestamp.wall / dayLength := by
    have hyearOne : monthStart 12 = -719162 := by decide
    unfold Ranged dayLength at *
    omega
  have hlt := monthStart_strictMono.lt_iff_lt.mp (lt_of_le_of_lt hfirst hnext)
  omega

theorem year_nonneg {m : Month} (h : 12 ≤ m.index) : 0 ≤ m.year := by
  have hlast := m.le_twelve
  unfold Month.index at h
  omega

theorem monthLabel_mem_iff (start last timestamp : Timestamp) :
    monthLabel (calendarMonth timestamp) ∈ reportMonths start last ↔
      (calendarMonth start).index ≤ (calendarMonth timestamp).index ∧
        (calendarMonth timestamp).index ≤ (calendarMonth last).index := by
  rw [← Month.mem_through, reportMonths, List.mem_map]
  constructor
  · rintro ⟨m, hm, hlabel⟩
    have hlater := (Month.mem_through.mp hm).1
    have hstart := index_calendarMonth start
    have heq := monthLabel_injective (year_nonneg (by omega))
      (year_nonneg (index_calendarMonth timestamp)) hlabel
    rw [← heq]
    exact hm
  · exact fun hm => ⟨_, hm, rfl⟩

theorem nodup_reportMonths (start last : Timestamp) : (reportMonths start last).Nodup := by
  refine List.Nodup.map_on ?_ (Month.through_nodup _ _)
  intro a ha b hb hlabel
  have hstart := index_calendarMonth start
  have ha := (Month.mem_through.mp ha).1
  have hb := (Month.mem_through.mp hb).1
  exact monthLabel_injective (year_nonneg (by omega)) (year_nonneg (by omega)) hlabel

/-- The months of the report follow one another, no two labels are equal, and every trade is counted
in one of them. -/
structure ConservesTrades (equity trades : List Timestamp) : Prop where
  consecutive : ∃ months : List Month,
    (monthlyTradeCounts equity (some trades)).1 = months.map monthLabel ∧
      months.IsChain fun a b => b = a.next
  distinct : (monthlyTradeCounts equity (some trades)).1.Nodup
  total : (monthlyTradeCounts equity (some trades)).2.sum = trades.length

/-- Each trade's month, on its own clock, is one from the month of the first timestamp of the report
to that of the last, on theirs. -/
def TradedWithinMonths (equity trades : List Timestamp) : Prop :=
  ∀ start last, reportSpan equity trades = some (start, last) → ∀ trade ∈ trades,
    (calendarMonth start).notAfter (calendarMonth trade) = true ∧
      (calendarMonth trade).notAfter (calendarMonth last) = true

theorem eq_nil_of_reportSpan {equity trades : List Timestamp}
    (h : reportSpan equity trades = none) : trades = [] := by
  cases trades with
  | nil => rfl
  | cons trade rest =>
    have hlast := List.getLast?_eq_some_getLast (List.cons_ne_nil trade rest)
    unfold reportSpan at h
    split at h
    · cases h
    · rw [List.head?_cons, hlast] at h
      cases h

section

variable {equity trades : List Timestamp} {start last : Timestamp}

theorem monthlyTradeCounts_of_span (h : reportSpan equity trades = some (start, last)) :
    monthlyTradeCounts equity (some trades) =
      (reportMonths start last, (reportMonths start last).map fun month =>
        (trades.map fun trade => monthLabel (calendarMonth trade)).count month) := by
  simp only [monthlyTradeCounts, h]

theorem conservesTrades_nil (h : reportSpan equity trades = none) :
    ConservesTrades equity trades := by
  have hcounts : monthlyTradeCounts equity (some trades) = ([], []) := by
    simp only [monthlyTradeCounts, h]
  refine ⟨⟨[], ?_, .nil⟩, ?_, ?_⟩
  · rw [hcounts, List.map_nil]
  · rw [hcounts]
    exact List.nodup_nil
  · rw [hcounts, eq_nil_of_reportSpan h]
    rfl

theorem total_iff (h : reportSpan equity trades = some (start, last)) :
    (monthlyTradeCounts equity (some trades)).2.sum = trades.length ↔
      ∀ trade ∈ trades, (calendarMonth start).notAfter (calendarMonth trade) = true ∧
        (calendarMonth trade).notAfter (calendarMonth last) = true := by
  have hkeys := sum_map_count_eq_length (nodup_reportMonths start last)
    (trades.map fun trade => monthLabel (calendarMonth trade))
  rw [List.length_map, List.forall_mem_map] at hkeys
  simp only [monthlyTradeCounts_of_span h, Month.notAfter_iff]
  rw [hkeys]
  exact forall₂_congr fun trade _ => monthLabel_mem_iff start last trade

end

theorem conservesTrades_iff {F : Type} [FloatArith F] (curve : EquityCurve F)
    (trades : TradeTimes) :
    ConservesTrades curve.timestamps trades.timestamps ↔
      TradedWithinMonths curve.timestamps trades.timestamps := by
  unfold TradedWithinMonths
  cases hspan : reportSpan curve.timestamps trades.timestamps with
  | none => exact iff_of_true (conservesTrades_nil hspan) fun _ _ h => by cases h
  | some span =>
    obtain ⟨start, last⟩ := span
    constructor
    · rintro hconserves start' last' heq
      cases heq
      exact (total_iff hspan).mp hconserves.total
    · intro hwithin
      refine ⟨⟨Month.through (calendarMonth last) (calendarMonth start), ?_,
        Month.through_isChain _ _⟩, ?_, (total_iff hspan).mpr (hwithin _ _ rfl)⟩
      · rw [monthlyTradeCounts_of_span hspan, reportMonths]
      · rw [monthlyTradeCounts_of_span hspan]
        exact nodup_reportMonths start last

def InRange (equity trades : List Timestamp) : Prop :=
  ∀ first ∈ equity.head?, ∀ last ∈ equity.getLast?, ∀ trade ∈ trades,
    fixedOffsets.instant first ≤ fixedOffsets.instant trade ∧
      fixedOffsets.instant trade ≤ fixedOffsets.instant last

theorem monthIndex_mono : Monotone monthIndex := by
  intro a b hab
  have ha := (monthIndex_spec a).1
  have hb := (monthIndex_spec b).2
  have hlt := monthStart_strictMono.lt_iff_lt.mp (lt_of_le_of_lt (ha.trans hab) hb)
  omega

theorem calendarMonth_mono {a b : Timestamp} (hzone : a.zone = b.zone)
    (h : fixedOffsets.instant a ≤ fixedOffsets.instant b) :
    (calendarMonth a).notAfter (calendarMonth b) = true := by
  rw [Month.notAfter_iff, calendarMonth, calendarMonth, Month.index_ofDate, Month.index_ofDate]
  have hwall : a.wall ≤ b.wall := by
    simp only [Zones.instant, fixedOffsets, fixedOffset, hzone] at h
    omega
  exact monthIndex_mono (Int.ediv_le_ediv (by decide) hwall)

theorem tradedWithinMonths_of_zone {equity trades : List Timestamp} {zone : ℤ}
    (hcurve : equity ≠ []) (hequity : ∀ point ∈ equity, point.zone = zone)
    (htrades : ∀ trade ∈ trades, trade.zone = zone)
    (h : InRange equity trades) : TradedWithinMonths equity trades := by
  intro start last hspan trade htrade
  obtain ⟨first, rest, rfl⟩ := List.exists_cons_of_ne_nil hcurve
  have hlast := List.getLast?_eq_some_getLast hcurve
  simp only [reportSpan, List.head?_cons, hlast, Option.some.injEq, Prod.mk.injEq] at hspan
  obtain ⟨rfl, rfl⟩ := hspan
  have hzone := htrades trade htrade
  obtain ⟨hafter, hbefore⟩ := h first rfl _ hlast trade htrade
  have hstart := hequity first List.mem_cons_self
  have hend := hequity _ (List.getLast_mem hcurve)
  exact ⟨calendarMonth_mono (hstart.trans hzone.symm) hafter,
    calendarMonth_mono (hzone.trans hend.symm) hbefore⟩

/-- `datetime.fromisoformat` on texts with a time of day in whole seconds. -/
def readIso (text : List Char) : Except String IsoReading :=
  match fromIsoFormat text with
  | none => .error ("Invalid isoformat string: '" ++ String.ofList text ++ "'")
  | some (wall, offset) =>
    if h : Ranged wall then .ok ⟨wall, offset, h⟩ else .error "year is out of range"

def januaryCurve : List (String × ℚ) :=
  [("2024-01-10T00:00:00+00:00", 10000), ("2024-01-31T20:00:00Z", 10100)]

theorem exists_of_map_eq_ok {ε α β : Type*} {x : Except ε α} {f : α → β} {b : β}
    (h : x.map f = .ok b) : ∃ a, x = .ok a ∧ f a = b := by
  cases x with
  | error e => cases h
  | ok a => exact ⟨a, rfl, Except.ok.inj h⟩

/-- A trade at one o'clock on the first of February in a zone eight hours ahead is within January in
UTC, and no month of the report counts it. -/
theorem february_trade_lost :
    ∃ (curve : EquityCurve ℚ) (trades : TradeTimes),
      validatedEquityCurve readIso januaryCurve = .ok curve ∧
      validatedTradeTimestamps readIso (some ["2024-02-01T01:00:00+08:00"]) 1 = .ok (some trades) ∧
      InRange curve.timestamps trades.timestamps ∧
      monthlyTradeCounts curve.timestamps (some trades.timestamps) = (["2024-01"], [0]) ∧
      ¬ ConservesTrades curve.timestamps trades.timestamps := by
  have hcurve : (validatedEquityCurve readIso januaryCurve).map EquityCurve.timestamps =
      .ok [{ wall := 1704844800000000, zone := 0, ranged := by decide },
        { wall := 1706731200000000, zone := 0, ranged := by decide }] := by
    decide +kernel
  have htrades : (validatedTradeTimestamps readIso (some ["2024-02-01T01:00:00+08:00"]) 1).map
      (fun trades => trades.map TradeTimes.timestamps) =
      .ok (some [{ wall := 1706749200000000, zone := 28800000000, ranged := by decide }]) := by
    decide +kernel
  obtain ⟨curve, hcurve, hpoints⟩ := exists_of_map_eq_ok hcurve
  obtain ⟨accepted, htrades, haccepted⟩ := exists_of_map_eq_ok htrades
  obtain ⟨trades, rfl, hmoments⟩ := Option.map_eq_some_iff.mp haccepted
  have hcounts : monthlyTradeCounts curve.timestamps (some trades.timestamps) =
      (["2024-01"], [0]) := by
    rw [hpoints, hmoments]
    decide +kernel
  refine ⟨curve, trades, hcurve, htrades, ?_, hcounts, fun hconserves => ?_⟩
  · rw [hpoints, hmoments]
    intro first hfirst last hlast trade htrade
    cases hfirst
    cases hlast
    rw [List.mem_singleton.mp htrade]
    decide
  · have htotal := hconserves.total
    rw [hcounts, hmoments] at htotal
    cases htotal

end ChainQuantStudio.Backtesting
