import ChainQuantStudio.Library.Calendar
import ChainQuantStudio.Library.Columns

/-!
# The public kline archives

An archive holds the candles of one day or of one month. A range of days is asked for by whole
months before a cutoff and by days from there on.
-/

namespace ChainQuantStudio.Exchanges.BinanceArchive

open Calendar

inductive ArchiveMarket
  | spot
  | futuresUm
  deriving DecidableEq, Repr

inductive ArchiveFrequency
  | monthly
  | daily
  deriving DecidableEq, Repr

inductive ArchiveError
  | value (message : String)
  | badZipFile
  deriving DecidableEq, Repr

structure ArchivePeriod where
  frequency : ArchiveFrequency
  day : ℤ
  deriving DecidableEq, Repr

/-- The classes of the characters beyond ASCII, and `int` of a text that is no run of ASCII
digits. -/
structure Unicode where
  alnum : Char → Bool
  digit : Char → Bool
  number : String → Option ℤ

namespace Unicode

variable (u : Unicode)

def isalnum (text : String) : Bool :=
  text ≠ "" && text.toList.all fun c => if c.toNat < 128 then c.isAlphanum else u.alnum c

def isdigit (text : List Char) : Bool :=
  text ≠ [] && text.all fun c => if c.toNat < 128 then c.isDigit else u.digit c

/-- `int(text)`. -/
def int (text : String) : Option ℤ :=
  if text.toList ≠ [] ∧ text.toList.all Char.isDigit ∧ text.length ≤ 4300 then
    some (text.toList.foldl (fun value c => 10 * value + (c.toNat - '0'.toNat : ℕ)) 0 : ℕ)
  else u.number text

variable {u}

theorem isdigit_toString (n : ℕ) : u.isdigit (toString n).toList = true := by
  have hdigit : ∀ c ∈ Nat.toDigits 10 n, c.isDigit = true := fun c hc =>
    Nat.isDigit_of_mem_toDigits (by omega) le_rfl hc
  rw [Nat.toString_eq_ofList_toDigits, String.toList_ofList]
  simp only [isdigit, Bool.and_eq_true, decide_eq_true_eq, List.all_eq_true]
  refine ⟨Nat.toDigits_ne_nil, fun c hc => ?_⟩
  have hc := hdigit c hc
  have hlt : c.toNat < 128 := by
    simp only [Char.isDigit, Bool.and_eq_true, decide_eq_true_eq] at hc
    have hle : c.toNat ≤ '9'.toNat := hc.2
    have hnine : '9'.toNat = 57 := rfl
    omega
  rw [if_pos hlt]
  exact hc

theorem int_toString {n : ℕ} (h : n < 1000000000000000000) : u.int (toString n) = some (n : ℤ) := by
  have hdigit : ∀ c ∈ Nat.toDigits 10 n, c.isDigit = true := fun c hc =>
    Nat.isDigit_of_mem_toDigits (by omega) le_rfl hc
  have hlength : (Nat.toDigits 10 n).length ≤ 18 :=
    (Nat.length_toDigits_le_iff (by omega) (by omega)).mpr h
  unfold int
  rw [Nat.toString_eq_ofList_toDigits, String.toList_ofList, String.length_ofList, if_pos]
  · rw [← Nat.ofDigitChars_eq_foldl, Nat.ofDigitChars_ten_toDigits]
  · exact ⟨Nat.toDigits_ne_nil, List.all_eq_true.mpr hdigit, by omega⟩

end Unicode

def pad (width : ℕ) (n : ℤ) : String :=
  let digits := toString n
  String.ofList (List.replicate (width - digits.length) '0') ++ digits

def ArchivePeriod.label (period : ArchivePeriod) : String :=
  match period.frequency with
  | .monthly => toString (year period.day) ++ "-" ++ pad 2 (month period.day)
  | .daily => pad 4 (year period.day) ++ "-" ++ pad 2 (month period.day) ++ "-" ++
      pad 2 (Calendar.day period.day)

structure ArchiveObject where
  relativePath : String
  filename : String
  deriving DecidableEq, Repr

def ArchiveObject.checksumPath (object : ArchiveObject) : String := object.relativePath ++ ".CHECKSUM"

def ArchiveFrequency.value : ArchiveFrequency → String
  | .monthly => "monthly"
  | .daily => "daily"

/-- `interval.replace("m", "").replace("h", "")`. -/
def withoutUnits (interval : String) : List Char :=
  interval.toList.filter fun c => c ≠ 'm' ∧ c ≠ 'h'

def archiveObject (u : Unicode) (market : ArchiveMarket) (symbol interval : String)
    (period : ArchivePeriod) : Except ArchiveError ArchiveObject :=
  if ¬ u.isalnum symbol ∨ ¬ u.isdigit (withoutUnits interval) then
    .error (.value "unsafe Binance archive symbol or interval")
  else
    let marketPath := if market = .spot then "spot" else "futures/um"
    let filename := symbol ++ "-" ++ interval ++ "-" ++ period.label ++ ".zip"
    let relative := "data/" ++ marketPath ++ "/" ++ period.frequency.value ++ "/klines/" ++ symbol ++
      "/" ++ interval ++ "/" ++ filename
    .ok { relativePath := relative, filename }

/-- The first loop of `iter_archive_periods`. The count bounds the turns, each of at least a day. -/
def monthlyPeriods (start last cutoff : ℤ) : ℕ → ℤ → List ArchivePeriod
  | 0, _ => []
  | n + 1, cursor =>
    if cursor < last ∧ cursor < cutoff then
      let following := nextMonth cursor
      let rest := monthlyPeriods start last cutoff n following
      if start < following ∧ following ≤ last ∧ following ≤ cutoff then
        ⟨.monthly, cursor⟩ :: rest
      else rest
    else []

def dailyPeriods (last : ℤ) : ℕ → ℤ → List ArchivePeriod
  | 0, _ => []
  | n + 1, cursor =>
    if cursor < last then ⟨.daily, cursor⟩ :: dailyPeriods last n (cursor + 1) else []

def iterArchivePeriods (start last cutoff : ℤ) : List ArchivePeriod :=
  if last ≤ start then []
  else
    let first := firstOfMonth start
    let days := max start cutoff
    monthlyPeriods start last cutoff (last - first).toNat first ++
      dailyPeriods last (last - days).toNat days

/-- The day after a period. -/
def ArchivePeriod.last (period : ArchivePeriod) : ℤ :=
  match period.frequency with
  | .monthly => nextMonth period.day
  | .daily => period.day + 1

def ArchivePeriod.Covers (period : ArchivePeriod) (date : ℤ) : Prop :=
  period.day ≤ date ∧ date < period.last

theorem monthlyPeriods_covers {start last k stop : ℤ} (hstop : monthStart stop ≤ last) {n : ℕ}
    (hfuel : monthStart stop - monthStart k ≤ n) {date : ℤ} (hfirst : monthStart k ≤ date)
    (hstart : start ≤ date) (hdate : date < monthStart stop) :
    ∃ period ∈ monthlyPeriods start last (monthStart stop) n (monthStart k), period.Covers date := by
  induction n generalizing k with
  | zero => omega
  | succ n ih =>
    have hkstop : k < stop := monthStart_strictMono.lt_iff_lt.mp (lt_of_le_of_lt hfirst hdate)
    have hnext : monthStart k < monthStart (k + 1) := monthStart_strictMono (by omega)
    have hfollowing : monthStart (k + 1) ≤ monthStart stop :=
      monthStart_strictMono.monotone (by omega)
    have hguard : monthStart k < last ∧ monthStart k < monthStart stop := by omega
    rw [monthlyPeriods, if_pos hguard, nextMonth, monthIndex_monthStart]
    simp only
    rcases lt_or_ge date (monthStart (k + 1)) with hwithin | hbeyond
    · rw [if_pos (by omega)]
      refine ⟨_, List.mem_cons_self, hfirst, ?_⟩
      rw [ArchivePeriod.last, nextMonth, monthIndex_monthStart]
      exact hwithin
    · obtain ⟨period, hperiod, hcovers⟩ := ih (by omega) hbeyond
      refine ⟨period, ?_, hcovers⟩
      split_ifs
      · exact List.mem_cons_of_mem _ hperiod
      · exact hperiod

theorem dailyPeriods_covers {last cursor : ℤ} {n : ℕ} (hfuel : last - cursor ≤ n) {date : ℤ}
    (hfirst : cursor ≤ date) (hdate : date < last) :
    ∃ period ∈ dailyPeriods last n cursor, period.Covers date := by
  induction n generalizing cursor with
  | zero => omega
  | succ n ih =>
    rw [dailyPeriods, if_pos (by omega)]
    rcases eq_or_lt_of_le hfirst with rfl | hlater
    · exact ⟨_, List.mem_cons_self, le_rfl, Int.lt_succ cursor⟩
    · have hnext : cursor + 1 ≤ date := hlater
      obtain ⟨period, hperiod, hcovers⟩ := ih (by omega) hnext
      exact ⟨period, List.mem_cons_of_mem _ hperiod, hcovers⟩

theorem iterArchivePeriods_covers {start last date : ℤ} (hstart : start ≤ date)
    (hdate : date < last) :
    ∃ period ∈ iterArchivePeriods start last (firstOfMonth last), period.Covers date := by
  rw [iterArchivePeriods, if_neg (by omega)]
  simp only [List.mem_append]
  obtain ⟨hlast, -⟩ := monthIndex_spec last
  obtain ⟨hfirst, -⟩ := monthIndex_spec start
  rcases lt_or_ge date (firstOfMonth last) with hbefore | hafter
  · obtain ⟨period, hperiod, hcovers⟩ :
        ∃ period ∈ monthlyPeriods start last (firstOfMonth last)
          (last - firstOfMonth start).toNat (firstOfMonth start), period.Covers date :=
      monthlyPeriods_covers hlast (by simp only [firstOfMonth]; omega) (by omega) hstart hbefore
    exact ⟨period, .inl hperiod, hcovers⟩
  · obtain ⟨period, hperiod, hcovers⟩ :
        ∃ period ∈ dailyPeriods last (last - max start (firstOfMonth last)).toNat
          (max start (firstOfMonth last)), period.Covers date :=
      dailyPeriods_covers (by omega) (by omega) hdate
    exact ⟨period, .inr hperiod, hcovers⟩

theorem mem_monthlyPeriods {start last cutoff k : ℤ} {n : ℕ} {period : ArchivePeriod}
    (h : period ∈ monthlyPeriods start last cutoff n (monthStart k)) :
    monthStart k ≤ period.day ∧ period.day < period.last ∧ period.last ≤ last := by
  induction n generalizing k with
  | zero => cases h
  | succ n ih =>
    rw [monthlyPeriods, nextMonth, monthIndex_monthStart] at h
    have hnext : monthStart k < monthStart (k + 1) := monthStart_strictMono (by omega)
    have hlater : period ∈ monthlyPeriods start last cutoff n (monthStart (k + 1)) →
        monthStart k ≤ period.day ∧ period.day < period.last ∧ period.last ≤ last := fun hrest => by
      have := ih hrest
      omega
    simp only at h
    split_ifs at h with hguard hyield
    · rcases List.mem_cons.mp h with rfl | hrest
      · refine ⟨le_rfl, ?_⟩
        rw [ArchivePeriod.last, nextMonth, monthIndex_monthStart]
        exact ⟨hnext, hyield.2.1⟩
      · exact hlater hrest
    · exact hlater h
    · cases h

theorem mem_dailyPeriods {last cursor : ℤ} {n : ℕ} {period : ArchivePeriod}
    (h : period ∈ dailyPeriods last n cursor) :
    cursor ≤ period.day ∧ period.day < period.last ∧ period.last ≤ last := by
  induction n generalizing cursor with
  | zero => cases h
  | succ n ih =>
    rw [dailyPeriods] at h
    split_ifs at h with hguard
    · rcases List.mem_cons.mp h with rfl | hrest
      · exact ⟨le_rfl, Int.lt_succ cursor, hguard⟩
      · have := ih hrest
        omega
    · cases h

theorem mem_iterArchivePeriods {start last cutoff : ℤ} {period : ArchivePeriod}
    (h : period ∈ iterArchivePeriods start last cutoff) :
    firstOfMonth start ≤ period.day ∧ period.day < period.last ∧ period.last ≤ last := by
  unfold iterArchivePeriods at h
  split_ifs at h with hempty
  · cases h
  · rcases List.mem_append.mp h with hmonth | hday
    · exact mem_monthlyPeriods hmonth
    · have := mem_dailyPeriods hday
      have := (monthIndex_spec start).1
      simp only [firstOfMonth]
      omega

structure KlineRecord where
  openTime : ℤ
  «open» : String
  high : String
  low : String
  close : String
  baseVolume : String
  closeTime : ℤ
  quoteVolume : String
  trades : String
  takerBase : String
  takerQuote : String
  ignore : String
  deriving DecidableEq, Repr

def timestampToMilliseconds (value : ℤ) : Except ArchiveError ℤ :=
  if 1000000000000000 ≤ value then .ok (value / 1000)
  else if value < 1000000000000 then
    .error (.value "archive timestamp is outside the supported epoch range")
  else .ok value

def milliseconds (u : Unicode) (text : String) : Except ArchiveError ℤ :=
  match u.int text with
  | none => .error (.value "invalid literal for int() with base 10")
  | some value => timestampToMilliseconds value

def parseKlineRow (u : Unicode) (values : List String) : Except ArchiveError (Option KlineRecord) :=
  match values with
  | [] => .ok none
  | [openTime, «open», high, low, close, baseVolume, closeTime, quoteVolume, trades, takerBase,
      takerQuote, ignore] =>
    if ¬ u.isdigit openTime.toList then .ok none
    else do
      let openMs ← milliseconds u openTime
      let closeMs ← milliseconds u closeTime
      return some { openTime := openMs, «open», high, low, close, baseVolume, closeTime := closeMs,
                    quoteVolume, trades, takerBase, takerQuote, ignore }
  | _ => .error (.value "unexpected Binance kline column count")

abbrev Archive := Except ArchiveError (List (Except ArchiveError (List (List String))))

def parseKlineZip (u : Unicode) (archive : Archive) : Except ArchiveError (List KlineRecord) := do
  match ← archive with
  | [member] => do
    let rows ← member
    let records ← rows.mapM (parseKlineRow u)
    return records.filterMap id
  | _ => throw (.value "Binance archive must contain exactly one CSV")

inductive FetchStatus
  | available
  | missing
  deriving DecidableEq, Repr

def FetchStatus.value : FetchStatus → String
  | .available => "available"
  | .missing => "missing"

/-- The outcome for one period; the path stands for the archive found there. -/
structure ArchiveFetch where
  market : ArchiveMarket
  symbol : String
  interval : String
  period : ArchivePeriod
  status : FetchStatus
  path : Option Archive
  sha256 : Option String

end ChainQuantStudio.Exchanges.BinanceArchive
