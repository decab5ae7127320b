import ChainQuantStudio.Library.Calendar
import ChainQuantStudio.Library.Decimals

/-!
# Datetimes as Python's `datetime` keeps them

An aware datetime is the reading of a clock in a zone, in microseconds. Two datetimes of one zone
are compared by their readings, others by their instants. A reading is read from an ISO 8601 text,
or from a date and a clock of twelve hours as `strptime` reads them.
-/

namespace ChainQuantStudio.DateTimes

open PythonText Decimal

def dayLength : ℤ := 86400000000

def Ranged (wall : ℤ) : Prop := -62135596800000000 ≤ wall ∧ wall < 253402300800000000

instance (wall : ℤ) : Decidable (Ranged wall) := inferInstanceAs (Decidable (_ ∧ _))

/-- How far the clocks of a zone are ahead at a reading, the second of two equal ones if `fold`. -/
structure Zones (Z : Type) where
  offset : Z → ℤ → Bool → ℤ
  utc : Z
  offset_utc : ∀ wall fold, offset utc wall fold = 0

structure Aware (Z : Type) where
  wall : ℤ
  fold : Bool := false
  zone : Z
  ranged : Ranged wall
  deriving DecidableEq

variable {Z : Type}

def Zones.instant (z : Zones Z) (a : Aware Z) : ℤ := a.wall - z.offset a.zone a.wall a.fold

/-- `a < b`. -/
def Zones.before [DecidableEq Z] (z : Zones Z) (a b : Aware Z) : Bool :=
  if a.zone = b.zone then a.wall < b.wall else z.instant a < z.instant b

/-- Adding a `timedelta` moves the reading, whatever the zone says. -/
def Aware.plus (a : Aware Z) (duration : ℤ) : Option (Aware Z) :=
  if h : Ranged (a.wall + duration) then
    some { wall := a.wall + duration, zone := a.zone, ranged := h }
  else none

def Aware.startOfDay (a : Aware Z) : ℤ := a.wall - a.wall % dayLength

theorem ranged_of_sameDay {wall : ℤ} (h : Ranged wall) {time : ℤ}
    (htime : 0 ≤ time ∧ time < dayLength) : Ranged (wall - wall % dayLength + time) := by
  unfold Ranged dayLength at *
  omega

theorem lt_startOfDay_add (a : Aware Z) : a.wall < a.startOfDay + dayLength := by
  unfold Aware.startOfDay dayLength
  omega

/-- `datetime.combine(a.date(), time, tzinfo=a.tzinfo)`. -/
def Aware.combine (a : Aware Z) (time : { time : ℤ // 0 ≤ time ∧ time < dayLength }) : Aware Z where
  wall := a.startOfDay + time
  zone := a.zone
  ranged := ranged_of_sameDay a.ranged time.2

theorem ranged_nextDay_iff (a : Aware Z) (time : { time : ℤ // 0 ≤ time ∧ time < dayLength }) :
    Ranged ((a.combine time).wall + dayLength) ↔ Ranged (a.startOfDay + dayLength) := by
  have hranged := a.ranged
  have htime := time.2
  change Ranged (a.startOfDay + time + dayLength) ↔ _
  unfold Ranged Aware.startOfDay dayLength at *
  omega

/-- A zone of `datetime.timezone` is named by its offset. -/
def fixedOffset (zone _wall : ℤ) (_fold : Bool) : ℤ := zone

theorem fixedOffset_utc (wall : ℤ) (fold : Bool) : fixedOffset 0 wall fold = 0 := rfl

def fixedOffsets : Zones ℤ where
  offset := fixedOffset
  utc := 0
  offset_utc := fixedOffset_utc

section

variable [DecidableEq Z] {z : Zones Z} {a b : Aware Z}

theorem before_of_sameZone (h : a.zone = b.zone) : z.before a b = true ↔ a.wall < b.wall := by
  unfold Zones.before
  rw [if_pos h, decide_eq_true_eq]

theorem before_utc (h : b.zone = z.utc) : z.before a b = true ↔ z.instant a < b.wall := by
  have hinstant : z.instant b = b.wall := by
    unfold Zones.instant
    rw [h, z.offset_utc, sub_zero]
  unfold Zones.before
  split_ifs with hzone
  · have hzero : z.instant a = a.wall := by
      unfold Zones.instant
      rw [hzone.trans h, z.offset_utc, sub_zero]
    rw [decide_eq_true_eq, hzero]
  · rw [decide_eq_true_eq, hinstant]

theorem instant_lt_of_before (hfixed : ∀ wall fold, z.offset a.zone wall fold =
    z.offset a.zone a.wall a.fold) (h : z.before a b = true) : z.instant a < z.instant b := by
  unfold Zones.before at h
  split_ifs at h with hzone
  · have hwall := of_decide_eq_true h
    have hoffset := hfixed b.wall b.fold
    rw [hzone] at hoffset
    unfold Zones.instant
    rw [hzone, hoffset]
    exact sub_lt_sub_right hwall _
  · exact of_decide_eq_true h

end

def asciiDigit (c : Char) : Option ℕ := if c.isDigit then some (c.toNat - 48) else none

/-- The value of `n` digits at the start of a text, and what follows them. -/
def takeNumber (digit : Char → Option ℕ) (n : ℕ) (text : Text) : Option (ℕ × Text) :=
  let digits := (text.take n).filterMap digit
  if digits.length = n then some (natOf digits, text.drop n) else none

/-- `\s+`. -/
def takeSpaces (text : Text) : Option Text :=
  if text.head?.any isSpace then some (stripLeft text) else none

/-- The first reading of a day; the year is left to `Ranged`. -/
def dateReading (year month day : ℕ) : Option ℤ :=
  let index : ℤ := 12 * year + month - 1
  let first := Calendar.monthStart index
  if 1 ≤ month ∧ month ≤ 12 ∧ 1 ≤ day ∧ day ≤ Calendar.monthStart (index + 1) - first then
    some (dayLength * (first + day - 1))
  else none

/-- `YYYY-MM-DD` or `YYYYMMDD`. -/
def isoDate (text : Text) : Option (ℤ × Text) := do
  let (year, rest) ← takeNumber asciiDigit 4 text
  match rest with
  | '-' :: rest =>
    let (month, rest) ← takeNumber asciiDigit 2 rest
    match rest with
    | '-' :: rest =>
      let (day, rest) ← takeNumber asciiDigit 2 rest
      return (← dateReading year month day, rest)
    | _ => none
  | rest =>
    let (month, rest) ← takeNumber asciiDigit 2 rest
    let (day, rest) ← takeNumber asciiDigit 2 rest
    return (← dateReading year month day, rest)

structure Clock where
  hour : ℕ
  minute : ℕ := 0
  second : ℕ := 0

def Clock.length (clock : Clock) : ℤ :=
  (clock.hour * 3600 + clock.minute * 60 + clock.second) * 1000000

/-- `HH[:MM[:SS]]` or `HH[MM[SS]]`. -/
def isoClock (text : Text) : Option (Clock × Text) := do
  let (hour, rest) ← takeNumber asciiDigit 2 text
  match rest with
  | ':' :: rest =>
    let (minute, rest) ← takeNumber asciiDigit 2 rest
    match rest with
    | ':' :: rest =>
      let (second, rest) ← takeNumber asciiDigit 2 rest
      return ({ hour, minute, second }, rest)
    | rest => return ({ hour, minute }, rest)
  | rest =>
    match takeNumber asciiDigit 2 rest with
    | none => return ({ hour }, rest)
    | some (minute, rest) =>
      match takeNumber asciiDigit 2 rest with
      | none => return ({ hour, minute }, rest)
      | some (second, rest) => return ({ hour, minute, second }, rest)

/-- `datetime.fromisoformat` on a text of digits, separators and signs with a time of day: the
reading and, if there is one, the offset of its zone. -/
def fromIsoFormat (text : Text) : Option (ℤ × Option ℤ) := do
  let (date, rest) ← isoDate text
  let (clock, rest) ← isoClock (← rest.tail?)
  if Ranged date ∧ clock.hour < 24 ∧ clock.minute < 60 ∧ clock.second < 60 then
    match rest with
    | [] => return (date + clock.length, none)
    | sign :: rest =>
      let (ahead, rest) ← isoClock rest
      if (sign = '+' ∨ sign = '-') ∧ rest = [] ∧ ahead.length < dayLength then
        return (date + clock.length, some (if sign = '-' then -ahead.length else ahead.length))
      else none
  else none

def monthNames : List String :=
  ["jan", "feb", "mar", "apr", "may", "jun", "jul", "aug", "sep", "oct", "nov", "dec"]

/-- `%b`, counted from 1. -/
def takeMonth (text : Text) : Option (ℕ × Text) :=
  let index := (monthNames.map String.toList).idxOf ((text.take 3).map Char.toLower)
  if index < 12 then some (index + 1, text.drop 3) else none

/-- `%d` and a comma. -/
def takeDay : Text → Option (ℕ × Text)
  | c :: d :: ',' :: rest => do
    let tens ← asciiDigit c
    let day := 10 * tens + (← digitOf d)
    if (tens = 1 ∨ tens = 2 ∨ d.isDigit) ∧ 1 ≤ day ∧ day ≤ 31 then return (day, rest) else none
  | c :: ',' :: rest => do
    let day ← asciiDigit c
    if 1 ≤ day then return (day, rest) else none
  | _ => none

/-- `%I` and a colon. -/
def takeHour : Text → Option (ℕ × Text)
  | c :: d :: ':' :: rest => do
    let hour := 10 * (← asciiDigit c) + (← asciiDigit d)
    if 1 ≤ hour ∧ hour ≤ 12 then return (hour, rest) else none
  | c :: ':' :: rest => do
    let hour ← asciiDigit c
    if 1 ≤ hour then return (hour, rest) else none
  | _ => none

/-- `%M`. -/
def takeMinute : Text → Option (ℕ × Text)
  | c :: d :: rest =>
    match asciiDigit c, digitOf d with
    | some tens, some ones => if tens < 6 then some (10 * tens + ones, rest) else none
    | _, _ => takeNumber digitOf 1 (c :: d :: rest)
  | text => takeNumber digitOf 1 text

/-- `%p` at the end of a text: the hours that it adds. -/
def halfDay (text : Text) : Option ℕ :=
  if text.map Char.toLower = ['a', 'm'] then some 0
  else if text.map Char.toLower = ['p', 'm'] then some 12
  else none

/-- `%I:%M %p`. -/
def clockOf (text : Text) : Option Clock := do
  let (hour, rest) ← takeHour text
  let (minute, rest) ← takeMinute rest
  let half ← halfDay (← takeSpaces rest)
  return { hour := hour % 12 + half, minute }

/-- `datetime.strptime(text, "%I:%M %p").time()`. -/
def timeOf (text : Text) : Option { time : ℤ // 0 ≤ time ∧ time < dayLength } := do
  let clock ← clockOf text
  if h : 0 ≤ clock.length ∧ clock.length < dayLength then return ⟨clock.length, h⟩ else none

/-- `datetime.strptime(text, "%b %d, %Y %I:%M %p")`. -/
def datedOf (text : Text) : Option { wall : ℤ // Ranged wall } := do
  let (month, rest) ← takeMonth text
  let (day, rest) ← takeDay (← takeSpaces rest)
  let (year, rest) ← takeNumber digitOf 4 (← takeSpaces rest)
  let clock ← clockOf (← takeSpaces rest)
  let wall := (← dateReading year month day) + clock.length
  if h : Ranged wall then return ⟨wall, h⟩ else none

example : fromIsoFormat "2026-09-14T09:15:00+08:00".toList =
    some (1789377300000000, some 28800000000) := by
  decide +kernel

example : (datedOf "Sep 19, 2026 4:31 PM".toList).map (·.1) = some 1789835460000000 ∧
    datedOf "Sep 31, 2026 4:31 PM".toList = none := by
  decide +kernel

end ChainQuantStudio.DateTimes
