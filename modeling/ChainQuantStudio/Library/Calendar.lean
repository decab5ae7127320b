import Mathlib.Data.Int.ConditionallyCompleteOrder
import Mathlib.Data.Int.Order.Basic
import Mathlib.Tactic.Common
import Mathlib.Tactic.IntervalCases
import Mathlib.Tactic.Ring

/-!
# The proleptic Gregorian calendar

Dates are days since 1970-01-01, and months are counted from the January of year zero. Every month
starts after the one before it, and a date lies in exactly one month.
-/

namespace ChainQuantStudio.Calendar

def isLeap (year : ℤ) : Bool := year % 4 = 0 ∧ (year % 100 ≠ 0 ∨ year % 400 = 0)

def daysBeforeYear (year : ℤ) : ℤ :=
  let y := year - 1
  y * 365 + y / 4 - y / 100 + y / 400

/-- The days of a year before its month `month + 1`. -/
def daysBeforeMonth (leap : Bool) (month : ℤ) : ℤ :=
  let days := if month ≤ 0 then 0 else if month = 1 then 31 else if month = 2 then 59
    else if month = 3 then 90 else if month = 4 then 120 else if month = 5 then 151
    else if month = 6 then 181 else if month = 7 then 212 else if month = 8 then 243
    else if month = 9 then 273 else if month = 10 then 304 else if month = 11 then 334 else 365
  if leap ∧ 1 < month then days + 1 else days

def epoch : ℤ := 719162

def yearOf (days : ℤ) : ℤ :=
  let cycles := days / 146097
  let inCycle := days % 146097
  let centuries := min (inCycle / 36524) 3
  let inCentury := inCycle - centuries * 36524
  let fours := inCentury / 1461
  let inFour := inCentury % 1461
  let ones := min (inFour / 365) 3
  cycles * 400 + centuries * 100 + fours * 4 + ones + 1

def monthOf (leap : Bool) (day : ℤ) : ℤ :=
  ((List.range 11).filter fun (month : ℕ) => daysBeforeMonth leap (month + 1) ≤ day).length

def monthStart (month : ℤ) : ℤ :=
  daysBeforeYear (month / 12) + daysBeforeMonth (isLeap (month / 12)) (month % 12) - epoch

def monthIndex (date : ℤ) : ℤ :=
  let year := yearOf (date + epoch)
  12 * year + monthOf (isLeap year) (date + epoch - daysBeforeYear year)

def year (date : ℤ) : ℤ := monthIndex date / 12

def month (date : ℤ) : ℤ := monthIndex date % 12 + 1

def day (date : ℤ) : ℤ := date - monthStart (monthIndex date) + 1

def nextMonth (date : ℤ) : ℤ := monthStart (monthIndex date + 1)

def firstOfMonth (date : ℤ) : ℤ := monthStart (monthIndex date)

example : (year 19782, month 19782, day 19782) = (2024, 2, 29) := by decide +kernel

theorem daysBeforeYear_succ (y : ℤ) :
    daysBeforeYear (y + 1) = daysBeforeYear y + if isLeap y then 366 else 365 := by
  simp only [daysBeforeYear, isLeap, decide_eq_true_eq]
  split_ifs with h <;> omega

theorem daysBeforeYear_cycles {cycles centuries fours ones : ℤ}
    (hcenturies : 0 ≤ centuries ∧ centuries ≤ 3) (hfours : 0 ≤ fours ∧ fours ≤ 24)
    (hones : 0 ≤ ones ∧ ones ≤ 3) :
    daysBeforeYear (cycles * 400 + centuries * 100 + fours * 4 + ones + 1) =
      cycles * 146097 + centuries * 36524 + fours * 1461 + ones * 365 := by
  have hfour : (cycles * 400 + centuries * 100 + fours * 4 + ones + 1 - 1) / 4 =
      cycles * 100 + centuries * 25 + fours := by omega
  have hcentury : (cycles * 400 + centuries * 100 + fours * 4 + ones + 1 - 1) / 100 =
      cycles * 4 + centuries := by omega
  have hcycle : (cycles * 400 + centuries * 100 + fours * 4 + ones + 1 - 1) / 400 = cycles := by
    omega
  simp only [daysBeforeYear, hfour, hcentury, hcycle]
  ring

theorem daysBeforeYear_le_lt {days cycles inCycle centuries inCentury fours inFour ones : ℤ}
    (hcycles : days / 146097 = cycles) (hinCycle : days % 146097 = inCycle)
    (hcenturies : min (inCycle / 36524) 3 = centuries)
    (hinCentury : inCycle - centuries * 36524 = inCentury)
    (hfours : inCentury / 1461 = fours) (hinFour : inCentury % 1461 = inFour)
    (hones : min (inFour / 365) 3 = ones) :
    daysBeforeYear (cycles * 400 + centuries * 100 + fours * 4 + ones + 1) ≤ days ∧
      days < daysBeforeYear (cycles * 400 + centuries * 100 + fours * 4 + ones + 1 + 1) := by
  have hdays : days = cycles * 146097 + inCycle := by omega
  have hcenturies' : 0 ≤ centuries ∧ centuries ≤ 3 := by omega
  have hcentury : 0 ≤ inCentury ∧ (inCentury < 36524 ∨ (centuries = 3 ∧ inCentury = 36524)) := by
    omega
  have hfours' : 0 ≤ fours ∧ fours ≤ 24 := by omega
  have hfour : inCentury = fours * 1461 + inFour ∧ 0 ≤ inFour ∧ inFour < 1461 := by omega
  have hones' : 0 ≤ ones ∧ ones ≤ 3 := by omega
  rw [daysBeforeYear_succ (_ + 1), daysBeforeYear_cycles hcenturies' hfours' hones']
  refine ⟨by omega, ?_⟩
  by_cases hlast : inFour = 1460
  · -- the last day of four years is the last of a leap year
    have hthree : ones = 3 := by omega
    have hleap : isLeap (cycles * 400 + centuries * 100 + fours * 4 + ones + 1) = true := by
      rw [isLeap, decide_eq_true_eq]
      omega
    rw [if_pos hleap]
    omega
  · split_ifs <;> omega

theorem yearOf_spec (days : ℤ) :
    daysBeforeYear (yearOf days) ≤ days ∧ days < daysBeforeYear (yearOf days + 1) :=
  daysBeforeYear_le_lt rfl rfl rfl rfl rfl rfl rfl

theorem monthOf_spec (leap : Bool) {day : ℤ} (hfirst : 0 ≤ day)
    (hlast : day < if leap then 366 else 365) :
    0 ≤ monthOf leap day ∧ monthOf leap day < 12 ∧
      daysBeforeMonth leap (monthOf leap day) ≤ day ∧
      day < daysBeforeMonth leap (monthOf leap day + 1) := by
  have hall : ∀ leap : Bool, ∀ n < (if leap then 366 else 365),
      0 ≤ monthOf leap (n : ℕ) ∧ monthOf leap (n : ℕ) < 12 ∧
      daysBeforeMonth leap (monthOf leap (n : ℕ)) ≤ (n : ℕ) ∧
      (n : ℕ) < daysBeforeMonth leap (monthOf leap (n : ℕ) + 1) := by
    decide +kernel
  obtain ⟨n, rfl⟩ := Int.eq_ofNat_of_zero_le hfirst
  exact hall leap n (by split_ifs at hlast ⊢ <;> omega)

theorem daysBeforeMonth_lt_succ (leap : Bool) {month : ℤ} (hfirst : 0 ≤ month) (hlast : month < 12) :
    daysBeforeMonth leap month < daysBeforeMonth leap (month + 1) := by
  interval_cases month <;> cases leap <;> decide

theorem daysBeforeMonth_twelve (leap : Bool) :
    daysBeforeMonth leap 12 = if leap then 366 else 365 := by
  cases leap <;> decide

theorem monthStart_succ (month : ℤ) :
    monthStart (month + 1) = daysBeforeYear (month / 12) +
      daysBeforeMonth (isLeap (month / 12)) (month % 12 + 1) - epoch := by
  rcases lt_or_ge (month % 12) 11 with hwithin | hlast
  · have hyear : (month + 1) / 12 = month / 12 := by omega
    have hmonth : (month + 1) % 12 = month % 12 + 1 := by omega
    rw [monthStart, hyear, hmonth]
  · have hyear : (month + 1) / 12 = month / 12 + 1 := by omega
    have hmonth : (month + 1) % 12 = 0 := by omega
    have heleven : month % 12 = 11 := by omega
    have hzero : ∀ leap, daysBeforeMonth leap 0 = 0 := by decide
    rw [monthStart, hyear, hmonth, heleven, hzero, daysBeforeYear_succ]
    norm_num [daysBeforeMonth_twelve]

theorem monthStart_strictMono : StrictMono monthStart := by
  refine strictMono_int_of_lt_succ fun month => ?_
  rw [monthStart_succ, monthStart]
  have h := daysBeforeMonth_lt_succ (isLeap (month / 12)) (Int.emod_nonneg month (by decide))
    (Int.emod_lt_of_pos month (by decide))
  omega

theorem monthIndex_spec (date : ℤ) :
    monthStart (monthIndex date) ≤ date ∧ date < monthStart (monthIndex date + 1) := by
  obtain ⟨hyear, hyear'⟩ := yearOf_spec (date + epoch)
  rw [daysBeforeYear_succ] at hyear'
  unfold monthIndex
  simp only
  generalize yearOf (date + epoch) = y at hyear hyear' ⊢
  have hday : 0 ≤ date + epoch - daysBeforeYear y := by omega
  obtain ⟨hfirst, hlast, hmonth, hmonth'⟩ := monthOf_spec (isLeap y) hday (by omega)
  generalize monthOf (isLeap y) (date + epoch - daysBeforeYear y) = m at hfirst hlast hmonth hmonth' ⊢
  have hdiv : (12 * y + m) / 12 = y := by omega
  have hmod : (12 * y + m) % 12 = m := by omega
  rw [monthStart_succ, monthStart, hdiv, hmod]
  omega

theorem monthIndex_eq {date month : ℤ} (hfirst : monthStart month ≤ date)
    (hlast : date < monthStart (month + 1)) : monthIndex date = month := by
  obtain ⟨hindex, hindex'⟩ := monthIndex_spec date
  have hle := monthStart_strictMono.lt_iff_lt.mp (lt_of_le_of_lt hfirst hindex')
  have hge := monthStart_strictMono.lt_iff_lt.mp (lt_of_le_of_lt hindex hlast)
  omega

@[simp] theorem monthIndex_monthStart (month : ℤ) : monthIndex (monthStart month) = month :=
  monthIndex_eq le_rfl (monthStart_strictMono (by omega))

end ChainQuantStudio.Calendar
