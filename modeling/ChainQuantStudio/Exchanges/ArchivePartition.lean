import ChainQuantStudio.Exchanges.BinanceArchive
import ChainQuantStudio.Library.Loops
import ChainQuantStudio.Library.Tiling

/-!
# Archive periods partition a range

The two loops over dates as Python runs them: a date after the year 9999 raises. With the first day
of the last month as the cutoff both loops end, and their periods tile the range.
-/

namespace ChainQuantStudio.Exchanges.BinanceArchive

open Calendar Loops Tiling

/-- A date of the years 1 to 9999. -/
structure Date where
  day : ℤ
  first_le : monthStart 12 ≤ day
  lt_end : day < monthStart 120000
  deriving DecidableEq

inductive DateError
  | value (message : String)
  | overflow (message : String)
  deriving DecidableEq, Repr

def dateOf (day : ℤ) (error : DateError) : Except DateError Date :=
  if h : monthStart 12 ≤ day ∧ day < monthStart 120000 then .ok ⟨day, h.1, h.2⟩ else .error error

theorem twelve_le_monthIndex (d : Date) : 12 ≤ monthIndex d.day := by
  have hlt := d.first_le.trans_lt (monthIndex_spec d.day).2
  have := monthStart_strictMono.lt_iff_lt.mp hlt
  omega

/-- `date(d.year, d.month, 1)`. -/
def Date.firstOfMonth (d : Date) : Date where
  day := Calendar.firstOfMonth d.day
  first_le := monthStart_strictMono.monotone (twelve_le_monthIndex d)
  lt_end := (monthIndex_spec d.day).1.trans_lt d.lt_end

def Date.max (a b : Date) : Date := if a.day < b.day then b else a

/-- `_next_month`. -/
def Date.nextMonth (d : Date) : Except DateError Date :=
  dateOf (Calendar.nextMonth d.day) (.value "year 10000 is out of range")

/-- `d + timedelta(days=1)`. -/
def Date.succ (d : Date) : Except DateError Date :=
  dateOf (d.day + 1) (.overflow "date value out of range")

def monthlyTurn (start last cutoff : Date) : Turn Date DateError ArchivePeriod := fun cursor =>
  if cursor.day < last.day ∧ cursor.day < cutoff.day then do
    let following ← cursor.nextMonth
    let whole := start.day < following.day ∧ following.day ≤ last.day ∧ following.day ≤ cutoff.day
    return some (if whole then [⟨.monthly, cursor.day⟩] else [], following)
  else return none

def dailyTurn (last : Date) : Turn Date DateError ArchivePeriod := fun cursor =>
  if cursor.day < last.day then do
    let following ← cursor.succ
    return some ([⟨.daily, cursor.day⟩], following)
  else return none

/-- The generator ends, having yielded these periods. -/
def Iterates (start last cutoff : Date) (periods : List ArchivePeriod) : Prop :=
  if last.day ≤ start.day then periods = []
  else ∃ monthly daily, Yields (monthlyTurn start last cutoff) start.firstOfMonth monthly ∧
    Yields (dailyTurn last) (start.max cutoff) daily ∧ periods = monthly ++ daily

instance (period : ArchivePeriod) (date : ℤ) : Decidable (period.Covers date) :=
  inferInstanceAs (Decidable (_ ∧ _))

/-- No two periods share a day, and each day of the range lies in one of them. -/
structure Partitions (start last : ℤ) (periods : List ArchivePeriod) : Prop where
  disjoint : periods.Pairwise fun p q => Disjoint {d | p.Covers d} {d | q.Covers d}
  covered : ∀ d, start ≤ d → d < last → periods.countP (fun p => p.Covers d) = 1

def Date.IsFirst (d : Date) : Prop := monthStart (monthIndex d.day) = d.day

theorem isFirst_firstOfMonth (d : Date) : d.firstOfMonth.IsFirst := by
  simp only [Date.IsFirst, Date.firstOfMonth, Calendar.firstOfMonth, monthIndex_monthStart]

theorem Date.IsFirst.nextMonth_le {d e : Date} (hd : d.IsFirst) (he : e.IsFirst)
    (h : d.day < e.day) :
    d.day < Calendar.nextMonth d.day ∧ Calendar.nextMonth d.day ≤ e.day := by
  rw [← hd, ← he, monthStart_strictMono.lt_iff_lt] at h
  constructor
  · rw [Calendar.nextMonth]
    exact (monthIndex_spec d.day).2
  · rw [Calendar.nextMonth, ← he]
    exact monthStart_strictMono.monotone h

theorem Date.IsFirst.start_lt_nextMonth {start d : Date} (hd : d.IsFirst)
    (hstart : start.firstOfMonth.day ≤ d.day) : start.day < Calendar.nextMonth d.day := by
  have hmonths : monthStart (monthIndex start.day) ≤ d.day := hstart
  rw [← hd, monthStart_strictMono.le_iff_le] at hmonths
  rw [Calendar.nextMonth]
  exact (monthIndex_spec start.day).2.trans_le (monthStart_strictMono.monotone (by omega))

theorem dateOf_of_le {day : ℤ} (error : DateError) {d e : Date} (hd : d.day ≤ day)
    (he : day ≤ e.day) : ∃ f, dateOf day error = .ok f ∧ f.day = day :=
  ⟨_, dif_pos ⟨d.first_le.trans hd, he.trans_lt e.lt_end⟩, rfl⟩

section

variable {start last cursor : Date}

theorem firstOfMonth_le (d : Date) : d.firstOfMonth.day ≤ d.day := (monthIndex_spec d.day).1

theorem monthlyTurn_stop (h : last.firstOfMonth.day ≤ cursor.day) :
    monthlyTurn start last last.firstOfMonth cursor = .ok none :=
  if_neg fun hguard => absurd hguard.2 (not_lt.mpr h)

theorem monthlyTurn_next (hcursor : cursor.IsFirst) (hstart : start.firstOfMonth.day ≤ cursor.day)
    (h : cursor.day < last.firstOfMonth.day) :
    ∃ following : Date, monthlyTurn start last last.firstOfMonth cursor =
        .ok (some ([⟨.monthly, cursor.day⟩], following)) ∧
      following.IsFirst ∧ following.day = Calendar.nextMonth cursor.day ∧
      cursor.day < following.day ∧ following.day ≤ last.firstOfMonth.day := by
  have hlast := firstOfMonth_le last
  obtain ⟨hlater, hcutoff⟩ := hcursor.nextMonth_le (isFirst_firstOfMonth last) h
  obtain ⟨following, hfollowing, hday⟩ :=
    dateOf_of_le (.value "year 10000 is out of range") hlater.le hcutoff
  have hafter := hcursor.start_lt_nextMonth hstart
  refine ⟨following, ?_, ?_, hday, by omega, by omega⟩
  · have hguard : cursor.day < last.day ∧ cursor.day < last.firstOfMonth.day := by omega
    have hwhole : start.day < following.day ∧ following.day ≤ last.day ∧
        following.day ≤ last.firstOfMonth.day := by omega
    simp only [monthlyTurn, if_pos hguard, Date.nextMonth, hfollowing, bind, Except.bind, pure,
      Except.pure, if_pos hwhole]
  · rw [Date.IsFirst, hday, Calendar.nextMonth, monthIndex_monthStart]

theorem dailyTurn_stop (h : last.day ≤ cursor.day) : dailyTurn last cursor = .ok none :=
  if_neg (not_lt.mpr h)

theorem dailyTurn_next (h : cursor.day < last.day) :
    ∃ following : Date, dailyTurn last cursor = .ok (some ([⟨.daily, cursor.day⟩], following)) ∧
      following.day = cursor.day + 1 := by
  obtain ⟨following, hfollowing, hday⟩ := dateOf_of_le (.overflow "date value out of range")
    (show cursor.day ≤ cursor.day + 1 by omega) (show cursor.day + 1 ≤ last.day by omega)
  refine ⟨following, ?_, hday⟩
  simp only [dailyTurn, if_pos h, Date.succ, hfollowing, bind, Except.bind, pure, Except.pure]

theorem yields_monthlyPeriods {n : ℕ} (hcursor : cursor.IsFirst)
    (hstart : start.firstOfMonth.day ≤ cursor.day) (hn : (last.day - cursor.day).toNat ≤ n) :
    Yields (monthlyTurn start last last.firstOfMonth) cursor
      (monthlyPeriods start.day last.day last.firstOfMonth.day n cursor.day) := by
  refine yields_of_measure (fun d : Date => d.IsFirst ∧ start.firstOfMonth.day ≤ d.day)
    (fun d : Date => (last.day - d.day).toNat)
    (fun n (d : Date) => monthlyPeriods start.day last.day last.firstOfMonth.day n d.day)
    ?_ ⟨hcursor, hstart⟩ hn
  rintro n d ⟨hd, hstart⟩ hmeasure
  have hlast := firstOfMonth_le last
  rcases lt_or_ge d.day last.firstOfMonth.day with hmore | hstop
  · obtain ⟨following, hturn, hfirst, hday, hlater, hcutoff⟩ := monthlyTurn_next hd hstart hmore
    obtain ⟨m, rfl⟩ : ∃ m, n = m + 1 := Nat.exists_eq_succ_of_ne_zero (by omega)
    refine .inr ⟨m, _, following, rfl, hturn, ?_, ⟨hfirst, by omega⟩, by omega⟩
    have hafter := (hd.start_lt_nextMonth hstart)
    simp only [monthlyPeriods]
    rw [if_pos (by omega), if_pos (by omega), hday]
    rfl
  · refine .inl ⟨monthlyTurn_stop hstop, ?_⟩
    cases n with
    | zero => rfl
    | succ n => exact if_neg (by omega)

theorem yields_dailyPeriods {n : ℕ} (hn : (last.day - cursor.day).toNat ≤ n) :
    Yields (dailyTurn last) cursor (dailyPeriods last.day n cursor.day) := by
  refine yields_of_measure (fun _ : Date => True) (fun d : Date => (last.day - d.day).toNat)
    (fun n (d : Date) => dailyPeriods last.day n d.day) ?_ trivial hn
  rintro n d - hmeasure
  rcases lt_or_ge d.day last.day with hmore | hstop
  · obtain ⟨following, hturn, hday⟩ := dailyTurn_next hmore
    obtain ⟨m, rfl⟩ : ∃ m, n = m + 1 := Nat.exists_eq_succ_of_ne_zero (by omega)
    refine .inr ⟨m, _, following, rfl, hturn, ?_, trivial, by omega⟩
    simp only [dailyPeriods]
    rw [if_pos hmore, hday]
    rfl
  · refine .inl ⟨dailyTurn_stop hstop, ?_⟩
    cases n with
    | zero => rfl
    | succ n => exact if_neg (not_lt.mpr hstop)

theorem tiles_monthly {periods : List ArchivePeriod}
    (h : Yields (monthlyTurn start last last.firstOfMonth) cursor periods)
    (hcursor : cursor.IsFirst) (hstart : start.firstOfMonth.day ≤ cursor.day)
    (hcutoff : cursor.day ≤ last.firstOfMonth.day) :
    Tiles ArchivePeriod.day ArchivePeriod.last cursor.day periods last.firstOfMonth.day := by
  refine tiles_of_yields (fun d : Date => d.IsFirst ∧ start.firstOfMonth.day ≤ d.day ∧
    d.day ≤ last.firstOfMonth.day) Date.day ?_ h ⟨hcursor, hstart, hcutoff⟩
  rintro d ⟨hd, hstart, hcutoff⟩
  rcases lt_or_eq_of_le hcutoff with hmore | hdone
  · obtain ⟨following, hturn, hfirst, hday, hlater, hle⟩ := monthlyTurn_next hd hstart hmore
    exact .inr ⟨_, following, hturn, rfl, hday.symm, hlater, hfirst, by omega, hle⟩
  · exact .inl ⟨monthlyTurn_stop hdone.ge, hdone⟩

theorem tiles_daily {periods : List ArchivePeriod} (h : Yields (dailyTurn last) cursor periods)
    (hcursor : cursor.day ≤ last.day) :
    Tiles ArchivePeriod.day ArchivePeriod.last cursor.day periods last.day := by
  refine tiles_of_yields (fun d : Date => d.day ≤ last.day) Date.day ?_ h hcursor
  intro d hd
  rcases lt_or_eq_of_le hd with hmore | hdone
  · obtain ⟨following, hturn, hday⟩ := dailyTurn_next hmore
    exact .inr ⟨_, following, hturn, rfl, hday.symm, by omega, by omega⟩
  · exact .inl ⟨dailyTurn_stop hdone.ge, hdone⟩

theorem day_max (a b : Date) : (a.max b).day = max a.day b.day := by
  unfold Date.max
  split_ifs with h
  · exact (max_eq_right h.le).symm
  · exact (max_eq_left (not_lt.mp h)).symm

theorem firstOfMonth_mono {a b : Date} (h : a.day ≤ b.day) :
    a.firstOfMonth.day ≤ b.firstOfMonth.day := by
  have hlt := ((monthIndex_spec a.day).1.trans h).trans_lt (monthIndex_spec b.day).2
  have hmonths := monthStart_strictMono.lt_iff_lt.mp hlt
  exact monthStart_strictMono.monotone (by omega)

theorem iterates_iterArchivePeriods (start last : Date) :
    Iterates start last last.firstOfMonth
      (iterArchivePeriods start.day last.day last.firstOfMonth.day) := by
  unfold Iterates iterArchivePeriods
  split_ifs with hempty
  · rfl
  · have hmonthly := @yields_monthlyPeriods start last start.firstOfMonth _
      (isFirst_firstOfMonth start) le_rfl le_rfl
    have hdaily := @yields_dailyPeriods last (start.max last.firstOfMonth) _ le_rfl
    rw [day_max] at hdaily
    exact ⟨_, _, hmonthly, hdaily, rfl⟩

theorem iterates_iff {start last : Date} {periods : List ArchivePeriod} :
    Iterates start last last.firstOfMonth periods ↔
      periods = iterArchivePeriods start.day last.day last.firstOfMonth.day := by
  have hmodel := iterates_iterArchivePeriods start last
  constructor
  · intro h
    unfold Iterates at h hmodel
    split_ifs at h hmodel with hempty
    · rw [h, hmodel]
    · obtain ⟨monthly, daily, hmonthly, hdaily, rfl⟩ := h
      obtain ⟨monthly', daily', hmonthly', hdaily', heq⟩ := hmodel
      rw [heq, hmonthly.unique hmonthly', hdaily.unique hdaily']
  · rintro rfl
    exact hmodel

theorem archivePeriods_partition (start last : Date) (h : start.day < last.day) :
    (∃ periods, Iterates start last last.firstOfMonth periods) ∧
    ∀ periods, Iterates start last last.firstOfMonth periods →
      Partitions start.day last.day periods := by
  refine ⟨⟨_, iterates_iterArchivePeriods start last⟩, fun periods hperiods => ?_⟩
  rw [Iterates, if_neg (not_le.mpr h)] at hperiods
  obtain ⟨monthly, daily, hmonthly, hdaily, rfl⟩ := hperiods
  have hstart := firstOfMonth_le start
  have hlast := firstOfMonth_le last
  have hmonths := tiles_monthly hmonthly (isFirst_firstOfMonth start) le_rfl
    (firstOfMonth_mono h.le)
  have hdays := tiles_daily hdaily (by rw [day_max]; omega)
  rw [day_max] at hdays
  have hlater := le_max_right start.day last.firstOfMonth.day
  refine ⟨hmonths.disjoint_append hdays hlater, fun d hd hd' => ?_⟩
  rcases lt_or_ge d last.firstOfMonth.day with hwithin | hbeyond
  · exact hmonths.count_append_left hdays hlater (hstart.trans hd) hwithin
  · exact hmonths.count_append_right hdays hlater (max_le hd hbeyond) hd'

end

def midJanuary : Date := ⟨18276, by decide, by decide⟩

def earlyApril : Date := ⟨18355, by decide, by decide⟩

theorem archivePeriods_partition_first_quarter :
    midJanuary.day < earlyApril.day ∧
      (∃ periods, Iterates midJanuary earlyApril earlyApril.firstOfMonth periods) ∧
      ∀ periods, Iterates midJanuary earlyApril earlyApril.firstOfMonth periods →
        Partitions midJanuary.day earlyApril.day periods :=
  ⟨by decide, archivePeriods_partition midJanuary earlyApril (by decide)⟩

end ChainQuantStudio.Exchanges.BinanceArchive
