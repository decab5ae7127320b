import ChainQuantStudio.Library.Run
import Mathlib.Data.List.DropRight
import Mathlib.Data.Nat.ModEq

/-!
# Counted occurrences

A tally counts the occurrences of each key and reports the ones whose count is notable. A streak
counts hits in a row; the hit that reaches the limit trips and starts the count again.
-/

namespace ChainQuantStudio.Tallies

open Run

structure Tally (κ : Type*) where
  counts : κ → ℕ := fun _ => 0
  reported : List (κ × ℕ) := []
  suppressed : ℕ := 0

namespace Tally

variable {κ : Type*} [DecidableEq κ]

def record (notable : ℕ → Bool) (tally : Tally κ) (key : κ) : Tally κ :=
  let count := tally.counts key + 1
  let counts := Function.update tally.counts key count
  if notable count then { tally with counts, reported := tally.reported ++ [(key, count)] }
  else { tally with counts, suppressed := tally.suppressed + 1 }

def reportsOf (tally : Tally κ) (key : κ) : List ℕ :=
  (tally.reported.filter fun report => report.1 = key).map Prod.snd

variable (notable : ℕ → Bool) (tally : Tally κ) (key : κ)

theorem record_counts :
    (tally.record notable key).counts =
      Function.update tally.counts key (tally.counts key + 1) := by
  unfold record
  dsimp only
  split <;> rfl

theorem record_total :
    (tally.record notable key).reported.length + (tally.record notable key).suppressed =
      tally.reported.length + tally.suppressed + 1 := by
  unfold record
  dsimp only
  split
  · simp only [List.length_append, List.length_singleton]
    omega
  · rfl

theorem record_reportsOf (other : κ) :
    (tally.record notable key).reportsOf other = tally.reportsOf other ++
      if other = key ∧ notable (tally.counts key + 1) = true then [tally.counts key + 1]
      else [] := by
  unfold record reportsOf
  dsimp only
  split
  case isTrue hnotable =>
    by_cases hkey : other = key
    · simp [hkey, hnotable]
    · simp [hkey, Ne.symm hkey]
  case isFalse hnotable => simp [hnotable]

theorem run_counts (keys : List κ) :
    (run (record notable) tally keys).counts key = tally.counts key + keys.count key := by
  induction keys generalizing tally with
  | nil => rfl
  | cons first keys ih =>
    rw [run_cons, ih, record_counts]
    by_cases hkey : key = first
    · subst hkey
      rw [Function.update_self, List.count_cons_self]
      omega
    · rw [Function.update_of_ne hkey, List.count_cons_of_ne (Ne.symm hkey)]

theorem run_total (keys : List κ) :
    (run (record notable) tally keys).reported.length +
        (run (record notable) tally keys).suppressed =
      tally.reported.length + tally.suppressed + keys.length := by
  induction keys generalizing tally with
  | nil => rfl
  | cons first keys ih =>
    rw [run_cons, ih, record_total, List.length_cons]
    omega

def Reporting : Prop :=
  ∀ key, tally.reportsOf key = (List.range' 1 (tally.counts key)).filter notable

variable {notable tally}

theorem Reporting.record (h : tally.Reporting notable) :
    (tally.record notable key).Reporting notable := by
  intro other
  rw [record_reportsOf, record_counts, h other]
  by_cases hkey : other = key
  · subst hkey
    have hlast : 1 + 1 * tally.counts other = tally.counts other + 1 := by omega
    rw [Function.update_self, List.range'_concat, List.filter_append, hlast]
    by_cases hnotable : notable (tally.counts other + 1) = true <;> simp [hnotable]
  · rw [Function.update_of_ne hkey, if_neg fun hboth => hkey hboth.1, List.append_nil]

theorem Reporting.run (h : tally.Reporting notable) (keys : List κ) :
    (run (Tally.record notable) tally keys).Reporting notable := by
  induction keys generalizing tally with
  | nil => exact h
  | cons first keys ih => exact ih (h.record first)

theorem reporting_empty : (({} : Tally κ)).Reporting notable := fun _ => rfl

end Tally

inductive Mark
  | hit
  | miss
  | pass
  deriving DecidableEq, Repr

namespace Mark

/-- The count that a mark leaves. -/
def next (limit count : ℕ) : Mark → ℕ
  | .hit => if limit ≤ count + 1 then 0 else count + 1
  | .miss => 0
  | .pass => count

def trips (limit count : ℕ) : Mark → Bool
  | .hit => limit ≤ count + 1
  | _ => false

variable {limit : ℕ}

/-- The hits since the last miss. -/
def row (marks : List Mark) : ℕ := (marks.rtakeWhile (· ≠ .miss)).count .hit

theorem row_concat (marks : List Mark) (mark : Mark) :
    row (marks ++ [mark]) =
      match mark with
      | .hit => row marks + 1
      | .miss => 0
      | .pass => row marks := by
  cases mark <;> simp [row]

theorem succ_mod (hlimit : 0 < limit) (n : ℕ) :
    (n + 1) % limit = if limit ≤ n % limit + 1 then 0 else n % limit + 1 := by
  have hlt := Nat.mod_lt n hlimit
  have hn := Nat.mod_add_div n limit
  split
  case isTrue hreached =>
    have hfull : n + 1 = limit * (n / limit + 1) := by
      rw [Nat.mul_add, Nat.mul_one]
      omega
    rw [hfull, Nat.mul_mod_right]
  case isFalse hbelow =>
    have hpart : n + 1 = n % limit + 1 + limit * (n / limit) := by omega
    rw [hpart, Nat.add_mul_mod_self_left, Nat.mod_eq_of_lt (not_le.mp hbelow)]

theorem next_row (hlimit : 0 < limit) (marks : List Mark) (mark : Mark) :
    mark.next limit (row marks % limit) = row (marks ++ [mark]) % limit := by
  rw [row_concat]
  cases mark with
  | hit => exact (succ_mod hlimit (row marks)).symm
  | miss => exact (Nat.zero_mod limit).symm
  | pass => rfl

theorem trips_row (hlimit : 0 < limit) (marks : List Mark) (mark : Mark) :
    mark.trips limit (row marks % limit) = true ↔
      mark = .hit ∧ limit ∣ row (marks ++ [mark]) := by
  cases mark with
  | hit =>
    rw [row_concat, Nat.dvd_iff_mod_eq_zero, succ_mod hlimit]
    by_cases hreached : limit ≤ row marks % limit + 1 <;> simp [trips, hreached]
  | miss => simp [trips]
  | pass => simp [trips]

def completed (limit : ℕ) (marks : List Mark) : ℕ :=
  ((List.range marks.length).filter fun i =>
    marks[i]? = some .hit ∧ limit ∣ row (marks.take (i + 1))).length

theorem completed_concat (marks : List Mark) (mark : Mark) :
    completed limit (marks ++ [mark]) = completed limit marks +
      if mark = .hit ∧ limit ∣ row (marks ++ [mark]) then 1 else 0 := by
  have hsame : ∀ i ∈ List.range marks.length,
      decide ((marks ++ [mark])[i]? = some .hit ∧
          limit ∣ row ((marks ++ [mark]).take (i + 1))) =
        decide (marks[i]? = some .hit ∧ limit ∣ row (marks.take (i + 1))) := by
    intro i hmem
    have hlt := List.mem_range.mp hmem
    rw [List.getElem?_append_left hlt, List.take_append_of_le_length hlt]
  have hlast : (marks ++ [mark]).take (marks.length + 1) = marks ++ [mark] :=
    List.take_of_length_le (by simp)
  unfold completed
  rw [List.length_append, List.length_singleton, List.range_succ, List.filter_append,
    List.length_append, List.filter_congr hsame]
  congr 1
  simp only [List.filter_cons, List.filter_nil, hlast, List.getElem?_concat_length,
    Option.some.injEq, decide_eq_true_eq]
  split <;> rfl

theorem completed_trips (hlimit : 0 < limit) (marks : List Mark) (mark : Mark) :
    completed limit (marks ++ [mark]) =
      completed limit marks + (mark.trips limit (row marks % limit)).toNat := by
  rw [completed_concat]
  congr 1
  by_cases h : mark.trips limit (row marks % limit) = true
  · rw [if_pos ((trips_row hlimit marks mark).mp h), h]
    rfl
  · rw [if_neg fun hboth => h ((trips_row hlimit marks mark).mpr hboth),
      Bool.eq_false_iff.mpr h]
    rfl

end Mark

end ChainQuantStudio.Tallies
