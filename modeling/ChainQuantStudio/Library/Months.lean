import ChainQuantStudio.Library.Calendar

/-!
# Calendar months

A year and a month of it, in the order of the calendar, and the months from one to another.
-/

namespace ChainQuantStudio.Calendar

structure Month where
  year : ℤ
  month : ℤ
  one_le : 1 ≤ month
  le_twelve : month ≤ 12
  deriving DecidableEq

namespace Month

/-- The months since the January of year zero. -/
def index (m : Month) : ℤ := 12 * m.year + m.month - 1

def next (m : Month) : Month :=
  if h : m.month = 12 then ⟨m.year + 1, 1, by omega, by omega⟩
  else ⟨m.year, m.month + 1, by have := m.one_le; omega, by have := m.le_twelve; omega⟩

/-- `(a.year, a.month) <= (b.year, b.month)`. -/
def notAfter (a b : Month) : Bool := a.year < b.year || (a.year = b.year && a.month ≤ b.month)

def ofDate (date : ℤ) : Month :=
  ⟨Calendar.year date, Calendar.month date, by unfold Calendar.month; omega,
    by unfold Calendar.month; omega⟩

@[simp] theorem index_next (m : Month) : m.next.index = m.index + 1 := by
  unfold next index
  split_ifs with h
  · simp only [h]
    omega
  · simp only
    omega

theorem index_injective : Function.Injective index := by
  intro a b h
  have ha := a.one_le
  have ha' := a.le_twelve
  have hb := b.one_le
  have hb' := b.le_twelve
  obtain ⟨ya, ma, _, _⟩ := a
  obtain ⟨yb, mb, _, _⟩ := b
  simp only [index] at *
  obtain ⟨rfl, rfl⟩ : ya = yb ∧ ma = mb := by omega
  rfl

theorem notAfter_iff {a b : Month} : a.notAfter b = true ↔ a.index ≤ b.index := by
  have ha := a.one_le
  have ha' := a.le_twelve
  have hb := b.one_le
  have hb' := b.le_twelve
  simp only [notAfter, index, Bool.or_eq_true, Bool.and_eq_true, decide_eq_true_eq]
  omega

theorem index_ofDate (date : ℤ) : (ofDate date).index = monthIndex date := by
  unfold ofDate index Calendar.year Calendar.month
  simp only
  omega

/-- The months from `m` to `last`, none if that is earlier. -/
def through (last : Month) (m : Month) : List Month :=
  if m.notAfter last then m :: through last m.next else []
termination_by (last.index + 1 - m.index).toNat
decreasing_by
  rename_i h
  have hle := notAfter_iff.mp h
  rw [index_next]
  omega

theorem through_of_le {last m : Month} (h : m.index ≤ last.index) :
    through last m = m :: through last m.next := by
  rw [through, if_pos (notAfter_iff.mpr h)]

theorem through_of_lt {last m : Month} (h : last.index < m.index) : through last m = [] := by
  rw [through, if_neg]
  intro hle
  exact absurd (notAfter_iff.mp hle) (not_le.mpr h)

theorem mem_through {last m x : Month} :
    x ∈ through last m ↔ m.index ≤ x.index ∧ x.index ≤ last.index := by
  induction m using through.induct last with
  | case1 m hle ih =>
    have hle := notAfter_iff.mp hle
    rw [through_of_le hle, List.mem_cons, ih, index_next]
    constructor
    · rintro (rfl | hrest)
      · exact ⟨le_rfl, hle⟩
      · omega
    · rintro ⟨hfirst, hlast⟩
      rcases eq_or_lt_of_le hfirst with heq | hlt
      · exact .inl (index_injective heq.symm)
      · exact .inr ⟨hlt, hlast⟩
  | case2 m hlt =>
    have hlt : last.index < m.index := not_le.mp fun hle => hlt (notAfter_iff.mpr hle)
    rw [through_of_lt hlt]
    simp only [List.not_mem_nil, false_iff]
    omega

theorem through_isChain (last m : Month) : (through last m).IsChain fun a b => b = a.next := by
  induction m using through.induct last with
  | case1 m hle ih =>
    have hle := notAfter_iff.mp hle
    rw [through_of_le hle]
    rcases lt_or_ge last.index m.next.index with hlast | hmore
    · rw [through_of_lt hlast]
      exact .singleton _
    · rw [through_of_le hmore] at ih ⊢
      exact List.isChain_cons_cons.mpr ⟨rfl, ih⟩
  | case2 m hlt =>
    rw [through, if_neg hlt]
    exact .nil

theorem through_nodup (last m : Month) : (through last m).Nodup := by
  induction m using through.induct last with
  | case1 m hle ih =>
    rw [through_of_le (notAfter_iff.mp hle), List.nodup_cons]
    refine ⟨fun hmem => ?_, ih⟩
    have hlater := (mem_through.mp hmem).1
    rw [index_next] at hlater
    omega
  | case2 m hlt =>
    rw [through, if_neg hlt]
    exact List.nodup_nil

end Month

end ChainQuantStudio.Calendar
