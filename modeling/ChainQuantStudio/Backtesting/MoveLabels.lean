import ChainQuantStudio.Backtesting.DslSoundness
import ChainQuantStudio.Backtesting.GenericEngine

/-!
# Labels of future moves

Where numbers are ordered, comparing the highest high and the lowest low of a window with the
threshold asks whether some bar of the window reached it.
-/

namespace ChainQuantStudio.Backtesting

open Columns Dsl FloatArith

variable {F : Type} [FloatArith F]

def rose (threshold close high : F) : Bool := le threshold (sub (div high close) (ofRat 1))

def fell (threshold close low : F) : Bool := le threshold (sub (ofRat 1) (div low close))

def highest (values : List F) : Option F :=
  (extremum (fun value best => lt best value) values).toOption

def lowest (values : List F) : Option F := (extremum lt values).toOption

def moved (threshold close : F) (highs lows : List F) : Bool :=
  (highest highs).any (rose threshold close) || (lowest lows).any (fell threshold close)

def moveLabel (threshold : F) (bars : ℕ) (high low : List F) (row : F × ℕ) : Option Bool :=
  let window (column : List F) : List F := slice column (row.2 + 1) (row.2 + 1 + bars)
  if (window high).length ≠ bars ∨ le row.1 (ofRat 0) then none
  else some (moved threshold row.1 (window high) (window low))

omit [FloatArith F] in
theorem extremum_spec {better : F → F → Bool} {r : F → F → Prop} (hrefl : ∀ x, r x x)
    (htrans : ∀ x y z, r x y → r y z → r x z) (hyes : ∀ x y, better x y = true → r x y)
    (hno : ∀ x y, better x y = false → r y x) {values : List F} {best : F}
    (h : extremum better values = .ok best) : best ∈ values ∧ ∀ x ∈ values, r best x := by
  cases values with
  | nil => simp [extremum] at h
  | cons first rest =>
    simp only [extremum, Except.ok.injEq] at h
    induction rest generalizing first with
    | nil =>
      obtain rfl : first = best := h
      exact ⟨by simp, by simpa using hrefl first⟩
    | cons value rest ih =>
      rw [List.foldl_cons] at h
      obtain ⟨hmem, hbest⟩ := ih _ h
      cases hb : better value first with
      | true =>
        simp only [hb, if_true] at hmem hbest
        refine ⟨List.mem_cons_of_mem _ hmem, fun x hx => ?_⟩
        rcases List.mem_cons.mp hx with rfl | hx
        · exact htrans _ _ _ (hbest value (by simp)) (hyes _ _ hb)
        · exact hbest x hx
      | false =>
        simp only [hb, Bool.false_eq_true, if_false] at hmem hbest
        refine ⟨?_, fun x hx => ?_⟩
        · rcases List.mem_cons.mp hmem with rfl | hmem
          · simp
          · simp [hmem]
        · rcases List.mem_cons.mp hx with rfl | hx
          · exact hbest x (by simp)
          · rcases List.mem_cons.mp hx with rfl | hx
            · exact htrans _ _ _ (hbest first (by simp)) (hno _ _ hb)
            · exact hbest x (by simp [hx])

theorem labelAt_zero {threshold : F} {high low : List F} {row : F × ℕ} {label : Option Bool}
    (h : labelAt threshold 0 high low row = .ok label) : label = none := by
  obtain ⟨close, index⟩ := row
  have hempty : ∀ column : List F, slice column (index + 1) (index + 1 + 0) = [] := by
    intro column
    rw [← List.length_eq_zero_iff, length_slice]
    omega
  simp only [labelAt, hempty] at h
  split_ifs at h with hnone
  · exact (Except.ok.inj h).symm
  · cases h

def MovesWithin (threshold : F) (bars : ℕ) (high low : List F) (close : F) (index : ℕ) : Prop :=
  ∃ j, index < j ∧ j ≤ index + bars ∧
    ((∃ x ∈ high[j]?, rose threshold close x = true) ∨
      ∃ x ∈ low[j]?, fell threshold close x = true)

omit [FloatArith F] in
theorem any_slice {p : F → Bool} {column : List F} {index bars : ℕ} :
    (slice column (index + 1) (index + 1 + bars)).any p = true ↔
      ∃ j, index < j ∧ j ≤ index + bars ∧ ∃ x ∈ column[j]?, p x = true := by
  rw [List.any_eq_true]
  constructor
  · rintro ⟨x, hx, hp⟩
    obtain ⟨j, hfirst, hlast, hj⟩ := mem_slice.mp hx
    exact ⟨j, by omega, by omega, x, hj, hp⟩
  · rintro ⟨j, hfirst, hlast, x, hj, hp⟩
    exact ⟨x, mem_slice.mpr ⟨j, by omega, by omega, hj⟩, hp⟩

theorem moveLabel_eq_some_true {threshold : F} {bars : ℕ} (hbars : 1 ≤ bars) {high low : List F}
    {close : F} {index : ℕ} :
    moveLabel threshold bars high low (close, index) = some true ↔
      index + bars < high.length ∧ le close (ofRat 0) = false ∧
        moved threshold close (slice high (index + 1) (index + 1 + bars))
          (slice low (index + 1) (index + 1 + bars)) = true := by
  simp only [moveLabel, length_slice]
  split_ifs with hnone
  · simp only [false_iff, not_and]
    intro hwhole hclose
    rcases hnone with hshort | hle
    · omega
    · simp [hclose] at hle
  · rw [not_or, Bool.not_eq_true] at hnone
    have hwhole : index + bars < high.length := by omega
    simp [hwhole, hnone.2]

theorem moveLabel_eq_none {threshold : F} {bars : ℕ} (hbars : 1 ≤ bars) {high low : List F}
    {close : F} {index : ℕ} :
    moveLabel threshold bars high low (close, index) = none ↔
      high.length ≤ index + bars ∨ le close (ofRat 0) = true := by
  simp only [moveLabel, length_slice]
  split_ifs with hnone
  · simp only [true_iff]
    exact hnone.imp_left fun hshort => by omega
  · simp only [false_iff]
    exact fun hshort => hnone (hshort.imp_left fun hle => by omega)

theorem labelAt_eq {threshold : F} {bars : ℕ} (hbars : 1 ≤ bars) {high low : List F}
    (hlength : low.length = high.length) (row : F × ℕ) :
    labelAt threshold bars high low row = .ok (moveLabel threshold bars high low row) := by
  obtain ⟨close, index⟩ := row
  simp only [labelAt, moveLabel]
  split_ifs with hnone
  · rfl
  rw [not_or, not_not] at hnone
  obtain ⟨hwhole, -⟩ := hnone
  have hlow : (slice low (index + 1) (index + 1 + bars)).length = bars := by
    rw [length_slice, hlength, ← length_slice, hwhole]
  have hne : ∀ {column : List F}, column.length = bars → column ≠ [] := by
    rintro column hcolumn rfl
    simp only [List.length_nil] at hcolumn
    omega
  obtain ⟨top, htop⟩ := exists_extremum (fun value best => lt best value) (hne hwhole)
  obtain ⟨bottom, hbottom⟩ := exists_extremum lt (hne hlow)
  simp only [moved, highest, lowest, htop, hbottom, ok_bind, Except.toOption, Option.any_some]
  cases hrose : rose threshold close top with
  | true =>
    rw [rose] at hrose
    rw [if_pos hrose]
    rfl
  | false =>
    rw [rose] at hrose
    rw [if_neg (by simp [hrose])]
    rfl

section Ordered

variable [LinearOrder F] [OrderedFloatArith F]

theorem rose_mono {threshold close x y : F} (hclose : ofRat 0 < close) (hxy : x ≤ y)
    (hx : rose threshold close x = true) : rose threshold close y = true := by
  rw [rose, OrderedFloatArith.le_iff] at hx ⊢
  exact hx.trans (OrderedFloatArith.sub_le_sub _ _ _ _
    (OrderedFloatArith.div_le_div _ _ _ hclose hxy) le_rfl)

theorem fell_mono {threshold close x y : F} (hclose : ofRat 0 < close) (hxy : x ≤ y)
    (hy : fell threshold close y = true) : fell threshold close x = true := by
  rw [fell, OrderedFloatArith.le_iff] at hy ⊢
  exact hy.trans (OrderedFloatArith.sub_le_sub _ _ _ _ le_rfl
    (OrderedFloatArith.div_le_div _ _ _ hclose hxy))

theorem rose_highest (threshold : F) {close highest : F} {values : List F} (hclose : ofRat 0 < close)
    (h : extremum (fun value best => lt best value) values = .ok highest) :
    rose threshold close highest = values.any (rose threshold close) := by
  obtain ⟨hmem, hbest⟩ := extremum_spec (r := fun x y : F => y ≤ x) le_refl
    (fun _ _ _ hxy hyz => hyz.trans hxy)
    (fun x y hlt => ((OrderedFloatArith.lt_iff y x).mp hlt).le)
    (fun x y hlt => not_lt.mp fun hyx => by simp [(OrderedFloatArith.lt_iff y x).mpr hyx] at hlt) h
  rw [Bool.eq_iff_iff, List.any_eq_true]
  constructor
  · intro hrose
    exact ⟨highest, hmem, hrose⟩
  · rintro ⟨x, hx, hrose⟩
    exact rose_mono hclose (hbest x hx) hrose

theorem fell_lowest (threshold : F) {close lowest : F} {values : List F} (hclose : ofRat 0 < close)
    (h : extremum lt values = .ok lowest) :
    fell threshold close lowest = values.any (fell threshold close) := by
  obtain ⟨hmem, hbest⟩ := extremum_spec (r := fun x y : F => x ≤ y) le_refl
    (fun _ _ _ hxy hyz => hxy.trans hyz)
    (fun x y hlt => ((OrderedFloatArith.lt_iff x y).mp hlt).le)
    (fun x y hlt => not_lt.mp fun hxy => by simp [(OrderedFloatArith.lt_iff x y).mpr hxy] at hlt) h
  rw [Bool.eq_iff_iff, List.any_eq_true]
  constructor
  · intro hfell
    exact ⟨lowest, hmem, hfell⟩
  · rintro ⟨x, hx, hfell⟩
    exact fell_mono hclose (hbest x hx) hfell

theorem moved_iff_movesWithin {threshold close : F} {bars : ℕ} (hbars : 1 ≤ bars)
    {high low : List F} {index : ℕ} (hclose : ofRat 0 < close)
    (hhigh : index + bars < high.length) (hlow : index + bars < low.length) :
    moved threshold close (slice high (index + 1) (index + 1 + bars))
        (slice low (index + 1) (index + 1 + bars)) = true ↔
      MovesWithin threshold bars high low close index := by
  have hne : ∀ {column : List F}, index + bars < column.length →
      slice column (index + 1) (index + 1 + bars) ≠ [] := by
    intro column hcolumn hnil
    have hlength := length_slice column (index + 1) (index + 1 + bars)
    rw [hnil, List.length_nil] at hlength
    omega
  obtain ⟨top, htop⟩ := exists_extremum (fun value best => lt best value) (hne hhigh)
  obtain ⟨bottom, hbottom⟩ := exists_extremum lt (hne hlow)
  simp only [moved, highest, lowest, htop, hbottom, Except.toOption, Option.any_some,
    rose_highest threshold hclose htop, fell_lowest threshold hclose hbottom, Bool.or_eq_true,
    any_slice]
  constructor
  · rintro (⟨j, hfirst, hlast, hrose⟩ | ⟨j, hfirst, hlast, hfell⟩)
    · exact ⟨j, hfirst, hlast, Or.inl hrose⟩
    · exact ⟨j, hfirst, hlast, Or.inr hfell⟩
  · rintro ⟨j, hfirst, hlast, hrose | hfell⟩
    · exact Or.inl ⟨j, hfirst, hlast, hrose⟩
    · exact Or.inr ⟨j, hfirst, hlast, hfell⟩

end Ordered

end ChainQuantStudio.Backtesting
