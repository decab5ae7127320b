import ChainQuantStudio.Backtesting.MoveLabels

/-!
# Moves that one more bar can change

A label compares the highest high and the lowest low of a window with the threshold. Where the
window goes past the rows at hand, one more high and one more low stand for all that is missing.
Doubles make this delicate: a close may be infinite, and a high or low that is not a number hides
every one after it.
-/

namespace ChainQuantStudio.Backtesting

open Columns Dsl FloatArith

variable {F : Type} [FloatArith F]

/-- One more high and one more low can still change whether the window moves. -/
def MoveOpen (threshold close : F) (highs lows : List F) : Prop :=
  ∃ high low, moved threshold close (highs ++ [high]) (lows ++ [low]) ≠
    moved threshold close highs lows

def further (better : F → F → Bool) (best : Option F) (x : F) : F :=
  best.elim x fun best => if better x best then x else best

/-- Whether the window moves when its last bars have the high and low `x`. -/
def movesWith (threshold close : F) (top bottom : Option F) (x : F) : Bool :=
  rose threshold close (further (fun value best => lt best value) top x) ||
    fell threshold close (further lt bottom x)

section Extrema

omit [FloatArith F]

variable {better : F → F → Bool}

theorem toOption_extremum_append (values : List F) (x : F) (rest : List F) :
    (extremum better (values ++ x :: rest)).toOption =
      some (rest.foldl (fun best value => if better value best then value else best)
        (further better (extremum better values).toOption x)) := by
  cases values with
  | nil => rfl
  | cons first values =>
    simp only [List.cons_append, extremum, List.foldl_append, List.foldl_cons]
    rfl

theorem toOption_extremum_replicate (values : List F) (x : F) (n : ℕ) :
    (extremum better (values ++ List.replicate (n + 1) x)).toOption =
      some (further better (extremum better values).toOption x) := by
  rw [List.replicate_succ, toOption_extremum_append]
  congr 1
  generalize hbest : further better (extremum better values).toOption x = best
  have hkeep : (if better x best then x else best) = best := by
    rw [← hbest]
    cases (extremum better values).toOption with
    | none => exact ite_self _
    | some first =>
      simp only [further, Option.elim_some]
      split <;> simp_all
  induction n with
  | zero => rfl
  | succ n ih => rw [List.replicate_succ, List.foldl_cons, hkeep, ih]

theorem exists_further_of_foldl
    (htrans : ∀ x y z, better x y = true → better y z = true → better x z = true) (best : F)
    (rest : List F) :
    ∃ x, rest.foldl (fun best value => if better value best then value else best) best = x ∧
      (x = best ∨ better x best = true) := by
  induction rest generalizing best with
  | nil => exact ⟨best, rfl, .inl rfl⟩
  | cons value rest ih =>
    obtain ⟨x, hx, hbest⟩ := ih (if better value best then value else best)
    refine ⟨x, hx, ?_⟩
    split at hbest
    case isTrue hvalue =>
      rcases hbest with rfl | hbest
      · exact .inr hvalue
      · exact .inr (htrans _ _ _ hbest hvalue)
    case isFalse => exact hbest

theorem exists_extremum_append (better : F → F → Bool)
    (htrans : ∀ x y z, better x y = true → better y z = true → better x z = true)
    (values : List F) {rest : List F} (hrest : rest ≠ []) :
    ∃ x, (extremum better (values ++ rest)).toOption =
      (extremum better (values ++ [x])).toOption := by
  cases rest with
  | nil => exact absurd rfl hrest
  | cons first rest =>
    obtain ⟨x, hx, hbest⟩ := exists_further_of_foldl htrans
      (further better (extremum better values).toOption first) rest
    refine ⟨x, ?_⟩
    rw [toOption_extremum_append, hx, toOption_extremum_append, List.foldl_nil]
    congr 1
    cases hvalues : (extremum better values).toOption with
    | none => rfl
    | some best =>
      simp only [hvalues, further, Option.elim_some] at hbest ⊢
      split at hbest
      case isTrue hfirst =>
        have hx : better x best = true := by
          rcases hbest with rfl | hbest
          · exact hfirst
          · exact htrans _ _ _ hbest hfirst
        rw [if_pos hx]
      case isFalse =>
        rcases hbest with rfl | hbest
        · simp
        · rw [if_pos hbest]

theorem further_cases (better : F → F → Bool) (best x : F) :
    (further better (some best) x = x ∧ better x best = true) ∨
      (further better (some best) x = best ∧ better x best = false) := by
  unfold further
  cases h : better x best <;> simp [h]

end Extrema

theorem moved_replicate {threshold close : F} (highs lows : List F) (x : F) (n : ℕ) :
    moved threshold close (highs ++ List.replicate (n + 1) x) (lows ++ List.replicate (n + 1) x) =
      movesWith threshold close (highest highs) (lowest lows) x := by
  simp only [moved, highest, lowest, toOption_extremum_replicate, Option.any_some, movesWith]

theorem moved_singleton {threshold close : F} (highs lows : List F) (high low : F) :
    moved threshold close (highs ++ [high]) (lows ++ [low]) =
      (rose threshold close (further (fun value best => lt best value) (highest highs) high) ||
        fell threshold close (further lt (lowest lows) low)) := by
  simp only [moved, highest, lowest, toOption_extremum_append, List.foldl_nil, Option.any_some]

section Rounded

variable [RoundedFloatArith F] {threshold close x y : F}

theorem lt_trans_of_rounded {x y z : F} (hxy : lt x y = true) (hyz : lt y z = true) :
    lt x z = true := by
  rw [RoundedFloatArith.lt_iff] at hxy hyz ⊢
  refine ⟨RoundedFloatArith.le_trans _ _ _ hxy.1 hyz.1, Bool.eq_false_iff.mpr fun hzx => ?_⟩
  have hyx : le y x = true := RoundedFloatArith.le_trans _ _ _ hyz.1 hzx
  rw [hxy.2] at hyx
  cases hyx

theorem moved_append {highs lows moreHighs moreLows : List F}
    (hclosed : ¬ MoveOpen threshold close highs lows) (hhighs : moreHighs ≠ [])
    (hlows : moreLows ≠ []) :
    moved threshold close (highs ++ moreHighs) (lows ++ moreLows) =
      moved threshold close highs lows := by
  obtain ⟨high, hhigh⟩ := exists_extremum_append (fun value best : F => lt best value)
    (fun x y z hxy hyz => lt_trans_of_rounded hyz hxy) highs hhighs
  obtain ⟨low, hlow⟩ := exists_extremum_append lt
    (fun x y z hxy hyz => lt_trans_of_rounded hxy hyz) lows hlows
  have hsame : moved threshold close (highs ++ moreHighs) (lows ++ moreLows) =
      moved threshold close (highs ++ [high]) (lows ++ [low]) := by
    simp only [moved, highest, lowest, hhigh, hlow]
  rw [hsame]
  by_contra hne
  exact hclosed ⟨high, low, hne⟩

theorem le_of_lt_rounded (h : lt x y = true) : le x y = true :=
  ((RoundedFloatArith.lt_iff x y).mp h).1

theorem le_of_not_lt (hx : le x x = true) (hy : le y y = true) (h : lt x y = false) :
    le y x = true := by
  rcases RoundedFloatArith.le_total x y hx hy with hxy | hyx
  · by_contra hnot
    rw [(RoundedFloatArith.lt_iff x y).mpr ⟨hxy, Bool.eq_false_iff.mpr hnot⟩] at h
    cases h
  · exact hyx

theorem number_zero : le (ofRat 0 : F) (ofRat 0) = true :=
  RoundedFloatArith.le_of_isFinite _ RoundedFloatArith.isFinite_zero

theorem lt_undefined (hx : le x x = false) (y : F) : lt x y = false ∧ lt y x = false := by
  have hnot : ∀ z w : F, lt z w = true → le z z = true ∧ le w w = true :=
    fun z w h => RoundedFloatArith.le_self z w (le_of_lt_rounded h)
  constructor
  · by_contra h
    rw [(hnot x y (by simpa using h)).1] at hx
    cases hx
  · by_contra h
    rw [(hnot y x (by simpa using h)).2] at hx
    cases hx

theorem zero_lt_of_positive (hclose : le close (ofRat 0) = false) (hnumber : le close close = true) :
    lt (ofRat 0) close = true := by
  rw [RoundedFloatArith.lt_iff]
  refine ⟨?_, hclose⟩
  rcases RoundedFloatArith.le_total close (ofRat 0) hnumber number_zero with h | h
  · rw [hclose] at h
    cases h
  · exact h

theorem number_of_div (h : le (div x close) (div x close) = true) :
    le x x = true ∧ le close close = true := by
  constructor
  · by_contra hnot
    rw [RoundedFloatArith.div_undefined x close (.inl (Bool.eq_false_iff.mpr hnot))] at h
    cases h
  · by_contra hnot
    rw [RoundedFloatArith.div_undefined x close (.inr (Bool.eq_false_iff.mpr hnot))] at h
    cases h

theorem rose_number (h : rose threshold close x = true) : le x x = true ∧ le close close = true := by
  apply number_of_div
  by_contra hnot
  have hundefined := (RoundedFloatArith.sub_undefined _ (Bool.eq_false_iff.mpr hnot)).1
  rw [(RoundedFloatArith.le_self _ _ h).2] at hundefined
  cases hundefined

theorem fell_number (h : fell threshold close x = true) : le x x = true ∧ le close close = true := by
  apply number_of_div
  by_contra hnot
  have hundefined := (RoundedFloatArith.sub_undefined _ (Bool.eq_false_iff.mpr hnot)).2
  rw [(RoundedFloatArith.le_self _ _ h).2] at hundefined
  cases hundefined

theorem rose_undefined (hx : le x x = false) : rose threshold close x = false := by
  by_contra h
  rw [(rose_number (by simpa using h)).1] at hx
  cases hx

theorem fell_undefined (hx : le x x = false) : fell threshold close x = false := by
  by_contra h
  rw [(fell_number (by simpa using h)).1] at hx
  cases hx

theorem rose_undefined_close (hclose : le close close = false) (x : F) :
    rose threshold close x = false := by
  by_contra h
  rw [(rose_number (by simpa using h)).2] at hclose
  cases hclose

theorem fell_undefined_close (hclose : le close close = false) (x : F) :
    fell threshold close x = false := by
  by_contra h
  rw [(fell_number (by simpa using h)).2] at hclose
  cases hclose

theorem not_isFinite_undefined (hx : le x x = false) : isFinite x = false := by
  by_contra hfinite
  rw [RoundedFloatArith.le_of_isFinite x (by simpa using hfinite)] at hx
  cases hx

theorem rose_mono_rounded (hfinite : isFinite close = true) (hclose : lt (ofRat 0) close = true)
    (hxy : le x y = true) (h : rose threshold close x = true) : rose threshold close y = true :=
  RoundedFloatArith.le_trans _ _ _ h
    (RoundedFloatArith.sub_one_mono _ _ (RoundedFloatArith.div_mono x y close hfinite hclose hxy))

theorem fell_mono_rounded (hfinite : isFinite close = true) (hclose : lt (ofRat 0) close = true)
    (hxy : le x y = true) (h : fell threshold close y = true) : fell threshold close x = true :=
  RoundedFloatArith.le_trans _ _ _ h
    (RoundedFloatArith.one_sub_anti _ _ (RoundedFloatArith.div_mono x y close hfinite hclose hxy))

theorem not_rose_of_div_le (hthreshold : lt (ofRat 0) threshold = true)
    (h : le (div x close) (ofRat 0) = true) : rose threshold close x = false := by
  by_contra hrose
  have hbelow : le threshold (ofRat 0) = true :=
    RoundedFloatArith.le_trans _ _ _ (by simpa [rose] using hrose)
      (RoundedFloatArith.le_trans _ _ _ (RoundedFloatArith.sub_one_mono _ _ h)
        RoundedFloatArith.zero_sub_one)
  rw [((RoundedFloatArith.lt_iff _ _).mp hthreshold).2] at hbelow
  cases hbelow

theorem fell_of_div_le (hthreshold : lt threshold (ofRat 1) = true)
    (h : le (div x close) (ofRat 0) = true) : fell threshold close x = true := by
  have hone := RoundedFloatArith.one_sub_anti _ _ h
  rw [RoundedFloatArith.one_sub_zero] at hone
  exact RoundedFloatArith.le_trans _ _ _ (le_of_lt_rounded hthreshold) hone

theorem div_le_zero (hfinite : isFinite close = true) (hclose : lt (ofRat 0) close = true)
    (hx : le x (ofRat 0) = true) : le (div x close) (ofRat 0) = true := by
  have h := RoundedFloatArith.div_mono x (ofRat 0) close hfinite hclose hx
  rwa [RoundedFloatArith.zero_div close hfinite hclose] at h

theorem rose_infinite (hthreshold : lt (ofRat 0) threshold = true)
    (hinfinite : isFinite close = false) (hclose : lt (ofRat 0) close = true) (x : F) :
    rose threshold close x = false := by
  cases hx : isFinite x with
  | true =>
    exact not_rose_of_div_le hthreshold
      (RoundedFloatArith.div_infinite x close hinfinite hclose hx).1
  | false =>
    have hdiv := RoundedFloatArith.infinite_div x close hinfinite hclose hx
    by_contra h
    have hsub := (RoundedFloatArith.sub_undefined _ hdiv).1
    rw [(RoundedFloatArith.le_self _ _ (by simpa [rose] using h)).2] at hsub
    cases hsub

theorem fell_infinite (hthreshold : lt threshold (ofRat 1) = true)
    (hinfinite : isFinite close = false) (hclose : lt (ofRat 0) close = true) (x : F) :
    fell threshold close x = isFinite x := by
  cases hx : isFinite x with
  | true =>
    exact fell_of_div_le hthreshold
      (RoundedFloatArith.div_infinite x close hinfinite hclose hx).1
  | false =>
    have hdiv := RoundedFloatArith.infinite_div x close hinfinite hclose hx
    by_contra h
    have hsub := (RoundedFloatArith.sub_undefined _ hdiv).2
    rw [(RoundedFloatArith.le_self _ _ (by simpa [fell] using h)).2] at hsub
    cases hsub

theorem zero_lt_of_rose (hthreshold : lt (ofRat 0) threshold = true)
    (hclose : le close (ofRat 0) = false) (h : rose threshold close x = true) :
    lt (ofRat 0) x = true := by
  obtain ⟨hx, hnumber⟩ := rose_number h
  have hpositive := zero_lt_of_positive hclose hnumber
  cases hfinite : isFinite close with
  | false =>
    rw [rose_infinite hthreshold hfinite hpositive] at h
    cases h
  | true =>
    by_contra hnot
    have hle := le_of_not_lt number_zero hx (Bool.eq_false_iff.mpr hnot)
    rw [not_rose_of_div_le hthreshold (div_le_zero hfinite hpositive hle)] at h
    cases h

theorem no_move_at_close (hthreshold : lt (ofRat 0) threshold = true)
    (hfinite : isFinite close = true) (hclose : lt (ofRat 0) close = true) :
    rose threshold close close = false ∧ fell threshold close close = false := by
  have hbelow := ((RoundedFloatArith.lt_iff _ _).mp hthreshold).2
  rw [rose, fell, RoundedFloatArith.div_self close hfinite hclose, RoundedFloatArith.one_sub_one]
  exact ⟨hbelow, hbelow⟩

variable {top bottom : Option F}

theorem isFinite_further_zero (h : isFinite (further lt bottom x) = true) :
    isFinite (further lt bottom (ofRat 0)) = true := by
  have hzero := RoundedFloatArith.isFinite_zero (F := F)
  cases bottom with
  | none => exact hzero
  | some best =>
    rcases further_cases lt best (ofRat 0 : F) with ⟨heq, -⟩ | ⟨heq, hkept⟩
    · rw [heq]
      exact hzero
    · rw [heq]
      rcases further_cases lt best x with ⟨hx, hlt⟩ | ⟨hx, -⟩
      · -- the best low is between `x` and zero
        rw [hx] at h
        have hle := le_of_lt_rounded hlt
        have hbest := (RoundedFloatArith.le_self _ _ hle).2
        exact RoundedFloatArith.isFinite_between _ _ _ h hzero hle
          (le_of_not_lt number_zero hbest hkept)
      · rwa [hx] at h

theorem fell_further_zero (hthreshold : lt threshold (ofRat 1) = true)
    (hfinite : isFinite close = true) (hclose : lt (ofRat 0) close = true)
    (hbottom : ∀ best ∈ bottom, le best best = true) :
    fell threshold close (further lt bottom (ofRat 0)) = true := by
  refine fell_of_div_le hthreshold (div_le_zero hfinite hclose ?_)
  cases bottom with
  | none => exact number_zero
  | some best =>
    rcases further_cases lt best (ofRat 0 : F) with ⟨heq, -⟩ | ⟨heq, hkept⟩
    · rw [heq]
      exact number_zero
    · rw [heq]
      exact le_of_not_lt number_zero (hbottom best rfl) hkept

theorem movesWith_undefined (hx : le x x = false) :
    movesWith threshold close top bottom x =
      (top.any (rose threshold close) || bottom.any (fell threshold close)) := by
  obtain ⟨hleft, hright⟩ : (∀ y : F, lt x y = false) ∧ ∀ y : F, lt y x = false :=
    ⟨fun y => (lt_undefined hx y).1, fun y => (lt_undefined hx y).2⟩
  cases top <;> cases bottom <;>
    simp [movesWith, further, hleft, hright, rose_undefined hx, fell_undefined hx]

theorem rose_further_zero (hthreshold : lt (ofRat 0) threshold = true)
    (hclose : le close (ofRat 0) = false) (hx : rose threshold close x = false)
    (h : rose threshold close (further (fun value best => lt best value) top x) = true) :
    rose threshold close (further (fun value best => lt best value) top (ofRat 0)) = true := by
  cases top with
  | none =>
    have hrise : rose threshold close x = true := h
    rw [hx] at hrise
    cases hrise
  | some best =>
    rcases further_cases (fun value best : F => lt best value) best x with
      ⟨heq, -⟩ | ⟨heq, -⟩
    · rw [heq, hx] at h
      cases h
    · rw [heq] at h
      rcases further_cases (fun value best : F => lt best value) best (ofRat 0) with
        ⟨-, hlt⟩ | ⟨heq', -⟩
      · have habove := ((RoundedFloatArith.lt_iff _ _).mp (zero_lt_of_rose hthreshold hclose h)).2
        rw [le_of_lt_rounded hlt] at habove
        cases habove
      · rw [heq']
        exact h

theorem fell_further_hidden {best : F} (hbest : le best best = false) :
    fell threshold close (further lt (some best) x) = false := by
  rcases further_cases lt best x with ⟨-, hlt⟩ | ⟨heq, -⟩
  · rw [(lt_undefined hbest x).2] at hlt
    cases hlt
  · rw [heq]
    exact fell_undefined hbest

theorem movesWith_number (h : movesWith threshold close top bottom x = true) :
    le close close = true := by
  rcases (Bool.or_eq_true _ _).mp h with h | h
  · exact (rose_number h).2
  · exact (fell_number h).2

theorem movesWith_zero (hpositive : lt (ofRat 0) threshold = true)
    (hthreshold : lt threshold (ofRat 1) = true) (hclose : le close (ofRat 0) = false)
    (hx : (∀ best ∈ bottom, le best best = true) ∨ rose threshold close x = false)
    (h : movesWith threshold close top bottom x = true) :
    movesWith threshold close top bottom (ofRat 0) = true := by
  have hzero := zero_lt_of_positive hclose (movesWith_number h)
  unfold movesWith at h ⊢
  rw [Bool.or_eq_true] at h ⊢
  cases hfinite : isFinite close with
  | false =>
    right
    rw [fell_infinite hthreshold hfinite hzero] at h ⊢
    rw [rose_infinite hpositive hfinite hzero] at h
    exact isFinite_further_zero (h.resolve_left (by simp))
  | true =>
    by_cases hnumbers : ∀ best ∈ bottom, le best best = true
    · exact .inr (fell_further_zero hthreshold hfinite hzero hnumbers)
    · obtain ⟨best, hbest, hundefined⟩ : ∃ best ∈ bottom, le best best = false := by
        simpa using hnumbers
      obtain rfl : bottom = some best := hbest
      rw [fell_further_hidden hundefined] at h
      exact .inl (rose_further_zero hpositive hclose (hx.resolve_left hnumbers)
        (h.resolve_right (by simp)))

theorem any_rose_further (hfinite : isFinite close = true) (hclose : lt (ofRat 0) close = true)
    (high : F) (h : top.any (rose threshold close) = true) :
    rose threshold close (further (fun value best => lt best value) top high) = true := by
  obtain ⟨best, rfl, hbest⟩ := (Option.any_eq_true _ _).mp h
  rcases further_cases (fun value best : F => lt best value) best high with
    ⟨heq, hlt⟩ | ⟨heq, -⟩
  · rw [heq]
    exact rose_mono_rounded hfinite hclose (le_of_lt_rounded hlt) hbest
  · rwa [heq]

theorem any_fell_further (hfinite : isFinite close = true) (hclose : lt (ofRat 0) close = true)
    (low : F) (h : bottom.any (fell threshold close) = true) :
    fell threshold close (further lt bottom low) = true := by
  obtain ⟨best, rfl, hbest⟩ := (Option.any_eq_true _ _).mp h
  rcases further_cases lt best low with ⟨heq, hlt⟩ | ⟨heq, -⟩
  · rw [heq]
    exact fell_mono_rounded hfinite hclose (le_of_lt_rounded hlt) hbest
  · rwa [heq]

theorem moves_further (hfinite : isFinite close = true) (hclose : lt (ofRat 0) close = true)
    (high low : F)
    (h : (top.any (rose threshold close) || bottom.any (fell threshold close)) = true) :
    (rose threshold close (further (fun value best => lt best value) top high) ||
      fell threshold close (further lt bottom low)) = true := by
  rw [Bool.or_eq_true] at h ⊢
  exact h.imp (any_rose_further hfinite hclose high) (any_fell_further hfinite hclose low)

theorem any_isFinite_further (hx : lt (ofRat 0) x = true) (h : bottom.any isFinite = true) :
    isFinite (further lt bottom x) = true := by
  obtain ⟨best, rfl, hbest⟩ := (Option.any_eq_true _ _).mp h
  rcases further_cases lt best x with ⟨heq, hlt⟩ | ⟨heq, -⟩
  · -- the new low is between zero and the finite one
    rw [heq]
    exact RoundedFloatArith.isFinite_between _ _ _ RoundedFloatArith.isFinite_zero hbest
      (le_of_lt_rounded hx) (le_of_lt_rounded hlt)
  · rwa [heq]

theorem movesWith_infinite (hpositive : lt (ofRat 0) threshold = true)
    (hthreshold : lt threshold (ofRat 1) = true) (hinfinite : isFinite close = false)
    (hclose : lt (ofRat 0) close = true) :
    movesWith threshold close top bottom x = isFinite (further lt bottom x) := by
  rw [movesWith, rose_infinite hpositive hinfinite hclose,
    fell_infinite hthreshold hinfinite hclose, Bool.false_or]

theorem movesWith_rise (hpositive : lt (ofRat 0) threshold = true)
    (hthreshold : lt threshold (ofRat 1) = true) (hclose : le close (ofRat 0) = false)
    (hx : lt (ofRat 0) x = true)
    (h : (top.any (rose threshold close) || bottom.any (fell threshold close)) = true) :
    movesWith threshold close top bottom x = true := by
  have hnumber : le close close = true := by
    by_contra hundefined
    rw [Bool.not_eq_true] at hundefined
    simp [funext (rose_undefined_close hundefined), funext (fell_undefined_close hundefined)] at h
  have hzero := zero_lt_of_positive hclose hnumber
  cases hfinite : isFinite close with
  | true => exact moves_further hfinite hzero x x h
  | false =>
    rw [movesWith_infinite hpositive hthreshold hfinite hzero]
    apply any_isFinite_further hx
    simpa [funext (rose_infinite hpositive hfinite hzero),
      funext (fell_infinite hthreshold hfinite hzero)] using h

/-- Wherever the value `low` moves a window, so does `high`. -/
def Raises (threshold low high : F) : Prop :=
  ∀ (close : F) (top bottom : Option F), le close (ofRat 0) = false →
    movesWith threshold close top bottom low = true →
      movesWith threshold close top bottom high = true

theorem raises_zero (hpositive : lt (ofRat 0) threshold = true)
    (hthreshold : lt threshold (ofRat 1) = true)
    (hx : (∀ y : F, le y y = true) ∨
      ∀ close : F, le close (ofRat 0) = false → rose threshold close x = false) :
    Raises threshold x (ofRat 0) := by
  intro close top bottom hclose h
  refine movesWith_zero hpositive hthreshold hclose ?_ h
  rcases hx with hnumbers | hrose
  · exact .inl fun best _ => hnumbers best
  · exact .inr (hrose close hclose)

theorem raises_undefined (hpositive : lt (ofRat 0) threshold = true)
    (hthreshold : lt threshold (ofRat 1) = true) (hx : le x x = false)
    (hy : lt (ofRat 0) y = true) : Raises threshold x y := by
  intro close top bottom hclose h
  rw [movesWith_undefined hx] at h
  exact movesWith_rise hpositive hthreshold hclose hy h

omit [FloatArith F] [RoundedFloatArith F] in
theorem further_of_any {p : F → Bool} {better : F → F → Bool} {best : Option F}
    (hbest : best.any p = false) (hx : p x = false) : p (further better best x) = false := by
  cases best with
  | none => exact hx
  | some best =>
    rcases further_cases better best x with ⟨heq, -⟩ | ⟨heq, -⟩
    · rwa [heq]
    · rw [heq]
      exact hbest

theorem exists_fills_finite (hpositive : lt (ofRat 0) threshold = true)
    (hthreshold : lt threshold (ofRat 1) = true) (hclose : le close (ofRat 0) = false)
    (hfinite : isFinite close = true) {high low : F}
    (h : (rose threshold close (further (fun value best => lt best value) top high) ||
      fell threshold close (further lt bottom low)) ≠
        (top.any (rose threshold close) || bottom.any (fell threshold close))) :
    ∃ u v, movesWith threshold close top bottom u = false ∧
      movesWith threshold close top bottom v = true ∧ Raises threshold u v := by
  have hzero := zero_lt_of_positive hclose (RoundedFloatArith.le_of_isFinite _ hfinite)
  have hbefore : (top.any (rose threshold close) || bottom.any (fell threshold close)) = false := by
    by_contra hmoves
    rw [Bool.not_eq_false] at hmoves
    exact h ((moves_further hfinite hzero high low hmoves).trans hmoves.symm)
  have hafter : (rose threshold close (further (fun value best => lt best value) top high) ||
      fell threshold close (further lt bottom low)) = true := by
    rw [hbefore, ne_eq, Bool.not_eq_false] at h
    exact h
  by_cases hnan : ∃ x : F, le x x = false
  · obtain ⟨u, hu⟩ := hnan
    have hkeeps : movesWith threshold close top bottom u = false :=
      (movesWith_undefined hu).trans hbefore
    by_cases hnumbers : ∀ best ∈ bottom, le best best = true
    · refine ⟨u, ofRat 0, hkeeps, ?_, raises_zero hpositive hthreshold
        (.inr fun close _ => rose_undefined hu)⟩
      rw [movesWith, fell_further_zero hthreshold hfinite hzero hnumbers, Bool.or_true]
    · -- the lows are hidden, so it is the high that rises
      obtain ⟨best, hbest, hundefined⟩ : ∃ best ∈ bottom, le best best = false := by
        simpa using hnumbers
      obtain rfl : bottom = some best := hbest
      rw [fell_further_hidden hundefined, Bool.or_false] at hafter
      have hrise : rose threshold close high = true := by
        by_contra hnot
        rw [further_of_any ((Bool.or_eq_false_iff.mp hbefore).1)
          (Bool.eq_false_iff.mpr hnot)] at hafter
        cases hafter
      refine ⟨u, high, hkeeps, ?_, raises_undefined hpositive hthreshold hu
        (zero_lt_of_rose hpositive hclose hrise)⟩
      rw [movesWith, hafter, Bool.true_or]
  · have hnumbers : ∀ x : F, le x x = true := by simpa using hnan
    obtain ⟨hrose, hfell⟩ := Bool.or_eq_false_iff.mp hbefore
    obtain ⟨hnoRise, hnoFall⟩ := no_move_at_close hpositive hfinite hzero
    refine ⟨close, ofRat 0, ?_, ?_, raises_zero hpositive hthreshold (.inl hnumbers)⟩
    · rw [movesWith, further_of_any hrose hnoRise, further_of_any hfell hnoFall, Bool.or_false]
    · rw [movesWith, fell_further_zero hthreshold hfinite hzero fun best _ => hnumbers best,
        Bool.or_true]

theorem exists_fills_infinite (hpositive : lt (ofRat 0) threshold = true)
    (hthreshold : lt threshold (ofRat 1) = true) (hclose : lt (ofRat 0) close = true)
    (hinfinite : isFinite close = false) (low : F)
    (h : isFinite (further lt bottom low) ≠ bottom.any isFinite) :
    ∃ u v, movesWith threshold close top bottom u = false ∧
      movesWith threshold close top bottom v = true ∧ Raises threshold u v := by
  simp only [movesWith_infinite hpositive hthreshold hinfinite hclose]
  cases hafter : isFinite (further lt bottom low) with
  | false =>
    -- an infinite low takes the place of a finite one
    rw [hafter, ne_eq, eq_comm, Bool.not_eq_false] at h
    obtain ⟨best, rfl, hbest⟩ := (Option.any_eq_true _ _).mp h
    refine ⟨low, ofRat 0, hafter, isFinite_further_zero (x := best) ?_,
      raises_zero hpositive hthreshold (.inr fun other hother => ?_)⟩
    · rcases further_cases lt best best with ⟨heq, -⟩ | ⟨heq, -⟩ <;> rwa [heq]
    · rcases further_cases lt best low with ⟨heq, hlt⟩ | ⟨heq, -⟩
      · by_contra hrise
        have hlow := zero_lt_of_rose hpositive hother (by simpa using hrise)
        rw [heq, RoundedFloatArith.isFinite_between _ _ _ RoundedFloatArith.isFinite_zero hbest
          (le_of_lt_rounded hlow) (le_of_lt_rounded hlt)] at hafter
        cases hafter
      · rw [heq, hbest] at hafter
        cases hafter
  | true =>
    have hbefore : bottom.any isFinite = false := by
      rw [hafter] at h
      simpa using h.symm
    have hzero := isFinite_further_zero hafter
    by_cases hnan : ∃ x : F, le x x = false
    · obtain ⟨u, hu⟩ := hnan
      exact ⟨u, ofRat 0, further_of_any hbefore (not_isFinite_undefined hu), hzero,
        raises_zero hpositive hthreshold (.inr fun close _ => rose_undefined hu)⟩
    · exact ⟨close, ofRat 0, further_of_any hbefore hinfinite, hzero,
        raises_zero hpositive hthreshold (.inl (by simpa using hnan))⟩

theorem exists_fills (hpositive : lt (ofRat 0) threshold = true)
    (hthreshold : lt threshold (ofRat 1) = true) {highs lows : List F}
    (hclose : le close (ofRat 0) = false) (h : MoveOpen threshold close highs lows) :
    ∃ u v, movesWith threshold close (highest highs) (lowest lows) u = false ∧
      movesWith threshold close (highest highs) (lowest lows) v = true ∧
        Raises threshold u v := by
  obtain ⟨high, low, hmoves⟩ := h
  rw [moved_singleton, moved] at hmoves
  cases hnumber : le close close with
  | false =>
    have hrose : rose threshold close = fun _ => false := funext (rose_undefined_close hnumber)
    have hfell : fell threshold close = fun _ => false := funext (fell_undefined_close hnumber)
    rw [hrose, hfell] at hmoves
    simp at hmoves
  | true =>
    have hzero := zero_lt_of_positive hclose hnumber
    cases hfinite : isFinite close with
    | true => exact exists_fills_finite hpositive hthreshold hclose hfinite hmoves
    | false =>
      have hrose : rose threshold close = fun _ => false :=
        funext (rose_infinite hpositive hfinite hzero)
      have hfell : fell threshold close = isFinite :=
        funext (fell_infinite hthreshold hfinite hzero)
      refine exists_fills_infinite hpositive hthreshold hzero hfinite low ?_
      simpa [hrose, hfell] using hmoves

end Rounded

end ChainQuantStudio.Backtesting
