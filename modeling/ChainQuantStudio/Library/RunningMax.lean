import Mathlib.Data.List.MinMax
import Mathlib.Order.Lattice

/-!
# Running maxima and first minima

The maximum of a start value and of what a list has given so far, an index at which a list attains
it, and the first index at which a function of the indices is least.
-/

namespace ChainQuantStudio.RunningMax

variable {α : Type*} [LinearOrder α]

def top (start : α) (values : List α) : α := values.foldl max start

def topAt (start : α) (values : List α) (i : ℕ) : α := top start (values.take (i + 1))

theorem top_concat (start v : α) (values : List α) :
    top start (values ++ [v]) = max (top start values) v := by
  simp only [top, List.foldl_append, List.foldl_cons, List.foldl_nil]

theorem le_top (start : α) (values : List α) : start ≤ top start values := by
  induction values generalizing start with
  | nil => exact le_rfl
  | cons v vs ih => exact (le_max_left start v).trans (ih (max start v))

theorem top_eq_start {start : α} {values : List α} (h : ∀ v ∈ values, v < start) :
    top start values = start := by
  induction values with
  | nil => rfl
  | cons v vs ih =>
    have hv : v < start := h v List.mem_cons_self
    rw [top, List.foldl_cons, max_eq_left hv.le]
    exact ih fun u hu => h u (List.mem_cons_of_mem _ hu)

theorem topAt_concat {start v : α} {values : List α} {i : ℕ} (h : i < values.length) :
    topAt start (values ++ [v]) i = topAt start values i := by
  rw [topAt, List.take_append_of_le_length (Nat.succ_le_of_lt h), topAt]

theorem topAt_concat_length (start v : α) (values : List α) :
    topAt start (values ++ [v]) values.length = max (top start values) v := by
  rw [topAt, List.take_of_length_le (by simp), top_concat]

def AttainsTop (start : α) (values : List α) : Option ℕ → Prop
  | none => ∀ v ∈ values, v < start
  | some p => values[p]? = some (top start values)

theorem attainsTop_concat_new {start v : α} {values : List α} (h : top start values ≤ v) :
    AttainsTop start (values ++ [v]) (some values.length) := by
  rw [AttainsTop, top_concat, max_eq_right h, List.getElem?_concat_length]

theorem AttainsTop.concat {start v : α} {values : List α} {p : Option ℕ}
    (hp : AttainsTop start values p) (h : v < top start values) :
    AttainsTop start (values ++ [v]) p := by
  cases p with
  | none =>
    intro u hu
    rcases List.mem_append.mp hu with hold | hnew
    · exact hp u hold
    · rw [List.mem_singleton.mp hnew]
      rw [top_eq_start hp] at h
      exact h
  | some p =>
    have hvalue : values[p]? = some (top start values) := hp
    have hlt : p < values.length := (List.getElem?_eq_some_iff.mp hvalue).1
    rw [AttainsTop, List.getElem?_append_left hlt, hvalue, top_concat, max_eq_left h.le]

/-- The first index below `n` at which `f` is least. -/
structure FirstMin (f : ℕ → α) (n t : ℕ) : Prop where
  lt : t < n
  le : ∀ j < n, f t ≤ f j
  first : ∀ j < t, f t < f j

namespace FirstMin

variable {f g : ℕ → α} {n t u : ℕ}

theorem congr (h : FirstMin f n t) (hfg : ∀ j < n, f j = g j) : FirstMin g n t where
  lt := h.lt
  le j hj := by
    rw [← hfg t h.lt, ← hfg j hj]
    exact h.le j hj
  first j hj := by
    rw [← hfg t h.lt, ← hfg j (hj.trans h.lt)]
    exact h.first j hj

theorem keep (h : FirstMin f n t) (hle : f t ≤ f n) : FirstMin f (n + 1) t where
  lt := Nat.lt_succ_of_lt h.lt
  le j hj := by
    rcases Nat.lt_succ_iff_lt_or_eq.mp hj with hlt | rfl
    · exact h.le j hlt
    · exact hle
  first := h.first

theorem replace (h : FirstMin f n t) (hlt : f n < f t) : FirstMin f (n + 1) n where
  lt := Nat.lt_succ_self n
  le j hj := by
    rcases Nat.lt_succ_iff_lt_or_eq.mp hj with hj | rfl
    · exact (hlt.trans_le (h.le j hj)).le
    · exact le_rfl
  first j hj := hlt.trans_le (h.le j hj)

theorem le_of_le (h : FirstMin f n t) (hmin : f u ≤ f t) : t ≤ u := by
  by_contra hlt
  exact absurd hmin (not_le.mpr (h.first u (not_le.mp hlt)))

theorem unique (ht : FirstMin f n t) (hu : FirstMin f n u) : t = u :=
  le_antisymm (ht.le_of_le (hu.le t ht.lt)) (hu.le_of_le (ht.le u hu.lt))

end FirstMin

theorem firstMin_one (f : ℕ → α) : FirstMin f 1 0 where
  lt := Nat.one_pos
  le j hj := by rw [Nat.lt_one_iff.mp hj]
  first j hj := absurd hj (Nat.not_lt_zero j)

end ChainQuantStudio.RunningMax
