import Mathlib.Data.List.Forall2
import Mathlib.Data.List.Basic
import Mathlib.Data.List.Dedup
import Mathlib.Data.List.Perm.Subperm
import Mathlib.Tactic.Common

/-!
# Named columns and functions that do not look ahead

A traversal that succeeds is pointwise, so it commutes with taking a prefix. A mapping lists its
latest assignments first; truncating a mapping of columns truncates every column it holds.
-/

namespace ChainQuantStudio.Columns

universe u

variable {α β ε : Type*}

theorem bind_eq_ok {α β : Type u} {x : Except ε α} {f : α → Except ε β} {b : β} :
    (x >>= f) = .ok b ↔ ∃ a, x = .ok a ∧ f a = .ok b := by
  cases x <;> simp [bind, Except.bind]

theorem invariant_foldlM {σ : Type u} {step : σ → α → Except ε σ} {inv : σ → Prop} {xs : List α}
    {s t : σ} (hstep : ∀ x ∈ xs, ∀ a b, inv a → step a x = .ok b → inv b)
    (h : xs.foldlM step s = .ok t) (hs : inv s) : inv t := by
  induction xs generalizing s with
  | nil =>
    cases h
    exact hs
  | cons x xs ih =>
    rw [List.foldlM_cons] at h
    obtain ⟨u, hu, hrest⟩ := bind_eq_ok.mp h
    have hkept := hstep x List.mem_cons_self s u hs hu
    exact ih (fun y hy => hstep y (List.mem_cons_of_mem x hy)) hrest hkept

theorem mapM_cons_eq_ok {f : α → Except ε β} {x : α} {xs : List α} {ys : List β} :
    (x :: xs).mapM f = .ok ys ↔
      ∃ y rest, f x = .ok y ∧ xs.mapM f = .ok rest ∧ ys = y :: rest := by
  rw [List.mapM_cons]
  rcases f x with e | y
  · simp [bind, Except.bind]
  · rcases xs.mapM f with e | rest
    · simp [bind, Except.bind]
    · simp [bind, Except.bind, pure, Except.pure, eq_comm]

theorem mapM_eq_ok_iff {f : α → Except ε β} {xs : List α} {ys : List β} :
    xs.mapM f = .ok ys ↔ List.Forall₂ (fun x y => f x = .ok y) xs ys := by
  induction xs generalizing ys with
  | nil => simp [pure, Except.pure, eq_comm]
  | cons x xs ih => simp only [mapM_cons_eq_ok, List.forall₂_cons_left_iff, ih]

theorem mapM_take {f : α → Except ε β} {xs : List α} {ys : List β} (h : xs.mapM f = .ok ys)
    (n : ℕ) : (xs.take n).mapM f = .ok (ys.take n) :=
  mapM_eq_ok_iff.mpr (List.forall₂_take n (mapM_eq_ok_iff.mp h))

theorem length_of_mapM {f : α → Except ε β} {xs : List α} {ys : List β}
    (h : xs.mapM f = .ok ys) : ys.length = xs.length :=
  (mapM_eq_ok_iff.mp h).length_eq.symm

theorem mapM_congr {f g : α → Except ε β} {xs : List α} (h : ∀ x ∈ xs, f x = g x) :
    xs.mapM f = xs.mapM g := by
  induction xs with
  | nil => rfl
  | cons x xs ih =>
    rw [List.mapM_cons, List.mapM_cons, h x (by simp), ih fun y hy => h y (by simp [hy])]

theorem forall_of_mapM {f : α → Except ε β} {xs : List α} {ys : List β} {p : β → Prop}
    (h : xs.mapM f = .ok ys) (hf : ∀ x ∈ xs, ∀ y, f x = .ok y → p y) : ∀ y ∈ ys, p y := by
  induction mapM_eq_ok_iff.mp h with
  | nil => simp
  | cons hxy hrest ih =>
    intro z hz
    rcases List.mem_cons.mp hz with rfl | hz
    · exact hf _ (by simp) _ hxy
    · exact ih (mapM_eq_ok_iff.mpr hrest) (fun x hx => hf x (by simp [hx])) z hz

theorem exists_mapM_ok {f : α → Except ε β} {xs : List α} {p : β → Prop}
    (h : ∀ x ∈ xs, ∃ y, f x = .ok y ∧ p y) : ∃ ys, xs.mapM f = .ok ys ∧ ∀ y ∈ ys, p y := by
  induction xs with
  | nil => exact ⟨[], rfl, by simp⟩
  | cons x xs ih =>
    obtain ⟨y, hy, hpy⟩ := h x (by simp)
    obtain ⟨ys, hys, hpys⟩ := ih fun x' hx' => h x' (by simp [hx'])
    refine ⟨y :: ys, ?_, by simpa using ⟨hpy, hpys⟩⟩
    rw [List.mapM_cons, hy, hys]
    rfl

theorem map_of_mapM {γ : Type*} {f : α → Except ε β} {g : β → γ} {k : α → γ} {xs : List α}
    {ys : List β} (h : xs.mapM f = .ok ys) (hg : ∀ x ∈ xs, ∀ y, f x = .ok y → g y = k x) :
    ys.map g = xs.map k := by
  induction mapM_eq_ok_iff.mp h with
  | nil => rfl
  | cons hxy hrest ih =>
    have htail := ih (mapM_eq_ok_iff.mpr hrest) fun x hx => hg x (List.mem_cons_of_mem _ hx)
    rw [List.map_cons, List.map_cons, hg _ List.mem_cons_self _ hxy, htail]

theorem mapM_transfer {α' β' : Type*} {f : α → Except ε β} {g : α' → Except ε β'}
    {r : α → α' → Prop} {s : β → β' → Prop} {xs : List α} {xs' : List α'} {ys : List β}
    (hxs : List.Forall₂ r xs xs')
    (hfg : ∀ x x' y, r x x' → f x = .ok y → ∃ y', g x' = .ok y' ∧ s y y')
    (h : xs.mapM f = .ok ys) : ∃ ys', xs'.mapM g = .ok ys' ∧ List.Forall₂ s ys ys' := by
  induction hxs generalizing ys with
  | nil =>
    obtain rfl : [] = ys := Except.ok.inj h
    exact ⟨[], rfl, List.Forall₂.nil⟩
  | cons hx _ ih =>
    obtain ⟨y, rest, hy, hrest, rfl⟩ := mapM_cons_eq_ok.mp h
    obtain ⟨y', hy', hs⟩ := hfg _ _ _ hx hy
    obtain ⟨rest', hrest', hrests⟩ := ih hrest
    exact ⟨y' :: rest', mapM_cons_eq_ok.mpr ⟨y', rest', hy', hrest', rfl⟩, hrests.cons hs⟩

theorem mapM_eq_ok_map {f : α → Except ε β} {g : α → β} {xs : List α}
    (h : ∀ x ∈ xs, f x = .ok (g x)) : xs.mapM f = .ok (xs.map g) := by
  rw [mapM_eq_ok_iff, List.forall₂_map_right_iff, List.forall₂_same]
  exact h

theorem mapM_perm {f : α → Except ε β} {xs xs' : List α} {ys : List β}
    (h : xs.mapM f = .ok ys) (hperm : xs.Perm xs') :
    ∃ ys', xs'.mapM f = .ok ys' ∧ ys.Perm ys' := by
  induction hperm generalizing ys with
  | nil => exact ⟨ys, h, .refl ys⟩
  | cons x _ ih =>
    obtain ⟨y, rest, hx, hrest, rfl⟩ := mapM_cons_eq_ok.mp h
    obtain ⟨rest', hrest', hperm⟩ := ih hrest
    exact ⟨y :: rest', mapM_cons_eq_ok.mpr ⟨y, rest', hx, hrest', rfl⟩, hperm.cons y⟩
  | swap x x' xs =>
    obtain ⟨y', _, hx', htail, rfl⟩ := mapM_cons_eq_ok.mp h
    obtain ⟨y, rest, hx, hrest, rfl⟩ := mapM_cons_eq_ok.mp htail
    refine ⟨y :: y' :: rest, mapM_cons_eq_ok.mpr ⟨y, y' :: rest, hx, ?_, rfl⟩, .swap y y' rest⟩
    exact mapM_cons_eq_ok.mpr ⟨y', rest, hx', hrest, rfl⟩
  | trans _ _ ih ih' =>
    obtain ⟨ys', hys', hperm⟩ := ih h
    obtain ⟨ys'', hys'', hperm'⟩ := ih' hys'
    exact ⟨ys'', hys'', hperm.trans hperm'⟩

theorem exists_of_forall₂_left {R : α → β → Prop} {xs : List α} {ys : List β}
    (h : List.Forall₂ R xs ys) {x : α} (hx : x ∈ xs) : ∃ y ∈ ys, R x y := by
  induction h with
  | nil => simp at hx
  | cons hxy _ ih =>
    rcases List.mem_cons.mp hx with rfl | hx
    · exact ⟨_, List.mem_cons_self, hxy⟩
    · obtain ⟨y, hy, hR⟩ := ih hx
      exact ⟨y, List.mem_cons_of_mem _ hy, hR⟩

theorem exists_of_forall₂_right {R : α → β → Prop} {xs : List α} {ys : List β}
    (h : List.Forall₂ R xs ys) {y : β} (hy : y ∈ ys) : ∃ x ∈ xs, R x y := by
  induction h with
  | nil => simp at hy
  | cons hxy _ ih =>
    rcases List.mem_cons.mp hy with rfl | hy
    · exact ⟨_, List.mem_cons_self, hxy⟩
    · obtain ⟨x, hx, hR⟩ := ih hy
      exact ⟨x, List.mem_cons_of_mem _ hx, hR⟩

theorem take_zipIdx (xs : List α) (n start : ℕ) :
    (xs.zipIdx start).take n = (xs.take n).zipIdx start := by
  induction xs generalizing n start with
  | nil => simp
  | cons x xs ih =>
    cases n with
    | zero => rfl
    | succ n => simp [ih]

theorem mapM_zipIdx_take {f g : α × ℕ → Except ε β} {xs : List α} {ys : List β} {n : ℕ}
    (h : xs.zipIdx.mapM f = .ok ys) (hfg : ∀ x i, i < n → g (x, i) = f (x, i)) :
    (xs.take n).zipIdx.mapM g = .ok (ys.take n) := by
  rw [← take_zipIdx, ← mapM_take h n]
  apply mapM_congr
  rintro ⟨x, i⟩ hx
  apply hfg
  rw [take_zipIdx] at hx
  have hi := List.snd_lt_of_mem_zipIdx hx
  simp only [List.length_take] at hi
  omega

theorem mapM_range_take {f g : ℕ → Except ε β} {size n : ℕ} {ys : List β}
    (h : (List.range size).mapM f = .ok ys) (hfg : ∀ i < n, g i = f i) :
    (List.range (min n size)).mapM g = .ok (ys.take n) := by
  rw [← List.take_range, ← mapM_take h n]
  apply mapM_congr
  intro i hi
  rw [List.take_range, List.mem_range] at hi
  exact hfg i (by omega)

theorem dedup_length_eq_one_iff [DecidableEq α] {xs : List α} :
    xs.dedup.length = 1 ↔ ∃ x, xs ≠ [] ∧ ∀ y ∈ xs, y = x := by
  constructor
  · intro h
    obtain ⟨x, hx⟩ := List.length_eq_one_iff.mp h
    refine ⟨x, fun hnil => by simp [hnil] at hx, fun y hy => ?_⟩
    have hy : y ∈ xs.dedup := List.mem_dedup.mpr hy
    simpa [hx] using hy
  · rintro ⟨x, hne, hall⟩
    have hx : x ∈ xs := by
      obtain ⟨y, hy⟩ := List.exists_mem_of_ne_nil xs hne
      rwa [← hall y hy]
    have hsub : xs.dedup ⊆ [x] := fun y hy => by simp [hall y (List.mem_dedup.mp hy)]
    have hle := (List.nodup_dedup xs).subperm hsub |>.length_le
    have hpos := List.length_pos_of_mem (List.mem_dedup.mpr hx)
    simp only [List.length_singleton] at hle
    omega

theorem count_le_count [BEq α] [LawfulBEq α] {a : α} {xs ys : List α}
    (h : ∀ i : ℕ, xs[i]? = some a → ys[i]? = some a) : xs.count a ≤ ys.count a := by
  induction xs generalizing ys with
  | nil => simp
  | cons x xs ih =>
    cases ys with
    | nil =>
      have hnot : a ∉ x :: xs := by
        intro hmem
        obtain ⟨i, hi⟩ := List.mem_iff_getElem?.mp hmem
        simpa using h i hi
      rw [List.count_eq_zero.mpr hnot]
      exact Nat.zero_le _
    | cons y ys =>
      have htail := @ih ys fun i hi => by simpa using h (i + 1) (by simpa using hi)
      rw [List.count_cons, List.count_cons]
      by_cases hx : x = a
      · have hy : y = a := by simpa using h 0 (by simp [hx])
        simp only [hx, hy, beq_self_eq_true, if_true]
        omega
      · simp only [beq_eq_false_iff_ne.mpr hx, Bool.false_eq_true, if_false]
        omega

theorem count_lt_count [BEq α] [LawfulBEq α] {a : α} {xs ys : List α}
    (h : ∀ i : ℕ, xs[i]? = some a → ys[i]? = some a) (index : ℕ) (hx : xs[index]? ≠ some a)
    (hy : ys[index]? = some a) : xs.count a < ys.count a := by
  have hys : ys = ys.take index ++ a :: ys.drop (index + 1) := by
    obtain ⟨hlt, hget⟩ := List.getElem?_eq_some_iff.mp hy
    rw [← hget, ← List.drop_eq_getElem_cons hlt, List.take_append_drop]
  have hxs : xs.count a = (xs.take index).count a + (xs.drop (index + 1)).count a := by
    conv_lhs => rw [← List.take_append_drop index xs, List.count_append]
    congr 1
    rcases Nat.lt_or_ge index xs.length with hlt | hge
    · rw [List.drop_eq_getElem_cons hlt, List.count_cons]
      have hne : xs[index] ≠ a := fun heq => hx (by rw [List.getElem?_eq_getElem hlt, heq])
      simp [hne]
    · rw [List.drop_eq_nil_of_le hge, List.drop_eq_nil_of_le (by omega)]
  have hbefore : (xs.take index).count a ≤ (ys.take index).count a := by
    apply count_le_count
    intro i hi
    rw [List.getElem?_take] at hi ⊢
    split_ifs at hi ⊢
    exact h i hi
  have hafter : (xs.drop (index + 1)).count a ≤ (ys.drop (index + 1)).count a := by
    apply count_le_count
    intro i hi
    rw [List.getElem?_drop] at hi ⊢
    exact h _ hi
  have hcount : ys.count a = (ys.take index).count a + ((ys.drop (index + 1)).count a + 1) := by
    conv_lhs => rw [hys, List.count_append, List.count_cons_self]
  omega

abbrev Mapping (α : Type*) := List (String × α)

/-- Every column of the mapping cut to its first `n` entries. -/
def truncate (n : ℕ) (columns : Mapping (List α)) : Mapping (List α) :=
  columns.map fun entry => (entry.1, entry.2.take n)

@[simp] theorem truncate_cons (n : ℕ) (name : String) (column : List α)
    (columns : Mapping (List α)) :
    truncate n ((name, column) :: columns) = (name, column.take n) :: truncate n columns := rfl

theorem lookup_map_value (f : α → β) (m : Mapping α) (name : String) :
    (m.map fun entry => (entry.1, f entry.2)).lookup name = (m.lookup name).map f := by
  induction m with
  | nil => rfl
  | cons entry m ih =>
    obtain ⟨key, value⟩ := entry
    rw [List.map_cons, List.lookup_cons, List.lookup_cons]
    cases name == key with
    | true => rfl
    | false => exact ih

theorem lookup_truncate (n : ℕ) (columns : Mapping (List α)) (name : String) :
    (truncate n columns).lookup name = (columns.lookup name).map (List.take n) :=
  lookup_map_value _ columns name

theorem mem_of_lookup_eq_some {m : Mapping α} {name : String} {value : α}
    (h : m.lookup name = some value) : (name, value) ∈ m := by
  induction m with
  | nil => simp at h
  | cons entry m ih =>
    obtain ⟨key, other⟩ := entry
    rw [List.lookup_cons] at h
    cases hk : name == key with
    | true =>
      simp only [hk, Option.some.injEq] at h
      simp [eq_of_beq hk, h]
    | false =>
      simp only [hk] at h
      exact List.mem_cons_of_mem _ (ih h)

theorem isSome_lookup_of_mem {m : Mapping α} {name : String} {value : α}
    (h : (name, value) ∈ m) : (m.lookup name).isSome := by
  induction m with
  | nil => simp at h
  | cons entry m ih =>
    obtain ⟨key, other⟩ := entry
    rw [List.lookup_cons]
    cases hk : name == key with
    | true => rfl
    | false =>
      rcases List.mem_cons.mp h with heq | h
      · simp [(Prod.mk.inj heq).1] at hk
      · exact ih h

theorem lookup_eq_some_of_mem {m : Mapping α} (hnodup : (m.map Prod.fst).Nodup) {name : String}
    {value : α} (h : (name, value) ∈ m) : m.lookup name = some value := by
  obtain ⟨other, hother⟩ := Option.isSome_iff_exists.mp (isSome_lookup_of_mem h)
  have heq := List.inj_on_of_nodup_map hnodup (mem_of_lookup_eq_some hother) h rfl
  rw [hother, (Prod.mk.inj heq).2]

/-- The entries from `first` up to `last`, as `l[first:last]`. -/
def slice (l : List α) (first last : ℕ) : List α := (l.take last).drop first

theorem mem_slice {l : List α} {first last : ℕ} {x : α} :
    x ∈ slice l first last ↔ ∃ j, first ≤ j ∧ j < last ∧ l[j]? = some x := by
  rw [slice, List.mem_iff_getElem?]
  constructor
  · rintro ⟨i, hi⟩
    rw [List.getElem?_drop, List.getElem?_take] at hi
    split_ifs at hi with hlt
    exact ⟨first + i, by omega, hlt, hi⟩
  · rintro ⟨j, hfirst, hlast, hj⟩
    refine ⟨j - first, ?_⟩
    rw [List.getElem?_drop, Nat.add_sub_cancel' hfirst, List.getElem?_take, if_pos hlast, hj]

theorem length_slice (l : List α) (first last : ℕ) :
    (slice l first last).length = min last l.length - first := by
  rw [slice, List.length_drop, List.length_take]

theorem slice_take {l : List α} {first last n : ℕ} (h : last ≤ n) :
    slice (l.take n) first last = slice l first last := by
  rw [slice, slice, List.take_take, Nat.min_eq_left h]

theorem slice_append (l : List α) {first middle last : ℕ} (hmiddle : first ≤ middle)
    (hlast : middle ≤ last) : slice l first last = slice l first middle ++ slice l middle last := by
  have htake : l.take last = l.take middle ++ slice l middle last := by
    have h := List.take_append_drop middle (l.take last)
    rwa [List.take_take, Nat.min_eq_left hlast, eq_comm] at h
  rw [slice, htake, List.drop_append, ← slice]
  rcases Nat.lt_or_ge l.length middle with hshort | hlong
  · have hnil : slice l middle last = [] := by
      rw [← List.length_eq_zero_iff, length_slice]
      omega
    rw [hnil, List.drop_nil]
  · rw [List.length_take, Nat.min_eq_left hlong, Nat.sub_eq_zero_of_le hmiddle, List.drop_zero]

end ChainQuantStudio.Columns
