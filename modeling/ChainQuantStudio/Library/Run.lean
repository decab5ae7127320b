import Mathlib.Data.List.Basic
import Mathlib.Tactic.Common

/-!
# Runs of a deterministic transition function

A run folds a step function over the inputs it receives. `Guarded` says that every step of a run
meets a condition on the state it leaves and the input it takes, and the two invariant rules turn
a fact about one step into a fact about the state a whole run reaches.
-/

namespace ChainQuantStudio.Run

variable {σ ε : Type*}

def run (step : σ → ε → σ) (s : σ) (inputs : List ε) : σ := inputs.foldl step s

@[simp] theorem run_nil (step : σ → ε → σ) (s : σ) : run step s [] = s := rfl

@[simp] theorem run_cons (step : σ → ε → σ) (s : σ) (e : ε) (es : List ε) :
    run step s (e :: es) = run step (step s e) es := rfl

@[simp] theorem run_append (step : σ → ε → σ) (s : σ) (es fs : List ε) :
    run step s (es ++ fs) = run step (run step s es) fs := by
  simp [run, List.foldl_append]

/-- Every step of the run meets `guard` in the state it leaves. -/
def Guarded (step : σ → ε → σ) (guard : σ → ε → Prop) : σ → List ε → Prop
  | _, [] => True
  | s, e :: es => guard s e ∧ Guarded step guard (step s e) es

@[simp] theorem guarded_nil (step : σ → ε → σ) (guard : σ → ε → Prop) (s : σ) :
    Guarded step guard s [] := trivial

@[simp] theorem guarded_cons (step : σ → ε → σ) (guard : σ → ε → Prop) (s : σ) (e : ε)
    (es : List ε) :
    Guarded step guard s (e :: es) ↔ guard s e ∧ Guarded step guard (step s e) es := Iff.rfl

theorem guarded_append {step : σ → ε → σ} {guard : σ → ε → Prop} {s : σ} {es fs : List ε} :
    Guarded step guard s (es ++ fs) ↔
      Guarded step guard s es ∧ Guarded step guard (run step s es) fs := by
  induction es generalizing s with
  | nil => simp
  | cons e es ih => simp [ih, and_assoc]

theorem guarded_iff_forall_prefix {step : σ → ε → σ} {guard : σ → ε → Prop} {s : σ}
    {es : List ε} :
    Guarded step guard s es ↔
      ∀ before e, before ++ [e] <+: es → guard (run step s before) e := by
  induction es generalizing s with
  | nil => simp
  | cons e es ih =>
    rw [guarded_cons, ih]
    constructor
    · rintro ⟨he, hes⟩ before e' hb
      cases before with
      | nil =>
        obtain ⟨rfl, -⟩ := List.cons_prefix_cons.mp hb
        exact he
      | cons e'' before =>
        obtain ⟨rfl, hrest⟩ := List.cons_prefix_cons.mp hb
        exact hes before e' hrest
    · intro h
      refine ⟨h [] e (by simp), fun before e' hb => ?_⟩
      exact h (e :: before) e' ((List.prefix_cons_inj e).mpr hb)

instance Guarded.decidable (step : σ → ε → σ) (guard : σ → ε → Prop)
    [∀ s e, Decidable (guard s e)] : ∀ s es, Decidable (Guarded step guard s es)
  | _, [] => isTrue trivial
  | s, e :: es =>
    @instDecidableAnd _ _ (inferInstanceAs (Decidable (guard s e)))
      (Guarded.decidable step guard (step s e) es)

theorem guarded_of_forall {step : σ → ε → σ} {p : ε → Prop} {s : σ} {es : List ε}
    (h : ∀ e ∈ es, p e) : Guarded step (fun _ e => p e) s es := by
  induction es generalizing s with
  | nil => trivial
  | cons e es ih => exact ⟨h e (by simp), ih fun e' he => h e' (by simp [he])⟩

theorem guarded_mono {step : σ → ε → σ} {guard guard' : σ → ε → Prop}
    (h : ∀ s e, guard s e → guard' s e) {s : σ} {es : List ε} (hs : Guarded step guard s es) :
    Guarded step guard' s es := by
  induction es generalizing s with
  | nil => trivial
  | cons e es ih => exact ⟨h s e hs.1, ih hs.2⟩

theorem guarded_and {step : σ → ε → σ} {guard guard' : σ → ε → Prop} {s : σ} {es : List ε} :
    Guarded step (fun s e => guard s e ∧ guard' s e) s es ↔
      Guarded step guard s es ∧ Guarded step guard' s es := by
  induction es generalizing s with
  | nil => simp
  | cons e es ih =>
    simp only [guarded_cons, ih]
    exact and_and_and_comm

theorem run_invariant_of_guarded {step : σ → ε → σ} {guard : σ → ε → Prop} (inv : σ → Prop)
    (hstep : ∀ s e, inv s → guard s e → inv (step s e)) {s : σ} {es : List ε} (hs : inv s)
    (hg : Guarded step guard s es) : inv (run step s es) := by
  induction es generalizing s with
  | nil => exact hs
  | cons e es ih => exact ih (hstep s e hs hg.1) hg.2

theorem run_invariant {step : σ → ε → σ} (inv : σ → Prop)
    (hstep : ∀ s e, inv s → inv (step s e)) {s : σ} (hs : inv s) (es : List ε) :
    inv (run step s es) := by
  induction es generalizing s with
  | nil => exact hs
  | cons e es ih => exact ih (hstep s e hs)

/-- Where a step within the guard keeps an invariant, a condition that agrees with the guard in the
states that meet the invariant holds of every step exactly when the guard does. -/
theorem guarded_iff_of_invariant {step : σ → ε → σ} {guard condition : σ → ε → Prop}
    (inv : σ → Prop) (hstep : ∀ s e, inv s → guard s e → inv (step s e))
    (hiff : ∀ s e, inv s → (condition s e ↔ guard s e)) {s : σ} {es : List ε} (hs : inv s) :
    Guarded step condition s es ↔ Guarded step guard s es := by
  induction es generalizing s with
  | nil => simp
  | cons e es ih =>
    rw [guarded_cons, guarded_cons, hiff s e hs]
    exact and_congr_right fun hguard => ih (hstep s e hs hguard)

/-- Where a step within the guard keeps an invariant that implies a property, and a step outside
it breaks the property at once, the property holds all along a run exactly when every step is
within the guard. -/
theorem always_iff_guarded {step : σ → ε → σ} {guard : σ → ε → Prop} (valid : ε → Prop)
    (inv property : σ → Prop) (himp : ∀ s, inv s → property s)
    (hstep : ∀ s e, inv s → valid e → guard s e → inv (step s e))
    (hbreak : ∀ s e, inv s → valid e → ¬ guard s e → ¬ property (step s e))
    {s : σ} {es : List ε} (hs : inv s) (hvalid : ∀ e ∈ es, valid e) :
    (∀ before, before <+: es → property (run step s before)) ↔ Guarded step guard s es := by
  induction es generalizing s with
  | nil =>
    constructor
    · intro _; trivial
    · intro _ before hb
      rw [List.prefix_nil.mp hb]
      exact himp s hs
  | cons e es ih =>
    have hve := hvalid e (by simp)
    have hves : ∀ e' ∈ es, valid e' := fun e' he => hvalid e' (by simp [he])
    constructor
    · intro h
      have hg : guard s e := by
        by_contra hng
        exact hbreak s e hs hve hng (h [e] (by simp))
      refine ⟨hg, (ih (hstep s e hs hve hg) hves).mp fun before hb => ?_⟩
      exact h (e :: before) ((List.prefix_cons_inj e).mpr hb)
    · rintro ⟨hg, hrest⟩ before hb
      cases before with
      | nil => exact himp s hs
      | cons e' before =>
        obtain ⟨rfl, hbs⟩ := List.cons_prefix_cons.mp hb
        exact (ih (hstep s e' hs hve hg) hves).mpr hrest before hbs

end ChainQuantStudio.Run
