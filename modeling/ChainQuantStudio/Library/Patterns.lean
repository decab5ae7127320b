import Mathlib.Computability.Language

/-!
# Regular patterns over letter classes

A pattern is a regular expression whose atoms are classes of letters. `search` runs it by
derivatives; it agrees with the language of the pattern, and what it finds in a text it finds in
every longer one.
-/

namespace ChainQuantStudio.Patterns

open Computability

variable {α : Type*}

inductive Pattern (α : Type*)
  | never
  | empty
  | one (p : α → Bool)
  | either (left right : Pattern α)
  | next (left right : Pattern α)
  | many (body : Pattern α)

namespace Pattern

instance : Add (Pattern α) := ⟨either⟩

instance : Mul (Pattern α) := ⟨next⟩

def optional (body : Pattern α) : Pattern α := empty + body

def oneOrMore (body : Pattern α) : Pattern α := body * many body

def word [DecidableEq α] (letters : List α) : Pattern α :=
  letters.foldr (fun letter rest => one (· = letter) * rest) empty

def anyOf (patterns : List (Pattern α)) : Pattern α := patterns.foldr (· + ·) never

def language : Pattern α → Language α
  | never => 0
  | empty => 1
  | one p => {text | ∃ letter, p letter = true ∧ text = [letter]}
  | either left right => left.language + right.language
  | next left right => left.language * right.language
  | many body => body.language∗

def nullable : Pattern α → Bool
  | never => false
  | empty => true
  | one _ => false
  | either left right => left.nullable || right.nullable
  | next left right => left.nullable && right.nullable
  | many _ => true

def deriv (letter : α) : Pattern α → Pattern α
  | never => never
  | empty => never
  | one p => if p letter then empty else never
  | either left right => either (left.deriv letter) (right.deriv letter)
  | next left right =>
    if left.nullable then either (next (left.deriv letter) right) (right.deriv letter)
    else next (left.deriv letter) right
  | many body => next (body.deriv letter) (many body)

/-- `re.match`. -/
def matchesStart : Pattern α → List α → Bool
  | pattern, [] => pattern.nullable
  | pattern, letter :: text => pattern.nullable || (pattern.deriv letter).matchesStart text

/-- `re.search`. -/
def search (pattern : Pattern α) (text : List α) : Bool := text.tails.any pattern.matchesStart

@[simp] theorem mem_language_one {p : α → Bool} {text : List α} :
    text ∈ (one p).language ↔ ∃ letter, p letter = true ∧ text = [letter] := Iff.rfl

theorem nullable_iff (pattern : Pattern α) : pattern.nullable = true ↔ [] ∈ pattern.language := by
  induction pattern with
  | never => simp [nullable, language]
  | empty => simp [nullable, language]
  | one p => simp [nullable]
  | either left right hleft hright =>
    rw [nullable, Bool.or_eq_true, hleft, hright]
    exact (Language.mem_add _ _ _).symm
  | next left right hleft hright =>
    rw [nullable, Bool.and_eq_true, hleft, hright, language, Language.mem_mul]
    constructor
    · intro h
      exact ⟨[], h.1, [], h.2, rfl⟩
    · rintro ⟨first, hfirst, last, hlast, happend⟩
      obtain ⟨rfl, rfl⟩ := List.append_eq_nil_iff.mp happend
      exact ⟨hfirst, hlast⟩
  | many body _ => exact iff_of_true rfl (Language.nil_mem_kstar _)

theorem cons_mem_mul {left right : Language α} {letter : α} {text : List α} :
    letter :: text ∈ left * right ↔
      (∃ first last, letter :: first ∈ left ∧ last ∈ right ∧ first ++ last = text) ∨
        ([] ∈ left ∧ letter :: text ∈ right) := by
  rw [Language.mem_mul]
  constructor
  · rintro ⟨first, hfirst, last, hlast, happend⟩
    cases first with
    | nil =>
      rw [List.nil_append] at happend
      exact Or.inr ⟨hfirst, happend ▸ hlast⟩
    | cons head first =>
      obtain ⟨rfl, hrest⟩ := List.cons.inj happend
      exact Or.inl ⟨first, last, hfirst, hlast, hrest⟩
  · rintro (⟨first, last, hfirst, hlast, rfl⟩ | ⟨hnil, hright⟩)
    · exact ⟨letter :: first, hfirst, last, hlast, rfl⟩
    · exact ⟨[], hnil, letter :: text, hright, rfl⟩

theorem cons_mem_kstar {body : Language α} {letter : α} {text : List α} :
    letter :: text ∈ body∗ ↔
      ∃ first last, letter :: first ∈ body ∧ last ∈ body∗ ∧ first ++ last = text := by
  constructor
  · rw [Language.mem_kstar_iff_exists_nonempty]
    rintro ⟨pieces, hflatten, hpieces⟩
    cases pieces with
    | nil => cases hflatten
    | cons piece pieces =>
      obtain ⟨hpiece, hne⟩ := hpieces piece List.mem_cons_self
      cases piece with
      | nil => exact absurd rfl hne
      | cons head first =>
        obtain ⟨rfl, hrest⟩ := List.cons.inj hflatten
        refine ⟨first, pieces.flatten, hpiece, ?_, hrest.symm⟩
        exact Language.join_mem_kstar fun other hother =>
          (hpieces other (List.mem_cons_of_mem _ hother)).1
  · rintro ⟨first, last, hfirst, hlast, rfl⟩
    obtain ⟨pieces, rfl, hpieces⟩ := Language.mem_kstar.mp hlast
    refine Language.mem_kstar.mpr ⟨(letter :: first) :: pieces, rfl, fun piece hpiece => ?_⟩
    rcases List.mem_cons.mp hpiece with rfl | hmem
    · exact hfirst
    · exact hpieces piece hmem

theorem mem_language_deriv (pattern : Pattern α) (letter : α) (text : List α) :
    text ∈ (pattern.deriv letter).language ↔ letter :: text ∈ pattern.language := by
  induction pattern generalizing text with
  | never => exact iff_of_false (Language.notMem_zero _) (Language.notMem_zero _)
  | empty => exact iff_of_false (Language.notMem_zero _) (List.cons_ne_nil _ _)
  | one p =>
    rw [deriv, mem_language_one]
    by_cases hp : p letter = true
    · rw [if_pos hp]
      constructor
      · rintro rfl
        exact ⟨letter, hp, rfl⟩
      · rintro ⟨_, _, heq⟩
        exact (List.cons.inj heq).2
    · rw [if_neg hp]
      refine iff_of_false (Language.notMem_zero _) ?_
      rintro ⟨other, hother, heq⟩
      exact hp ((List.cons.inj heq).1 ▸ hother)
  | either left right hleft hright =>
    exact or_congr (hleft text) (hright text)
  | next left right hleft hright =>
    have hproduct : text ∈ (left.deriv letter).language * right.language ↔
        ∃ first last, letter :: first ∈ left.language ∧ last ∈ right.language ∧
          first ++ last = text := by
      rw [Language.mem_mul]
      constructor
      · rintro ⟨first, hfirst, last, hlast, happend⟩
        exact ⟨first, last, (hleft first).mp hfirst, hlast, happend⟩
      · rintro ⟨first, last, hfirst, hlast, happend⟩
        exact ⟨first, (hleft first).mpr hfirst, last, hlast, happend⟩
    rw [language, cons_mem_mul, ← hproduct, ← nullable_iff, deriv]
    by_cases hnull : left.nullable = true
    · rw [if_pos hnull, language, Language.mem_add, language, hright text]
      exact or_congr_right (and_iff_right hnull).symm
    · rw [if_neg hnull, language]
      exact (or_iff_left fun h => hnull h.1).symm
  | many body hbody =>
    rw [deriv, language, language, cons_mem_kstar, Language.mem_mul]
    constructor
    · rintro ⟨first, hfirst, last, hlast, happend⟩
      exact ⟨first, last, (hbody first).mp hfirst, hlast, happend⟩
    · rintro ⟨first, last, hfirst, hlast, happend⟩
      exact ⟨first, (hbody first).mpr hfirst, last, hlast, happend⟩

theorem matchesStart_iff (pattern : Pattern α) (text : List α) :
    pattern.matchesStart text = true ↔ ∃ found, found <+: text ∧ found ∈ pattern.language := by
  induction text generalizing pattern with
  | nil =>
    rw [matchesStart, nullable_iff]
    constructor
    · intro h
      exact ⟨[], List.nil_prefix, h⟩
    · rintro ⟨found, hprefix, hfound⟩
      rwa [List.prefix_nil.mp hprefix] at hfound
  | cons letter text ih =>
    rw [matchesStart, Bool.or_eq_true, nullable_iff, ih]
    constructor
    · rintro (hnil | ⟨found, hprefix, hfound⟩)
      · exact ⟨[], List.nil_prefix, hnil⟩
      · exact ⟨letter :: found, (List.prefix_cons_inj letter).mpr hprefix,
          (mem_language_deriv pattern letter found).mp hfound⟩
    · rintro ⟨found, hprefix, hfound⟩
      cases found with
      | nil => exact Or.inl hfound
      | cons head found =>
        obtain ⟨rfl, hrest⟩ := List.cons_prefix_cons.mp hprefix
        exact Or.inr ⟨found, hrest, (mem_language_deriv pattern head found).mpr hfound⟩

theorem search_iff (pattern : Pattern α) (text : List α) :
    pattern.search text = true ↔ ∃ found, found <:+: text ∧ found ∈ pattern.language := by
  rw [search, List.any_eq_true]
  constructor
  · rintro ⟨rest, hrest, hstart⟩
    obtain ⟨found, hprefix, hfound⟩ := (matchesStart_iff pattern rest).mp hstart
    exact ⟨found, hprefix.isInfix.trans ((List.mem_tails _ _).mp hrest).isInfix, hfound⟩
  · rintro ⟨found, hpiece, hfound⟩
    obtain ⟨rest, hprefix, hsuffix⟩ := List.infix_iff_prefix_suffix.mp hpiece
    exact ⟨rest, (List.mem_tails _ _).mpr hsuffix,
      (matchesStart_iff pattern rest).mpr ⟨found, hprefix, hfound⟩⟩

theorem search_of_piece {pattern : Pattern α} {text longer : List α} (h : text <:+: longer)
    (hfound : pattern.search text = true) : pattern.search longer = true := by
  obtain ⟨found, hpiece, hmem⟩ := (search_iff pattern text).mp hfound
  exact (search_iff pattern longer).mpr ⟨found, hpiece.trans h, hmem⟩

end Pattern

end ChainQuantStudio.Patterns
