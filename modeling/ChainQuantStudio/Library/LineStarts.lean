import ChainQuantStudio.Library.PythonText
import Mathlib.Data.List.TakeDrop

/-!
# Matches at line starts

`re.findall` consumes what it matches: a line inside the text of a match is never tried. Here a
matcher is tried at every line start on its own, and the matches of a scan are compared with these.
-/

namespace ChainQuantStudio.PythonText

open scoped List

def startsFrom : Bool → Text → List Text
  | _, [] => []
  | true, c :: cs => (c :: cs) :: startsFrom (c == '\n') cs
  | false, c :: cs => startsFrom (c == '\n') cs

def lineStarts (text : Text) : List Text := startsFrom true text

variable {β : Type*} {matcher : Text → Option (β × Text)}

def matchesAt (matcher : Text → Option (β × Text)) (starts : List Text) : List β :=
  starts.filterMap fun start => (matcher start).map Prod.fst

def lineMatches (matcher : Text → Option (β × Text)) (text : Text) : List β :=
  matchesAt matcher (lineStarts text)

def Advances (matcher : Text → Option (β × Text)) : Prop :=
  ∀ ⦃c : Char⦄ ⦃cs : Text⦄ ⦃found : β⦄ ⦃rest : Text⦄,
    matcher (c :: cs) = some (found, rest) → rest <:+ cs

theorem lineMatches_eq_nil {text : Text} :
    lineMatches matcher text = [] ↔ ∀ start ∈ lineStarts text, matcher start = none := by
  simp only [lineMatches, matchesAt, List.filterMap_eq_nil_iff, Option.map_eq_none_iff]

theorem startsFrom_false_sublist (atStart : Bool) (text : Text) :
    startsFrom false text <+ startsFrom atStart text := by
  cases text with
  | nil => exact List.Sublist.refl _
  | cons c cs =>
    cases atStart with
    | false => exact List.Sublist.refl _
    | true => exact List.sublist_cons_self _ _

theorem startsFrom_sublist_of_suffix {rest text : Text} (h : rest <:+ text) (atStart : Bool) :
    startsFrom false rest <+ startsFrom atStart text := by
  induction text generalizing atStart with
  | nil =>
    rw [List.suffix_nil.mp h]
    exact startsFrom_false_sublist _ _
  | cons c cs ih =>
    rcases List.suffix_cons_iff.mp h with rfl | hsuffix
    · exact startsFrom_false_sublist _ _
    · have htail := ih hsuffix (c == '\n')
      cases atStart with
      | false => exact htail
      | true => exact htail.cons _

theorem matchesAt_sublist {starts starts' : List Text} (h : starts <+ starts') :
    matchesAt matcher starts <+ matchesAt matcher starts' :=
  h.filterMap _

theorem scanLines_sublist (hadvances : Advances matcher) (n : ℕ) (atStart : Bool) (text : Text) :
    scanLines matcher n atStart text <+ matchesAt matcher (startsFrom atStart text) := by
  induction n generalizing atStart text with
  | zero => exact List.nil_sublist _
  | succ n ih =>
    cases text with
    | nil => exact List.nil_sublist _
    | cons c cs =>
      cases atStart with
      | false => exact ih _ cs
      | true =>
        cases hmatch : matcher (c :: cs) with
        | none =>
          simp only [scanLines, hmatch, startsFrom, matchesAt, List.filterMap_cons, Option.map_none]
          exact ih _ cs
        | some m =>
          obtain ⟨found, rest⟩ := m
          simp only [scanLines, hmatch, startsFrom, matchesAt, List.filterMap_cons, Option.map_some]
          -- The scan goes on inside the match: what starts there starts a line of the text too.
          have hstarts := startsFrom_sublist_of_suffix (hadvances hmatch) (c == '\n')
          exact ((ih false rest).trans (matchesAt_sublist hstarts)).cons_cons found

theorem findAll_sublist (hadvances : Advances matcher) (text : Text) :
    findAll matcher text <+ lineMatches matcher text :=
  scanLines_sublist hadvances _ _ text

theorem scanLines_head? (n : ℕ) (atStart : Bool) (text : Text) (hn : text.length ≤ n) :
    (scanLines matcher n atStart text).head? =
      (matchesAt matcher (startsFrom atStart text)).head? := by
  induction n generalizing atStart text with
  | zero =>
    rw [List.length_eq_zero_iff.mp (Nat.le_zero.mp hn)]
    rfl
  | succ n ih =>
    cases text with
    | nil => rfl
    | cons c cs =>
      have hcs : cs.length ≤ n := Nat.le_of_succ_le_succ hn
      cases atStart with
      | false => exact ih _ cs hcs
      | true =>
        cases hmatch : matcher (c :: cs) with
        | none =>
          simp only [scanLines, hmatch, startsFrom, matchesAt, List.filterMap_cons, Option.map_none]
          exact ih _ cs hcs
        | some m =>
          simp only [scanLines, hmatch, startsFrom, matchesAt, List.filterMap_cons, Option.map_some,
            List.head?_cons]

theorem findAll_head? (text : Text) :
    (findAll matcher text).head? = (lineMatches matcher text).head? :=
  scanLines_head? _ _ text (Nat.le_refl _)

theorem findAll_eq_nil_iff {text : Text} :
    findAll matcher text = [] ↔ lineMatches matcher text = [] := by
  rw [← List.head?_eq_none_iff, findAll_head?, List.head?_eq_none_iff]

theorem afterWord_suffix {word text rest : Text} (h : afterWord word text = some rest) :
    rest <:+ text := by
  induction word generalizing text with
  | nil =>
    cases h
    exact List.suffix_rfl
  | cons p ps ih =>
    cases text with
    | nil => cases h
    | cons c cs =>
      simp only [afterWord, Option.ite_none_right_eq_some] at h
      exact (ih h.2).trans (List.suffix_cons c cs)

theorem afterWord_cons_suffix {p c : Char} {ps cs rest : Text}
    (h : afterWord (p :: ps) (c :: cs) = some rest) : rest <:+ cs := by
  simp only [afterWord, Option.ite_none_right_eq_some] at h
  exact afterWord_suffix h.2

theorem span_suffix (p : Char → Bool) (text : Text) : (text.span p).2 <:+ text := by
  rw [List.span_eq_takeWhile_dropWhile]
  exact List.dropWhile_suffix p

theorem restOfLine_suffix {text found rest : Text} (h : restOfLine text = some (found, rest)) :
    rest <:+ text := by
  unfold restOfLine at h
  split at h
  · cases h
  · rename_i c cs hstrip
    have hrest : rest = ((c :: cs).span (· != '\n')).2 := by
      rw [Option.some.inj h]
    have hspan := span_suffix (· != '\n') (c :: cs)
    rw [← hrest, ← hstrip] at hspan
    exact hspan.trans (stripLeft_suffix text)

end ChainQuantStudio.PythonText
