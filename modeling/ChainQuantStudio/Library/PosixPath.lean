import Mathlib.Data.List.Basic
import Mathlib.Tactic.Common

/-!
# Paths

A path as `PurePosixPath` parses it: empty parts and single dots are dropped, double dots stay.
-/

namespace ChainQuantStudio

structure PosixPath where
  absolute : Bool
  parts : List String
  deriving DecidableEq, Repr

namespace PosixPath

def isSlash (c : Char) : Bool := c == '/'

def parse (text : String) : PosixPath where
  absolute := text.toList.head?.any isSlash
  parts := ((text.toList.splitOnP isSlash).filter fun part => part ≠ [] ∧ part ≠ ['.']).map
    String.ofList

/-- `as_posix` of a relative path. -/
def asPosix (parts : List String) : String :=
  String.ofList (List.intercalate ['/'] (parts.map String.toList))

def Clean (part : String) : Prop :=
  part.toList ≠ [] ∧ part.toList ≠ ['.'] ∧ '/' ∉ part.toList

instance (part : String) : Decidable (Clean part) := inferInstanceAs (Decidable (_ ∧ _ ∧ _))

theorem splitOnP_isSlash {text : List Char} (h : '/' ∉ text) : text.splitOnP isSlash = [text] := by
  refine List.splitOnP_eq_singleton fun c hc => ?_
  rw [isSlash, beq_eq_false_iff_ne]
  rintro rfl
  exact h hc

theorem splitOnP_intercalate {texts : List (List Char)} (hne : texts ≠ [])
    (h : ∀ text ∈ texts, '/' ∉ text) :
    (List.intercalate ['/'] texts).splitOnP isSlash = texts := by
  induction texts with
  | nil => exact absurd rfl hne
  | cons text rest ih =>
    have htext := h text List.mem_cons_self
    cases rest with
    | nil =>
      rw [List.intercalate_singleton]
      exact splitOnP_isSlash htext
    | cons next rest =>
      have hrest := ih (List.cons_ne_nil _ _) fun other hother => h other (List.mem_cons_of_mem _ hother)
      rw [List.intercalate_cons_cons, List.append_assoc, List.singleton_append,
        List.splitOnP_append_cons _ _ rfl, splitOnP_isSlash htext, hrest, List.singleton_append]

theorem parse_asPosix {parts : List String} (hne : parts ≠ []) (h : ∀ part ∈ parts, Clean part) :
    parse (asPosix parts) = ⟨false, parts⟩ := by
  have hslash : ∀ text ∈ parts.map String.toList, '/' ∉ text := by
    intro text hmem
    obtain ⟨part, hpart, rfl⟩ := List.mem_map.mp hmem
    exact (h part hpart).2.2
  have hsplit := splitOnP_intercalate (by simpa using hne) hslash
  have hkeep : ((parts.map String.toList).filter fun part => part ≠ [] ∧ part ≠ ['.']) =
      parts.map String.toList := by
    rw [List.filter_eq_self]
    intro text hmem
    obtain ⟨part, hpart, rfl⟩ := List.mem_map.mp hmem
    exact decide_eq_true ⟨(h part hpart).1, (h part hpart).2.1⟩
  rw [parse, asPosix, String.toList_ofList, hsplit, hkeep, PosixPath.mk.injEq]
  constructor
  · obtain ⟨part, rest, rfl⟩ := List.exists_cons_of_ne_nil hne
    obtain ⟨c, cs, hpart⟩ := List.exists_cons_of_ne_nil (h part List.mem_cons_self).1
    have hc : c ≠ '/' := by
      rintro rfl
      exact (h part List.mem_cons_self).2.2 (hpart ▸ List.mem_cons_self)
    cases rest <;> simp [hpart, List.intercalate, isSlash, hc]
  · simp [Function.comp_def]

end PosixPath

end ChainQuantStudio
