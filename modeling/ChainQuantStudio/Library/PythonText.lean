import Mathlib.Data.List.Basic
import Mathlib.Tactic.Common

/-!
# Text matching as Python's `str` and `re` do it

Texts are lists of code points. White space and line ends are those of `str.isspace`, `\s` and
`str.splitlines`; a pattern letter is matched as `re.IGNORECASE` matches it, and `findAll` tries a
matcher at every line start from left to right, each match consuming its text.
-/

namespace ChainQuantStudio.PythonText

abbrev Text := List Char

def isSpace (c : Char) : Bool :=
  let n := c.toNat
  (9 ≤ n && n ≤ 13) || (28 ≤ n && n ≤ 32) || n == 0x85 || n == 0xa0 || n == 0x1680 ||
    (0x2000 ≤ n && n ≤ 0x200a) || n == 0x2028 || n == 0x2029 || n == 0x202f || n == 0x205f ||
    n == 0x3000

/-- The boundaries of `str.splitlines`. A pair `\r\n` gives one more empty line here. -/
def isLineEnd (c : Char) : Bool :=
  let n := c.toNat
  (10 ≤ n && n ≤ 13) || (28 ≤ n && n ≤ 30) || n == 0x85 || n == 0x2028 || n == 0x2029

/-- The first code points of the runs of ten decimal digits, `[0-9]` being the first. -/
def digitZeros : List ℕ :=
  [0x30, 0x660, 0x6f0, 0x7c0, 0x966, 0x9e6, 0xa66, 0xae6, 0xb66, 0xbe6, 0xc66, 0xce6, 0xd66,
   0xde6, 0xe50, 0xed0, 0xf20, 0x1040, 0x1090, 0x17e0, 0x1810, 0x1946, 0x19d0, 0x1a80, 0x1a90,
   0x1b50, 0x1bb0, 0x1c40, 0x1c50, 0xa620, 0xa8d0, 0xa900, 0xa9d0, 0xa9f0, 0xaa50, 0xabf0, 0xff10,
   0x104a0, 0x10d30, 0x11066, 0x110f0, 0x11136, 0x111d0, 0x112f0, 0x11450, 0x114d0, 0x11650,
   0x116c0, 0x11730, 0x118e0, 0x11950, 0x11c50, 0x11d50, 0x11da0, 0x11f50, 0x16a60, 0x16ac0,
   0x16b50, 0x1d7ce, 0x1d7d8, 0x1d7e2, 0x1d7ec, 0x1d7f6, 0x1e140, 0x1e2f0, 0x1e4f0, 0x1e950,
   0x1fbf0]

/-- `\d`. -/
def isDecimal (c : Char) : Bool := digitZeros.any fun first => first ≤ c.toNat && c.toNat < first + 10

/-- `str.lower`, as far as the result is compared with ASCII text: the Kelvin sign and the dotted
capital I are the two other letters with an ASCII letter in their lower case. -/
def lower (text : Text) : Text :=
  text.flatMap fun c =>
    if c.toNat = 0x212a then ['k']
    else if c.toNat = 0x130 then ['i', Char.ofNat 0x307]
    else [c.toLower]

/-- A lower-case pattern letter against a text letter under `re.IGNORECASE`. -/
def sameLetter (pattern c : Char) : Bool :=
  pattern == c.toLower ||
    (pattern == 'i' && (c.toNat == 0x130 || c.toNat == 0x131)) ||
    (pattern == 's' && c.toNat == 0x17f) || (pattern == 'k' && c.toNat == 0x212a)

/-- `[a-z]` under `re.IGNORECASE`. -/
def isLetter (c : Char) : Bool :=
  c.isAlpha || [0x130, 0x131, 0x17f, 0x212a].contains c.toNat

def stripLeft (text : Text) : Text := text.dropWhile isSpace

def strip (text : Text) : Text := (stripLeft (stripLeft text).reverse).reverse

theorem stripLeft_suffix (text : Text) : stripLeft text <:+ text := List.dropWhile_suffix _

theorem strip_isInfix (text : Text) : strip text <:+: text := by
  have hright : strip text <+: stripLeft text :=
    List.reverse_suffix.mp (by
      rw [strip, List.reverse_reverse]
      exact stripLeft_suffix _)
  exact hright.isInfix.trans (stripLeft_suffix text).isInfix

theorem splitOnP_isInfix (q : Char → Bool) (text : Text) :
    (∀ first ∈ (text.splitOnP q).head?, first <+: text) ∧ ∀ part ∈ text.splitOnP q, part <:+: text := by
  induction text with
  | nil => simp [List.splitOnP_nil]
  | cons c cs ih =>
    rw [List.splitOnP_cons_eq_if_modifyHead]
    split_ifs with hc
    · refine ⟨by simp, fun part hpart => ?_⟩
      rcases List.mem_cons.mp hpart with rfl | hpart
      · exact List.nil_infix
      · exact (ih.2 part hpart).trans (List.suffix_cons c cs).isInfix
    · obtain ⟨first, rest, hsplit⟩ := List.exists_cons_of_ne_nil (List.splitOnP_ne_nil q cs)
      rw [hsplit] at ih ⊢
      have hfirst : c :: first <+: c :: cs := List.cons_prefix_cons.mpr ⟨rfl, ih.1 first rfl⟩
      refine ⟨by simpa using hfirst, fun part hpart => ?_⟩
      rcases List.mem_cons.mp hpart with rfl | hpart
      · exact hfirst.isInfix
      · exact (ih.2 part (List.mem_cons_of_mem _ hpart)).trans (List.suffix_cons c cs).isInfix

def isBlank (text : Text) : Bool := text.all isSpace

/-- `next((line.strip() for line in text.splitlines() if line.strip()), "")`. -/
def firstLine (text : Text) : Text :=
  (((text.splitOnP isLineEnd).map strip).find? (!·.isEmpty)).getD []

def afterWord : Text → Text → Option Text
  | [], text => some text
  | _ :: _, [] => none
  | p :: ps, c :: cs => if sameLetter p c then afterWord ps cs else none

def afterLiteral : Text → Text → Option Text
  | [], text => some text
  | _ :: _, [] => none
  | p :: ps, c :: cs => if p = c then afterLiteral ps cs else none

/-- `pattern in text`. -/
def contains (pattern text : Text) : Bool := text.tails.any (pattern.isPrefixOf ·)

/-- An occurrence of `pattern` with no neighbour in the class `barred`. -/
def containsApart (barred : Char → Bool) (pattern text : Text) : Bool :=
  (text.inits.zip text.tails).any fun (before, after) =>
    pattern.isPrefixOf after && !before.getLast?.any barred &&
      !(after.drop pattern.length).head?.any barred

/-- `re.findall` with a matcher anchored at line starts (`(?m)^`): from left to right, each match
consuming what it returns past. The count bounds the code points still to read. -/
def scanLines {β : Type*} (matcher : Text → Option (β × Text)) : ℕ → Bool → Text → List β
  | 0, _, _ => []
  | _ + 1, _, [] => []
  | n + 1, false, c :: cs => scanLines matcher n (c == '\n') cs
  | n + 1, true, c :: cs =>
    match matcher (c :: cs) with
    | some (found, rest) => found :: scanLines matcher n false rest
    | none => scanLines matcher n (c == '\n') cs

def findAll {β : Type*} (matcher : Text → Option (β × Text)) (text : Text) : List β :=
  scanLines matcher text.length true text

theorem scanLines_eq_nil {β : Type*} {matcher : Text → Option (β × Text)} {p : Char → Bool}
    (hnone : ∀ c cs, p c = true → matcher (c :: cs) = none) (n : ℕ) (atStart : Bool) {text : Text}
    (h : text.all p = true) : scanLines matcher n atStart text = [] := by
  induction n generalizing atStart text with
  | zero => rfl
  | succ n ih =>
    cases text with
    | nil => rfl
    | cons c cs =>
      obtain ⟨hc, hcs⟩ := Bool.and_eq_true_iff.mp (List.all_cons ▸ h)
      cases atStart with
      | false => exact ih _ hcs
      | true =>
        simp only [scanLines, hnone c cs hc]
        exact ih _ hcs

theorem findAll_eq_nil {β : Type*} {matcher : Text → Option (β × Text)} {p : Char → Bool}
    (hnone : ∀ c cs, p c = true → matcher (c :: cs) = none) {text : Text}
    (h : text.all p = true) : findAll matcher text = [] :=
  scanLines_eq_nil hnone _ _ h

theorem toLower_of_isSpace {c : Char} (h : isSpace c = true) : c.toLower = c := by
  have hval : ¬ (c.toNat ≥ 65 ∧ c.toNat ≤ 90) := by
    simp only [isSpace, Bool.or_eq_true, Bool.and_eq_true, decide_eq_true_eq, beq_iff_eq] at h
    omega
  unfold Char.toLower
  rw [dif_neg]
  exact hval

/-- `\s*(\S.*)$`: white space, over line ends too, and then the rest of a line. -/
def restOfLine (text : Text) : Option (Text × Text) :=
  match stripLeft text with
  | [] => none
  | c :: cs => some ((c :: cs).span (· != '\n'))

/-- `\s*$` after a token: white space that reaches a line end or the end of the text. -/
def endsLine (text : Text) : Bool :=
  (stripLeft text).isEmpty || (text.takeWhile isSpace).contains '\n'

/-- `^(?:LABEL|...):\s*(\S.*)$` for the labels in turn, in lower case. -/
def matchField (labels : List String) (text : Text) : Option (Text × Text) :=
  (labels.findSome? fun label => afterWord (label ++ ":").toList text).bind restOfLine

def fields (labels : List String) (text : Text) : List Text := findAll (matchField labels) text

end ChainQuantStudio.PythonText
