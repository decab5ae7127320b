import Mathlib.Algebra.Order.Ring.Rat
import Mathlib.Tactic.Common

/-!
# Decoded JSON under Python's operators

The values that a decoder returns for JSON text, with the operators dynamic code applies to them:
reading a key of a dictionary, truth, equality with a string, and membership in a set, which an
array or an object does not allow.
-/

namespace ChainQuantStudio

inductive Json
  | null
  | bool (value : Bool)
  | num (value : ℚ)
  | str (value : String)
  | arr (items : List Json)
  | obj (fields : List (String × Json))

namespace Json

inductive PyError
  | attributeError
  | typeError
  deriving DecidableEq, Repr

def truthy : Json → Bool
  | .null => false
  | .bool value => value
  | .num value => value ≠ 0
  | .str value => value ≠ ""
  | .arr items => !items.isEmpty
  | .obj fields => !fields.isEmpty

/-- `value.get(key)`. -/
def get (value : Json) (key : String) : Except PyError Json :=
  match value with
  | .obj fields => .ok ((fields.lookup key).getD .null)
  | _ => .error .attributeError

/-- `value or {}`. -/
def orEmpty (value : Json) : Json := if value.truthy then value else .obj []

/-- `value == text`. -/
def isText (value : Json) (text : String) : Bool :=
  match value with
  | .str value => value = text
  | _ => false

def text? : Json → Option String
  | .str value => some value
  | _ => none

def nonempty? (value : Json) : Option String := value.text?.filter (· ≠ "")

/-- `value in {...}` over strings. -/
def memOf (value : Json) (texts : List String) : Except PyError Bool :=
  match value with
  | .str value => .ok (texts.contains value)
  | .arr _ | .obj _ => .error .typeError
  | _ => .ok false

def isTrue : Json → Bool
  | .bool value => value
  | _ => false

def isObject : Json → Bool
  | .obj _ => true
  | _ => false

theorem isText_iff {value : Json} {text : String} : value.isText text = true ↔ value = .str text := by
  cases value <;> simp [isText]

theorem text?_eq_some {value : Json} {text : String} : value.text? = some text ↔ value = .str text := by
  cases value <;> simp [text?]

theorem nonempty?_eq_some {value : Json} {text : String} :
    value.nonempty? = some text ↔ value = .str text ∧ text ≠ "" := by
  cases value <;> simp [nonempty?, text?]

theorem isTrue_iff {value : Json} : value.isTrue = true ↔ value = .bool true := by
  cases value <;> simp [isTrue]

theorem memOf_eq_ok_true {value : Json} {texts : List String} :
    value.memOf texts = .ok true ↔ ∃ text ∈ texts, value = .str text := by
  cases value <;> simp [memOf]

end Json

end ChainQuantStudio
