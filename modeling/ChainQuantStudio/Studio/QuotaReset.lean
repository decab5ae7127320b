import ChainQuantStudio.Library.DateTimes

/-!
# The reset that a quota failure names

`GlobalCodexCircuitBreaker.open` reads from the text of a quota failure when the quota is there
again: an ISO stamp, a dated reset or a clock time, and otherwise the end of a cooldown. A reset
outside the years of a datetime raises.
-/

namespace ChainQuantStudio.Studio

open DateTimes PythonText

/-- `try again at\s+`. -/
def afterPhrase (text : Text) : Option Text :=
  (afterWord "try again at".toList text).bind takeSpaces

/-- `re.search` with a matcher for the text at one position. -/
def search (matcher : Text → Option Text) (detail : Text) : Option Text :=
  detail.tails.findSome? matcher

/-- `[0-9T:+-]`. -/
def isStampChar (c : Char) : Bool := c.isDigit || ['t', ':', '+', '-'].contains c.toLower

/-- `([0-9T:+-]{16,35})`. -/
def isoGroup (text : Text) : Option Text := do
  let stamp := ((← afterPhrase text).takeWhile isStampChar).take 35
  if 16 ≤ stamp.length then return stamp else none

/-- `\d{1,2}`. -/
def skipOneOrTwo : Text → Option Text
  | c :: d :: rest =>
    if !isDecimal c then none else if isDecimal d then some rest else some (d :: rest)
  | [c] => if isDecimal c then some [] else none
  | [] => none

/-- `\d{n}`. -/
def skipDecimals (n : ℕ) (text : Text) : Option Text :=
  if (text.take n).length = n ∧ (text.take n).all isDecimal then some (text.drop n) else none

/-- `\d{1,2}:\d{2}\s*[AP]M`. -/
def skipClock (text : Text) : Option Text := do
  let rest ← afterLiteral [':'] (← skipOneOrTwo text)
  match stripLeft (← skipDecimals 2 rest) with
  | half :: 'm' :: rest | half :: 'M' :: rest =>
    if half.toLower = 'a' ∨ half.toLower = 'p' then return rest else none
  | _ => none

/-- `(?:st|nd|rd|th)?`. -/
def skipSuffix (text : Text) : Text :=
  ((["st", "nd", "rd", "th"].map String.toList).findSome? fun suffix => afterWord suffix text).getD
    text

/-- The part of a text before `rest`. -/
def groupBefore (text rest : Text) : Text := text.take (text.length - rest.length)

def datedGroup (text : Text) : Option Text := do
  let group ← afterPhrase text
  if 3 ≤ group.length ∧ (group.take 3).all isLetter then
    let rest ← skipOneOrTwo (← takeSpaces (group.drop 3))
    let rest ← takeSpaces (← afterLiteral [','] (skipSuffix rest))
    let rest ← takeSpaces (← skipDecimals 4 rest)
    return groupBefore group (← skipClock rest)
  else none

def timeGroup (text : Text) : Option Text := do
  let group ← afterPhrase text
  return groupBefore group (← skipClock group)

/-- `re.sub(r"(\d)(?:st|nd|rd|th)", r"\1", text)`. -/
def withoutSuffixes : Text → Text
  | c :: a :: b :: rest =>
    if isDecimal c ∧ [a, b] ∈ ["st", "nd", "rd", "th"].map String.toList then
      c :: withoutSuffixes rest
    else c :: withoutSuffixes (a :: b :: rest)
  | text => text

inductive CircuitState
  | closed
  | opened
  deriving DecidableEq

/-- `GlobalCodexCircuitBreaker`. -/
structure CircuitBreaker (Z : Type) where
  defaultCooldownSeconds : ℤ := 3600
  state : CircuitState := .closed
  openUntil : Option (Aware Z) := none
  reason : Option String := none

inductive OutOfRange
  | overflowError
  deriving DecidableEq

variable {Z : Type}

def inRange (moment : Option (Aware Z)) : Except OutOfRange (Aware Z) :=
  match moment with
  | some moment => .ok moment
  | none => .error .overflowError

theorem inRange_ok {moment : Option (Aware Z)} {other : Aware Z} :
    inRange moment = .ok other ↔ moment = some other := by
  cases moment <;> simp [inRange]

variable [DecidableEq Z] (z : Zones Z)

def retryAt (detail : Text) (now : Aware Z) : Except OutOfRange (Option (Aware Z)) :=
  match search isoGroup detail with
  | some stamp =>
    match fromIsoFormat stamp with
    | some (reading, some ahead) =>
      if h : Ranged (reading - ahead) then
        .ok (some { wall := reading - ahead, zone := z.utc, ranged := h })
      else .error .overflowError
    | some (_, none) | none => .ok none
  | none =>
    match search datedGroup detail with
    | some dated =>
      match datedOf (withoutSuffixes dated) with
      | some parsed => .ok (some { wall := parsed, zone := now.zone, ranged := parsed.2 })
      | none => .ok none
    | none =>
      match search timeGroup detail with
      | none => .ok none
      | some time =>
        match timeOf (time.map Char.toUpper) with
        | none => .ok none
        | some parsed =>
          let candidate := now.combine parsed
          if z.before now candidate then .ok (some candidate)
          else (inRange (candidate.plus dayLength)).map some

namespace CircuitBreaker

variable (b : CircuitBreaker Z)

def close : CircuitBreaker Z := { b with state := .closed, openUntil := none, reason := none }

def isOpen (now : Aware Z) : Bool × CircuitBreaker Z :=
  if b.state = .opened ∧ b.openUntil.any (z.before now) then (true, b)
  else if b.state = .opened then (false, b.close)
  else (false, b)

def endOf (reason : String) (now : Aware Z) : Except OutOfRange (Aware Z) := do
  match ← retryAt z reason.toList now with
  | some moment => return moment
  | none => inRange (now.plus (b.defaultCooldownSeconds * 1000000))

/-- `open`. The state and the reason are set before the text is read. -/
def openCircuit (reason : String) (now : Aware Z) :
    Except OutOfRange (Aware Z) × CircuitBreaker Z :=
  let opened := { b with state := .opened, reason := some reason }
  match b.endOf z reason now with
  | .ok moment => (.ok moment, { opened with openUntil := some moment })
  | .error raised => (.error raised, opened)

end CircuitBreaker

inductive Reset
  | stamp (utc : ℤ)
  | dated (reading : { wall : ℤ // Ranged wall })
  | clock (time : { time : ℤ // 0 ≤ time ∧ time < dayLength })
  | unnamed
  deriving DecidableEq

def resetOf (detail : Text) : Reset :=
  match search isoGroup detail with
  | some stamp =>
    match fromIsoFormat stamp with
    | some (reading, some ahead) => .stamp (reading - ahead)
    | some (_, none) | none => .unnamed
  | none =>
    match search datedGroup detail with
    | some dated => ((datedOf (withoutSuffixes dated)).map Reset.dated).getD .unnamed
    | none =>
      match search timeGroup detail with
      | some time => ((timeOf (time.map Char.toUpper)).map Reset.clock).getD .unnamed
      | none => .unnamed

def Reset.moment (now : Aware Z) : Reset → Except OutOfRange (Option (Aware Z))
  | .stamp utc =>
    if h : Ranged utc then .ok (some { wall := utc, zone := z.utc, ranged := h })
    else .error .overflowError
  | .dated reading => .ok (some { wall := reading, zone := now.zone, ranged := reading.2 })
  | .clock time =>
    if z.before now (now.combine time) then .ok (some (now.combine time))
    else (inRange ((now.combine time).plus dayLength)).map some
  | .unnamed => .ok none

theorem retryAt_eq (detail : Text) (now : Aware Z) :
    retryAt z detail now = (resetOf detail).moment z now := by
  unfold retryAt resetOf
  cases search isoGroup detail with
  | some stamp =>
    dsimp only
    cases fromIsoFormat stamp with
    | none => rfl
    | some parsed =>
      obtain ⟨reading, ahead⟩ := parsed
      cases ahead <;> rfl
  | none =>
    cases search datedGroup detail with
    | some dated =>
      dsimp only
      cases datedOf (withoutSuffixes dated) <;> rfl
    | none =>
      cases search timeGroup detail with
      | none => rfl
      | some time =>
        dsimp only
        cases timeOf (time.map Char.toUpper) <;> rfl

theorem CircuitBreaker.openCircuit_fst {b : CircuitBreaker Z} {reason : String} {now : Aware Z} :
    (b.openCircuit z reason now).1 = b.endOf z reason now := by
  unfold openCircuit
  cases b.endOf z reason now <;> rfl

theorem CircuitBreaker.endOf_unnamed {b : CircuitBreaker Z} {reason : String} {now : Aware Z}
    (hreset : resetOf reason.toList = .unnamed)
    (hranged : Ranged (now.wall + b.defaultCooldownSeconds * 1000000)) :
    b.endOf z reason now = .ok
      { wall := now.wall + b.defaultCooldownSeconds * 1000000
        zone := now.zone, ranged := hranged } := by
  unfold endOf
  rw [retryAt_eq, hreset]
  simp [Reset.moment, bind, Except.bind, inRange, Aware.plus, hranged]

end ChainQuantStudio.Studio
