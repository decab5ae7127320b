import ChainQuantStudio.Library.PythonText

/-!
# Agent reports

What the work-order runner reads off the text an agent returns: the verdict of a Review report, the
findings it hands back, a complete optimization proposal, the key an issue is counted under, and
the errors that mean the agent was out of capacity.
-/

namespace ChainQuantStudio.Studio

open PythonText

inductive ReviewStage
  | reviewImplementation
  | reviewBacktest
  deriving DecidableEq, Repr

def ReviewStage.value : ReviewStage → String
  | .reviewImplementation => "review_implementation"
  | .reviewBacktest => "review_backtest"

def reviewChecks : ReviewStage → List String
  | .reviewImplementation =>
    ["spec", "implementation", "tests", "normalized_data", "temporal_integrity", "safety"]
  | .reviewBacktest =>
    ["spec_alignment", "dataset_provenance", "temporal_integrity", "metrics", "charts",
     "reproducibility"]

inductive ReviewOutcome
  | pass
  | fail
  | blocked
  | incomplete
  deriving DecidableEq, Repr

def ReviewOutcome.upper : ReviewOutcome → String
  | .pass => "PASS"
  | .fail => "FAIL"
  | .blocked => "BLOCKED"
  | .incomplete => "INCOMPLETE"

/-- `^#*\s*(?:\*\*)?WORD(?:\*\*)?(?=$|[\s:—–-])` on a first line, the word in lower case. -/
def matchVerdict (word : String) (line : Text) : Bool :=
  let body := stripLeft (line.dropWhile (· == '#'))
  let body := (afterLiteral ['*', '*'] body).getD body
  match afterWord word.toList body with
  | none => false
  | some rest =>
    match (afterLiteral ['*', '*'] rest).getD rest with
    | [] => true
    | c :: _ => isSpace c || [':', '—', '–', '-'].contains c

def reviewPassed (result : String) : Bool := matchVerdict "pass" (firstLine result.toList)

/-- `^REVIEW_STAGE:\s*(\S+)\s*$`. -/
def matchScope (text : Text) : Option (Text × Text) :=
  (afterWord "review_stage:".toList text).bind fun rest =>
    let (token, tail) := (stripLeft rest).span fun c => !isSpace c
    if token.isEmpty || !endsLine tail then none else some (token, tail)

/-- `^CHECK:\s*([a-z_]+)\s*\|\s*(\S.*)$`. -/
def matchCheck (text : Text) : Option ((Text × Text) × Text) :=
  (afterWord "check:".toList text).bind fun rest =>
    let (category, rest) := (stripLeft rest).span fun c => isLetter c || c == '_'
    if category.isEmpty then none
    else
      match stripLeft rest with
      | '|' :: rest => (restOfLine rest).map fun (evidence, rest) => ((category, evidence), rest)
      | _ => none

def reviewCategories (text : Text) : List Text := (findAll matchCheck text).map fun c => lower c.1

def coversChecks (categories required : List Text) : Bool :=
  categories.length == required.length && categories.all required.contains &&
    required.all categories.contains

def reviewVerdict (result : String) : Option ReviewOutcome :=
  let first := firstLine result.toList
  if reviewPassed result then some .pass
  else if matchVerdict "fail" first then some .fail
  else if matchVerdict "blocked" first then some .blocked
  else none

def reviewOutcome (result : String) (stage : ReviewStage) : ReviewOutcome :=
  let text := result.toList
  match reviewVerdict result with
  | none => .incomplete
  | some verdict =>
    match (findAll matchScope text).head? with
    | none => .incomplete
    | some scope =>
      if lower scope ≠ stage.value.toList then .incomplete
      else if verdict = .blocked then
        if (fields ["prerequisite_blocker"] text).isEmpty then .incomplete else .blocked
      else if coversChecks (reviewCategories text) ((reviewChecks stage).map String.toList) then
        let blockers := fields ["blocker"] text
        if verdict = .fail ∧ blockers = [] then .incomplete
        else if verdict = .pass ∧ blockers ≠ [] then .incomplete
        else verdict
      else .incomplete

def completeReport (verdict : String) (stage : ReviewStage) : String :=
  String.intercalate "\n" ([verdict, "REVIEW_STAGE: " ++ stage.value] ++
    (reviewChecks stage).map fun category => "CHECK: " ++ category ++ " | verified")

example : reviewOutcome (completeReport "PASS" .reviewBacktest) .reviewBacktest = .pass := by
  decide +kernel

/-- The blocking findings `_complete_review` hands back to the author. -/
def reviewFindings (report : String) : List String :=
  (fields ["blocker", "prerequisite_blocker"] report.toList).map String.ofList

def userActions (report : String) : List String :=
  (fields ["user_action_required"] report.toList).map String.ofList

/-- `^#\s+(?:IMPROVE|KEEP)\s*$` on a first line. -/
def matchRecommendation (line : Text) : Bool :=
  match line with
  | '#' :: rest =>
    rest.head?.any isSpace &&
      ["improve", "keep"].any fun word =>
        (afterWord word.toList (stripLeft rest)).any fun tail => (stripLeft tail).isEmpty
  | _ => false

/-- `^OPTIMIZATION_STAGE:\s*post_backtest\s*$`. -/
def matchOptimizationStage (text : Text) : Option (Unit × Text) :=
  (afterWord "optimization_stage:".toList text).bind fun rest =>
    (afterWord "post_backtest".toList (stripLeft rest)).bind fun tail =>
      if endsLine tail then some ((), tail) else none

def optimizationReportComplete (result : String) : Bool :=
  let text := result.toList
  matchRecommendation (firstLine text) && !(findAll matchOptimizationStage text).isEmpty &&
    ["diagnosis", "proposed_change", "overfit_guard", "risk", "expected_evidence"].all fun label =>
      !(fields [label] text).isEmpty

/-- `[a-z0-9]+(?:-[a-z0-9]+)*` over one class of letters. -/
def isHyphenated (letter : Char → Bool) (text : Text) : Bool :=
  (text.splitOn '-').all fun part => !part.isEmpty && part.all fun c => letter c || c.isDigit

def issueId (detail : Text) : Option Text :=
  match strip detail with
  | '[' :: rest =>
    let (body, tail) := rest.span (· != ']')
    if tail.isEmpty || !isHyphenated isLetter body then none else some (lower body)
  | _ => none

/-- The key a finding is counted under. `fingerprint` stands for the shortened SHA-256 of the
normalized finding, under which findings without an identifier are counted. -/
def issueKey (fingerprint : String → String) (stage detail : String) : String :=
  match issueId detail.toList with
  | some key => stage ++ ":" ++ String.ofList key
  | none => stage ++ ":legacy:" ++ fingerprint detail

def retryableMarkers : List String :=
  ["usage limit", "rate limit", "too many requests", "try again at", "temporarily unavailable",
   "service unavailable", "overloaded"]

/-- `_is_retryable_codex_error`, on the type name of an exception and its message. -/
def isRetryableCodexError (reason : String) : Bool :=
  let detail := lower reason.toList
  retryableMarkers.any fun marker => contains marker.toList detail

def isKebabCase (text : String) : Bool := isHyphenated Char.isLower text.toList

def isSemanticVersion (text : String) : Bool :=
  let parts := text.toList.splitOn '.'
  parts.length == 3 && parts.all fun part => !part.isEmpty && part.all isDecimal

end ChainQuantStudio.Studio
