import ChainQuantStudio.Library.Columns
import ChainQuantStudio.Library.Dict
import ChainQuantStudio.Library.Json
import ChainQuantStudio.Library.PythonText

/-!
# The user spec

A Markdown document is scanned twice. One scan collects the sections under their numbered headings,
the other collects every bullet with a name and a value, wherever it stands; a later bullet of a
name replaces an earlier one.
-/

namespace ChainQuantStudio.Specs

open PythonText

structure UserSpecError where
  message : String
  deriving DecidableEq, Repr

/-- `str.lower`, and the SHA-256 of a text as hexadecimal digits. -/
structure Platform where
  lower : Text → Text
  sha256 : Text → String

def backtick : Char := Char.ofNat 96

def clean (value : Text) : Text :=
  let value := strip value
  if 2 ≤ value.length ∧ value.head? = some backtick ∧ value.getLast? = some backtick then
    strip (value.drop 1).dropLast
  else value

/-- `str.splitlines` of a text without carriage returns, which reading a file translates. -/
def splitlines (text : Text) : List Text :=
  let lines := text.splitOnP isLineEnd
  if lines.getLast? = some [] then lines.dropLast else lines

def joinLines (lines : List Text) : Text := List.intercalate ['\n'] lines

def rstrip (text : Text) : Text := (stripLeft text.reverse).reverse

/-- The groups of `FIELD` in a stripped line, the first with the white space before it. -/
def fieldMatch : Text → Option (Text × Text)
  | '-' :: rest =>
    let name := rest.takeWhile (· ≠ ':')
    match rest.dropWhile (· ≠ ':') with
    | _ :: value =>
      if 2 ≤ name.length ∧ name.head?.any isSpace then some (name, strip value) else none
    | [] => none
  | _ => none

/-- The group of `HEADING` in a stripped line. -/
def headingMatch : Text → Option Text
  | '#' :: '#' :: rest =>
    let number := stripLeft rest
    match number.dropWhile isDecimal with
    | '.' :: title =>
      if rest.head?.any isSpace ∧ number.head?.any isDecimal ∧ title.head?.any isSpace then
        some (strip title)
      else none
    | _ => none
  | _ => none

/-- `SAFE_ID`. -/
def isSafeId (text : Text) : Bool :=
  (text.splitOnP (· == '-')).all fun part =>
    !part.isEmpty && part.all fun c => ('a' ≤ c && c ≤ 'z') || ('0' ≤ c && c ≤ '9')

/-- `SEMVER`. -/
def isSemver (text : Text) : Bool :=
  let parts := text.splitOnP (· == '.')
  parts.length == 3 && parts.all fun part => !part.isEmpty && part.all isDecimal

def insidePlaceholder (c : Char) : Bool := c ≠ '<' ∧ c ≠ '>' ∧ c ≠ '\r' ∧ c ≠ '\n'

/-- `PLACEHOLDER` at the start of a text. -/
def startsPlaceholder : Text → Bool
  | '<' :: rest =>
    !(rest.takeWhile insidePlaceholder).isEmpty && (rest.dropWhile insidePlaceholder).head? == some '>'
  | _ => false

/-- `PLACEHOLDER.search`. -/
def hasPlaceholder (text : Text) : Bool := text.tails.any startsPlaceholder

variable (p : Platform)

/-- One turn of the loop of `_sections`. -/
def sectionStep (state : Option Text × List (Text × List Text)) (rawLine : Text) :
    Option Text × List (Text × List Text) :=
  match headingMatch (strip rawLine) with
  | some title =>
    let current := p.lower (strip title)
    (some current, Dict.set state.2 current [])
  | none =>
    match state.1 with
    | none => state
    | some current =>
      (some current, Dict.set state.2 current ((Dict.get? state.2 current).getD [] ++ [rstrip rawLine]))

def sections (text : Text) : List (Text × Text) :=
  ((splitlines text).foldl (sectionStep p) (none, [])).2.map fun entry =>
    (entry.1, strip (joinLines entry.2))

/-- One turn of the loop of `_field_map`. -/
def fieldStep (values : List (Text × Text)) (rawLine : Text) : List (Text × Text) :=
  match fieldMatch (strip rawLine) with
  | some (name, value) => Dict.set values (p.lower (strip name)) (clean value)
  | none => values

def fieldMap (text : Text) : List (Text × Text) := (splitlines text).foldl (fieldStep p) []

def require (fields : List (Text × Text)) (key : String) : Except UserSpecError Text :=
  let value := strip ((Dict.get? fields key.toList).getD [])
  if value = [] ∨ hasPlaceholder value then .error ⟨"missing or placeholder field: " ++ key⟩
  else .ok value

/-- A section without its quotations. -/
def sectionContent (sections : List (Text × Text)) (key : String) : Text :=
  let value := strip ((Dict.get? sections key.toList).getD [])
  strip (joinLines ((splitlines value).filter fun line => (stripLeft line).head? ≠ some '>'))

/-- `_section`. -/
def requireSection (sections : List (Text × Text)) (key : String) : Except UserSpecError Text :=
  let content := sectionContent sections key
  if content = [] ∨ hasPlaceholder content then .error ⟨"missing or placeholder section: " ++ key⟩
  else .ok content

structure StructuredFields where
  artifactType : Text
  name : Text
  stableId : Text
  version : Text
  horizon : Text
  backtestRequired : Bool
  venue : Text
  market : Text
  symbolsOrUniverse : Text
  timeframes : List Text
  evaluationEvent : Text
  duplicateResetRule : Text
  missingStaleGapBehavior : Text
  requiredData : Text
  contextOnlyData : Text
  deriving DecidableEq, Repr

structure UserSpec extends StructuredFields where
  sourcePath : String
  sourceSha256 : String
  purpose : Text
  exactBehavior : Text
  acceptanceExamples : Text
  openQuestions : Text
  deriving DecidableEq, Repr

def timeframesOf (raw : Text) : List Text :=
  (((raw.splitOnP fun c => c == ',' || c == '/').filter (strip · ≠ [])).map fun item =>
    p.lower (strip item)).eraseDups

def oneOf (value : Text) (allowed : List String) : Bool := allowed.any (·.toList = value)

/-- `if not condition: raise UserSpecError(message)`. -/
def check (condition : Bool) (message : String) : Except UserSpecError Unit :=
  if condition then .ok () else .error ⟨message⟩

def loadUserSpec (path : String) (text : Text) : Except UserSpecError UserSpec := do
  let fields := fieldMap p text
  let sections := sections p text
  let schema ← require fields "spec schema"
  check (oneOf schema ["chain-user-spec/v1"]) "Spec schema must be chain-user-spec/v1"
  let artifactType ← require fields "artifact type"
  check (oneOf (p.lower artifactType) ["signal", "strategy"])
    "Artifact type must be signal or strategy"
  let stableId ← require fields "stable id"
  check (isSafeId stableId) "Stable ID must be lowercase kebab-case"
  let version ← require fields "version"
  check (isSemver version) "Version must be semantic major.minor.patch"
  let horizon ← require fields "horizon"
  check (oneOf (p.lower horizon) ["short", "medium", "long"]) "Horizon must be short, medium, or long"
  let backtest ← require fields "backtest required"
  check (oneOf (p.lower backtest) ["yes", "no"]) "Backtest required must be yes or no"
  let utc ← require fields "utc boundary"
  check (oneOf (p.lower utc) ["yes", "true"]) "UTC boundary must be yes"
  let rawTimeframes ← require fields "timeframes"
  check (timeframesOf p rawTimeframes ≠ []) "Timeframes must not be empty"
  let name ← require fields "name"
  let venue ← require fields "venue"
  let market ← require fields "market"
  let symbolsOrUniverse ← require fields "symbols or universe"
  let evaluationEvent ← require fields "evaluation event"
  let purpose ← requireSection sections "purpose"
  let exactBehavior ← requireSection sections "exact behavior"
  let duplicateResetRule ← require fields "duplicate/reset rule"
  let missingStaleGapBehavior ← require fields "missing/stale/gap behavior"
  let requiredData ← require fields "required data"
  let contextOnlyData ← require fields "context-only data"
  let acceptanceExamples ← requireSection sections "acceptance examples"
  let openQuestions ← requireSection sections "open questions"
  return { sourcePath := path, sourceSha256 := p.sha256 text,
           artifactType := p.lower artifactType, name, stableId, version,
           horizon := p.lower horizon, backtestRequired := oneOf (p.lower backtest) ["yes"],
           venue, market, symbolsOrUniverse, timeframes := timeframesOf p rawTimeframes,
           evaluationEvent, purpose, exactBehavior, duplicateResetRule, missingStaleGapBehavior,
           requiredData, contextOnlyData, acceptanceExamples, openQuestions }

structure DagNode where
  nodeId : String
  owner : String
  kind : String
  requires : List String
  deriving DecidableEq, Repr

/-- `WorkflowDag.research` without an optimization. -/
def research (backtestRequired : Bool) : List DagNode :=
  [⟨"strategy", "strategy", "agent", []⟩,
   ⟨"review_implementation", "review", "agent", ["strategy"]⟩,
   ⟨"implementation_approval", "manager", "approval", ["review_implementation"]⟩] ++
  (if backtestRequired then
    [⟨"dataset", "data_service", "service", ["implementation_approval"]⟩,
     ⟨"backtest", "backtest", "agent", ["dataset"]⟩,
     ⟨"review_backtest", "review", "agent", ["backtest"]⟩,
     ⟨"backtest_approval", "manager", "approval", ["review_backtest"]⟩]
   else []) ++
  [⟨"live_approval", "manager", "approval",
    [if backtestRequired then "backtest_approval" else "implementation_approval"]⟩]

def DagNode.asDict (node : DagNode) : Json :=
  .obj [("node_id", .str node.nodeId), ("owner", .str node.owner), ("kind", .str node.kind),
    ("requires", .arr (node.requires.map .str))]

def approvalGates (backtestRequired : Bool) : List String :=
  ["implementation_approval"] ++ (if backtestRequired then ["backtest_approval"] else []) ++
    ["live_approval"]

def textJson (text : Text) : Json := .str (String.ofList text)

def UserSpec.normalized (spec : UserSpec) : Json :=
  .obj [("schema", .str "chain-normalized-spec/v1"), ("source_sha256", .str spec.sourceSha256),
    ("artifact", .obj [("kind", textJson spec.artifactType), ("name", textJson spec.name),
      ("stable_id", textJson spec.stableId), ("version", textJson spec.version),
      ("horizon", textJson spec.horizon), ("backtest_required", .bool spec.backtestRequired)]),
    ("market", .obj [("venue", textJson spec.venue), ("market", textJson spec.market),
      ("symbols_or_universe", textJson spec.symbolsOrUniverse),
      ("timeframes", .arr (spec.timeframes.map textJson)),
      ("evaluation_event", textJson spec.evaluationEvent), ("utc_boundary", .bool true)]),
    ("behavior", .obj [("purpose", textJson spec.purpose),
      ("exact_rules", textJson spec.exactBehavior),
      ("duplicate_reset_rule", textJson spec.duplicateResetRule),
      ("missing_stale_gap_behavior", textJson spec.missingStaleGapBehavior),
      ("required_data", textJson spec.requiredData),
      ("context_only_data", textJson spec.contextOnlyData),
      ("acceptance_examples", textJson spec.acceptanceExamples),
      ("open_questions", textJson spec.openQuestions)]),
    ("workflow", .obj [("nodes", .arr ((research spec.backtestRequired).map DagNode.asDict)),
      ("approval_gates", .arr ((approvalGates spec.backtestRequired).map .str))]),
    ("safety", .obj [("public_market_data_only", .bool true),
      ("authenticated_exchange_api", .bool false), ("order_execution", .bool false),
      ("automatic_parameter_promotion", .bool false), ("fail_closed", .bool true)])]

end ChainQuantStudio.Specs
