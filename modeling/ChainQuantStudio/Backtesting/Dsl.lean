import ChainQuantStudio.Library.Columns
import ChainQuantStudio.Library.FloatArith
import Mathlib.Data.List.Dedup
import Mathlib.Data.List.Sort
import Mathlib.Data.String.Basic

/-!
# The feature DSL

A compiled graph is an ordered list of nodes over source columns. The compiler checks operators,
arities, parameters and the two kinds of columns; the evaluator computes one column a node. Floats
are any `FloatArith`, and every exception the evaluator can meet is a value of `EvalError`.
-/

namespace ChainQuantStudio.Backtesting.Dsl

open Columns FloatArith

variable {F : Type} [FloatArith F]

inductive Scalar (F : Type)
  | none
  | bool (value : Bool)
  | num (value : F)
  deriving DecidableEq, Repr

abbrev Column (F : Type) := List (Scalar F)

inductive FeatureOperator
  | rollingMean
  | rollingRatio
  | robustZscore
  | pctChange
  | minimum
  | maximum
  | greaterEqual
  | lessEqual
  | all
  | any
  | abs
  | log1p
  deriving DecidableEq, Repr

namespace FeatureOperator

def text : FeatureOperator → String
  | rollingMean => "rolling_mean"
  | rollingRatio => "rolling_ratio"
  | robustZscore => "robust_zscore"
  | pctChange => "pct_change"
  | minimum => "minimum"
  | maximum => "maximum"
  | greaterEqual => "greater_equal"
  | lessEqual => "less_equal"
  | all => "all"
  | any => "any"
  | abs => "abs"
  | log1p => "log1p"

def unary : FeatureOperator → Bool
  | rollingMean | rollingRatio | robustZscore | pctChange | greaterEqual | lessEqual | abs
  | log1p => true
  | minimum | maximum | all | any => false

def windowed : FeatureOperator → Bool
  | rollingMean | rollingRatio | robustZscore | pctChange => true
  | _ => false

def comparison : FeatureOperator → Bool
  | greaterEqual | lessEqual => true
  | _ => false

def combinator : FeatureOperator → Bool
  | all | any => true
  | _ => false

def yieldsBoolean : FeatureOperator → Bool
  | greaterEqual | lessEqual | all | any => true
  | _ => false

end FeatureOperator

structure FeatureNode (F : Type) where
  featureId : String
  operator : FeatureOperator
  inputs : List String
  windowParameter : Option String := none
  thresholdParameter : Option String := none
  constant : Option F := none
  deriving DecidableEq, Repr

structure CompiledFeatureGraph (F : Type) where
  sourceColumns : List String
  nodes : List (FeatureNode F)
  signalCondition : String
  deriving DecidableEq, Repr

structure SpecValidationError where
  message : String
  deriving DecidableEq, Repr

inductive Kind
  | numeric
  | boolean
  deriving DecidableEq, Repr

/-- `SAFE_ID.fullmatch`. -/
def safeId (value : String) : Bool :=
  let plain (c : Char) : Bool := c.isLower || c.isDigit
  match value.toList with
  | [] => false
  | first :: rest =>
    plain first && rest.all (fun c => plain c || c == '.' || c == '_' || c == '-') &&
      1 ≤ rest.length && rest.length ≤ 63

def invalid {α : Type} (message : String) : Except SpecValidationError α := .error ⟨message⟩

def validateArity (node : FeatureNode F) : Except SpecValidationError Unit :=
  let text := node.operator.text
  if node.operator.unary ∧ node.inputs.length ≠ 1 then
    invalid s!"{text} requires exactly one input"
  else if (node.operator = .minimum ∨ node.operator = .maximum) ∧ node.inputs.length < 2 then
    invalid s!"{text} requires at least two inputs"
  else if node.operator.combinator ∧ node.inputs.length < 1 then
    invalid s!"{text} requires at least one input"
  else .ok ()

def validateWindow (node : FeatureNode F) (parameterIds : List String) :
    Except SpecValidationError Unit :=
  let featureId := node.featureId
  if node.operator.windowed then
    if node.windowParameter.any (· ∈ parameterIds) then .ok ()
    else invalid s!"feature {featureId} requires an allowlisted window parameter"
  else if node.windowParameter.isSome then
    invalid s!"feature {featureId} cannot use a window parameter"
  else .ok ()

def validateThreshold (node : FeatureNode F) (parameterIds : List String) :
    Except SpecValidationError Unit :=
  let featureId := node.featureId
  if node.operator.comparison then
    if node.thresholdParameter.isSome = node.constant.isSome then
      invalid s!"feature {featureId} requires one threshold parameter or constant"
    else if node.thresholdParameter.any (· ∉ parameterIds) then
      invalid s!"feature {featureId} has an unknown threshold"
    else .ok ()
  else if node.thresholdParameter.isSome ∨ node.constant.isSome then
    invalid s!"feature {featureId} cannot use a threshold"
  else .ok ()

def validateNode (node : FeatureNode F) (parameterIds : List String) :
    Except SpecValidationError Unit := do
  validateArity node
  validateWindow node parameterIds
  validateThreshold node parameterIds

def inputKind (node : FeatureNode F) : Kind :=
  if node.operator.combinator then .boolean else .numeric

def outputKind (node : FeatureNode F) : Kind :=
  if node.operator.yieldsBoolean then .boolean else .numeric

/-- One turn of the loop of `compile_feature_graph`. -/
def compileNode (parameterIds : List String) (available : Mapping Kind) (node : FeatureNode F) :
    Except SpecValidationError (Mapping Kind) :=
  let featureId := node.featureId
  if !safeId featureId || (available.lookup featureId).isSome then
    invalid s!"invalid or duplicate feature id: {featureId}"
  else if node.inputs = [] ∨ node.inputs.any (fun name => (available.lookup name).isNone) then
    invalid s!"feature {featureId} has an unknown input"
  else do
    validateNode node parameterIds
    let kinds := node.inputs.filterMap fun name => available.lookup name
    if node.operator.combinator ∧ kinds.any (· ≠ .boolean) then
      invalid s!"feature {featureId} requires Boolean inputs"
    else if ¬ node.operator.combinator ∧ kinds.any (· ≠ .numeric) then
      invalid s!"feature {featureId} requires numeric inputs"
    else .ok ((featureId, outputKind node) :: available)

def compileFeatureGraph (sourceColumns : List String) (nodes : List (FeatureNode F))
    (signalCondition : String) (parameterIds : List String) :
    Except SpecValidationError (CompiledFeatureGraph F) :=
  if sourceColumns = [] ∨ sourceColumns.any (fun name => !safeId name) then
    invalid "source_columns must contain safe unique identifiers"
  else if ¬ sourceColumns.Nodup then invalid "source_columns must be unique"
  else do
    let available ← nodes.foldlM (compileNode parameterIds)
      (sourceColumns.map fun source => (source, Kind.numeric))
    match available.lookup signalCondition with
    | none => invalid "signal condition must reference a source or feature"
    | some .numeric => invalid "signal condition must reference a Boolean feature"
    | some .boolean => .ok { sourceColumns, nodes, signalCondition }

omit [FloatArith F] in
theorem compileNode_eq_ok {parameterIds : List String} {available next : Mapping Kind}
    {node : FeatureNode F} (h : compileNode parameterIds available node = .ok next) :
    available.lookup node.featureId = none ∧ node.inputs ≠ [] ∧
      (∀ name ∈ node.inputs, available.lookup name = some (inputKind node)) ∧
      validateNode node parameterIds = .ok () ∧
      next = (node.featureId, outputKind node) :: available := by
  unfold compileNode at h
  simp only [invalid] at h
  by_cases hid : (!safeId node.featureId || (available.lookup node.featureId).isSome) = true
  · rw [if_pos hid] at h
    cases h
  by_cases hin : node.inputs = [] ∨
      (node.inputs.any fun name => (available.lookup name).isNone) = true
  · rw [if_neg hid, if_pos hin] at h
    cases h
  rw [if_neg hid, if_neg hin] at h
  obtain ⟨_, hvalid, hkinds⟩ := bind_eq_ok.mp h
  split_ifs at hkinds with hbool hnum
  rw [Bool.or_eq_true, not_or, Option.not_isSome_iff_eq_none] at hid
  rw [not_or] at hin
  refine ⟨hid.2, hin.1, fun name hname => ?_, hvalid, (Except.ok.inj hkinds).symm⟩
  have hknown : available.lookup name ≠ none := by
    intro hnone
    exact hin.2 (List.any_eq_true.mpr ⟨name, hname, by simp [hnone]⟩)
  obtain ⟨kind, hkind⟩ := Option.ne_none_iff_exists'.mp hknown
  have hmem : kind ∈ node.inputs.filterMap fun name => available.lookup name :=
    List.mem_filterMap.mpr ⟨name, hname, hkind⟩
  rw [hkind, inputKind]
  by_cases hc : node.operator.combinator = true
  · by_contra hne
    refine hbool ⟨hc, List.any_eq_true.mpr ⟨kind, hmem, ?_⟩⟩
    simpa [hc] using hne
  · by_contra hne
    refine hnum ⟨hc, List.any_eq_true.mpr ⟨kind, hmem, ?_⟩⟩
    simpa [hc] using hne

omit [FloatArith F] in
theorem isSome_lookup_foldlM_compileNode {parameterIds : List String}
    {nodes : List (FeatureNode F)} {available after : Mapping Kind} {name : String}
    (h : nodes.foldlM (compileNode parameterIds) available = .ok after) :
    (after.lookup name).isSome ↔
      (available.lookup name).isSome ∨ name ∈ nodes.map FeatureNode.featureId := by
  induction nodes generalizing available with
  | nil =>
    obtain rfl : available = after := Except.ok.inj h
    simp
  | cons node nodes ih =>
    rw [List.foldlM_cons] at h
    obtain ⟨next, hnext, hrest⟩ := bind_eq_ok.mp h
    obtain ⟨-, -, -, -, rfl⟩ := compileNode_eq_ok hnext
    rw [ih hrest, List.lookup_cons]
    by_cases hid : name = node.featureId
    · simp [hid]
    · simp [beq_false_of_ne hid, hid]

omit [FloatArith F] in
theorem compileFeatureGraph_eq_ok {sourceColumns parameterIds : List String}
    {nodes : List (FeatureNode F)} {signalCondition : String} {graph : CompiledFeatureGraph F}
    (h : compileFeatureGraph sourceColumns nodes signalCondition parameterIds = .ok graph) :
    graph = { sourceColumns, nodes, signalCondition } ∧
      (sourceColumns ≠ [] ∧ sourceColumns.Nodup) ∧
      ∃ available, nodes.foldlM (compileNode parameterIds)
        (sourceColumns.map fun source => (source, Kind.numeric)) = .ok available ∧
        available.lookup signalCondition = some .boolean := by
  unfold compileFeatureGraph at h
  simp only [invalid] at h
  split_ifs at h with hsafe hnodup
  obtain ⟨available, hfold, hsignal⟩ := bind_eq_ok.mp h
  split at hsignal
  · simp at hsignal
  · simp at hsignal
  · rename_i hlookup
    rw [not_or] at hsafe
    exact ⟨(Except.ok.inj hsignal).symm, ⟨hsafe.1, hnodup⟩, available, hfold, hlookup⟩

theorem lookup_sources {sourceColumns : List String} {name : String} :
    ((sourceColumns.map fun source => (source, Kind.numeric)).lookup name).isSome ↔
      name ∈ sourceColumns := by
  induction sourceColumns with
  | nil => simp
  | cons source sources ih =>
    by_cases h : name = source
    · simp [h]
    · simp [List.lookup_cons, beq_false_of_ne h, h, ih]

inductive EvalError
  | valueError (message : String)
  | keyError (key : String)
  | indexError
  | assertionError
  | zeroDivisionError
  | overflowError
  | stopIteration
  deriving DecidableEq, Repr

def divide (a b : F) : Except EvalError F :=
  if isZero b then .error .zeroDivisionError else .ok (div a b)

def divideInt (a : F) (b : ℤ) : Except EvalError F :=
  if b = 0 then .error .zeroDivisionError else .ok (div a (ofRat b))

def find {α : Type} (m : Mapping α) (key : String) : Except EvalError α :=
  match m.lookup key with
  | some value => .ok value
  | none => .error (.keyError key)

def item {α : Type} (l : List α) (index : ℕ) : Except EvalError α :=
  match l[index]? with
  | some value => .ok value
  | none => .error .indexError

def windowBars (node : FeatureNode F) (parameters : Mapping F) (minutes : ℤ) :
    Except EvalError ℕ :=
  match node.windowParameter with
  | none => .error .assertionError
  | some parameter => do
    let durationHours ← find parameters parameter
    let raw ← divideInt (mul durationHours (ofRat 60)) minutes
    match FloatArith.round raw with
    | none => .error .overflowError
    | some bars =>
      if le durationHours (ofRat 0) || bars < 1 || !isClose raw (ofRat bars) then
        let hours := FloatArith.repr durationHours
        .error (.valueError s!"{parameter}={hours}h does not align to {minutes}m candles")
      else .ok bars.toNat

def numeric : Scalar F → Option F
  | .num value => if isFinite value then some value else none
  | _ => none

def sorted (values : List F) : List F := values.insertionSort fun a b => lt b a = false

/-- `values[bars // 2]`, or the mean of the two middle entries. -/
def middle (values : List F) (bars : ℕ) : Except EvalError F :=
  if bars % 2 = 1 then item values (bars / 2)
  else do
    let below ← item values (bars / 2 - 1)
    let above ← item values (bars / 2)
    .ok (div (add below above) (ofRat 2))

def robustZscore (clean : List F) (bars : ℕ) (current : Option F) :
    Except EvalError (Scalar F) := do
  let median ← middle (sorted clean) bars
  let mad ← middle (sorted (clean.map fun value => FloatArith.abs (sub value median))) bars
  match current with
  | none => .ok .none
  | some current =>
    if isZero mad then .ok .none
    else return .num (← divide (sub current median) (mul (ofRat (14826 / 10000)) mad))

def windowStatistic (operator : FeatureOperator) (clean : List F) (bars : ℕ)
    (current : Option F) : Except EvalError (Scalar F) :=
  if operator = .pctChange then do
    let baseline ← item clean 0
    match current with
    | none => .ok .none
    | some current =>
      if isZero baseline then .ok .none
      else return .num (← divide (sub current baseline) baseline)
  else do
    let mean ← divideInt (sum clean) bars
    if operator = .rollingMean then .ok (.num mean)
    else if operator = .rollingRatio then
      match current with
      | none => .ok .none
      | some current =>
        if isZero mean then .ok .none else return .num (← divide current mean)
    else robustZscore clean bars current

/-- One turn of the loop of `_windowed`: the window ends before the current row. -/
def windowedAt (operator : FeatureOperator) (source : Column F) (bars : ℕ)
    (row : Scalar F × ℕ) : Except EvalError (Scalar F) :=
  let (current, index) := row
  let history := (slice source (index - bars) index).map numeric
  if history.length ≠ bars ∨ history.any Option.isNone then .ok .none
  else windowStatistic operator (history.filterMap id) bars (numeric current)

def windowed (operator : FeatureOperator) (source : Column F) (bars : ℕ) :
    Except EvalError (Column F) :=
  source.zipIdx.mapM (windowedAt operator source bars)

def threshold (node : FeatureNode F) (parameters : Mapping F) : Except EvalError F :=
  match node.thresholdParameter with
  | some parameter => find parameters parameter
  | none =>
    match node.constant with
    | some constant => .ok constant
    | none => .error .assertionError

def compare (operator : FeatureOperator) (threshold : F) (value : Scalar F) : Scalar F :=
  match numeric value with
  | none => .bool false
  | some value =>
    .bool (if operator = .greaterEqual then le threshold value else le value threshold)

def transform (operator : FeatureOperator) (value : Scalar F) : Scalar F :=
  match numeric value with
  | none => .none
  | some value =>
    if operator = .log1p ∧ lt value (ofRat 0) = true then .none
    else .num (if operator = .abs then FloatArith.abs value else FloatArith.log1p value)

/-- Python's `min` of a nonempty sequence keeps the first of equal entries, and so does `max`. -/
def extremum (better : F → F → Bool) : List F → Except EvalError F
  | [] => .error (.valueError "iterable argument is empty")
  | first :: rest =>
    .ok (rest.foldl (fun best value => if better value best then value else best) first)

def combineAt (operator : FeatureOperator) (inputs : List (Column F)) (index : ℕ) :
    Except EvalError (Scalar F) := do
  let row ← inputs.mapM fun column => item column index
  let numericRow := row.filterMap numeric
  if numericRow.length ≠ row.length then .ok .none
  else if operator = .minimum then
    return .num (← extremum lt numericRow)
  else
    return .num (← extremum (fun value best => lt best value) numericRow)

/-- `bool(value)`. -/
def truth : Scalar F → Bool
  | .none => false
  | .bool value => value
  | .num value => !isZero value

/-- `all(...)` stops at the first false entry and `any(...)` at the first true one. -/
def quantifyAt (stop : Bool) (index : ℕ) : List (Column F) → Except EvalError Bool
  | [] => .ok (!stop)
  | column :: columns => do
    let value ← item column index
    if truth value = stop then .ok stop else quantifyAt stop index columns

def evaluateNode (node : FeatureNode F) (inputs : List (Column F)) (parameters : Mapping F)
    (minutes : ℤ) : Except EvalError (Column F) := do
  let source ← item inputs 0
  let size := source.length
  match node.operator with
  | .rollingMean | .rollingRatio | .robustZscore | .pctChange =>
    let bars ← windowBars node parameters minutes
    windowed node.operator source bars
  | .greaterEqual | .lessEqual =>
    let threshold ← threshold node parameters
    .ok (source.map (compare node.operator threshold))
  | .abs | .log1p => .ok (source.map (transform node.operator))
  | .minimum | .maximum => (List.range size).mapM (combineAt node.operator inputs)
  | .all => (List.range size).mapM fun index => return .bool (← quantifyAt false index inputs)
  | .any => (List.range size).mapM fun index => return .bool (← quantifyAt true index inputs)

/-- One turn of the loop of `evaluate`. -/
def evaluateInto (parameters : Mapping F) (minutes : ℤ) (values : Mapping (Column F))
    (node : FeatureNode F) : Except EvalError (Mapping (Column F)) := do
  let inputs ← node.inputs.mapM (find values)
  let column ← evaluateNode node inputs parameters minutes
  .ok ((node.featureId, column) :: values)

namespace CompiledFeatureGraph

def missing (graph : CompiledFeatureGraph F) (columns : Mapping (List F)) : List String :=
  graph.sourceColumns.filter fun name => (columns.lookup name).isNone

/-- The values the loop of `evaluate` starts from. -/
def sources (graph : CompiledFeatureGraph F) (columns : Mapping (List F)) : Mapping (Column F) :=
  (columns.filter fun entry => entry.1 ∈ graph.sourceColumns).map fun entry =>
    (entry.1, entry.2.map Scalar.num)

def evaluate (graph : CompiledFeatureGraph F) (columns : Mapping (List F))
    (parameters : Mapping F) (minutes : ℤ) : Except EvalError (Mapping (Column F)) :=
  let lengths := (columns.map fun entry => entry.2.length).dedup
  if lengths.length ≠ 1 then
    .error (.valueError "Source columns must be non-empty and equally sized")
  else
    let missing := graph.missing columns
    if missing ≠ [] then
      .error (.valueError ("Missing source columns: " ++
        ", ".intercalate (missing.insertionSort (· ≤ ·))))
    else graph.nodes.foldlM (evaluateInto parameters minutes) (graph.sources columns)

end CompiledFeatureGraph

/-- The last entry that the evaluation of the first `stop` rows gives the signal condition. -/
def replayAt (graph : CompiledFeatureGraph F) (columns : Mapping (List F))
    (parameters : Mapping F) (minutes : ℤ) (stop : ℕ) : Except EvalError (Scalar F) := do
  let evaluated ← graph.evaluate (truncate stop columns) parameters minutes
  let signal ← find evaluated graph.signalCondition
  match signal.getLast? with
  | some value => .ok value
  | none => .error .indexError

def replayPrefixes (graph : CompiledFeatureGraph F) (columns : Mapping (List F))
    (parameters : Mapping F) (minutes : ℤ) : Except EvalError (Column F) :=
  match columns with
  | [] => .error .stopIteration
  | (_, first) :: _ =>
    ((List.range first.length).map (· + 1)).mapM (replayAt graph columns parameters minutes)

def onsetFrom (previous : Bool) : Column F → List Bool
  | [] => []
  | value :: values => (truth value && !previous) :: onsetFrom (truth value) values

def onset (values : Column F) : List Bool := onsetFrom false values

end ChainQuantStudio.Backtesting.Dsl
