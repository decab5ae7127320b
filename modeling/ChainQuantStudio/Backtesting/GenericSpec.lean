import ChainQuantStudio.Backtesting.Dsl

/-!
# Generic backtest specifications

The schema of a feature-DSL backtest and the checks that a specification passes before any engine
sees it. A specification carries the proof that it passed.
-/

namespace ChainQuantStudio.Backtesting

open Dsl FloatArith

inductive BacktestHorizon
  | shortTerm
  | mediumTerm
  | longTerm
  deriving DecidableEq, Repr

structure StrategyContract where
  strategyId : String
  horizon : BacktestHorizon
  direction : String
  deriving DecidableEq, Repr

structure SafetyContract where
  signalOnly : Bool
  allowExecution : Bool
  allowAuthenticatedExchangeApi : Bool
  autoPromoteParameters : Bool
  deriving DecidableEq, Repr

structure Datetime where
  wall : ℤ
  utcOffset : Option ℤ
  deriving DecidableEq, Repr

structure GenericDataContract where
  provider : String
  catalogPath : String
  start : Datetime
  «end» : Datetime
  timezone : String
  timeframes : List String
  sourceColumns : List String
  triggerInputs : List String
  supplementalInputs : List String
  closedCandlesOnly : Bool
  publicOnly : Bool
  deriving DecidableEq, Repr

structure GenericUniverseContract where
  kind : String
  symbols : List String
  rankingDays : ℤ
  topVolume : ℤ
  topGainers : ℤ
  excludeBases : List String
  deriving DecidableEq, Repr

structure SearchParameter (F : Type) where
  parameterId : String
  values : List F
  deriving DecidableEq, Repr

structure SignalContract where
  condition : String
  eventPolicy : String
  cooldownSeconds : ℤ
  deriving DecidableEq, Repr

structure LabelContract (F : Type) where
  operator : String
  highColumn : String
  lowColumn : String
  closeColumn : String
  horizonHours : ℤ
  threshold : F
  deriving DecidableEq, Repr

structure ValidationContract (F : Type) where
  method : String
  selectionFraction : F
  holdoutFraction : F
  primaryMetric : String
  maxSignalsPerSymbolDay : F
  deriving DecidableEq, Repr

/-- `SAFE_BASE.fullmatch`. -/
def safeBase (value : String) : Bool :=
  2 ≤ value.length && value.length ≤ 20 && value.toList.all fun c => c.isUpper || c.isDigit

structure GenericFields (F : Type) where
  schemaVersion : ℤ
  engine : String
  strategy : StrategyContract
  data : GenericDataContract
  «universe» : GenericUniverseContract
  parameters : List (SearchParameter F)
  features : List (FeatureNode F)
  signal : SignalContract
  label : LabelContract F
  validation : ValidationContract F
  safety : SafetyContract
  deriving DecidableEq, Repr

namespace GenericFields

variable {F : Type} [FloatArith F]

def parameterIds (spec : GenericFields F) : List String :=
  spec.parameters.map SearchParameter.parameterId

def compileGraph (spec : GenericFields F) : Except SpecValidationError (CompiledFeatureGraph F) :=
  compileFeatureGraph spec.data.sourceColumns spec.features spec.signal.condition spec.parameterIds

def unsafePath (path : String) : Bool :=
  path.toList.head? = some '/' || (path.toList.splitOn '/').any (· == ['.', '.'])

def between (low value high : F) : Bool := lt low value && lt value high

/-- The findings of `__post_init__` with their conditions, in order. -/
def checks (spec : GenericFields F) : List (Bool × String) :=
  let data := spec.data
  [(decide (spec.schemaVersion ≠ 2),
      "generic spec schema_version must be 2"),
    (decide (¬ safeId spec.engine ∨ ¬ safeId spec.strategy.strategyId),
      "engine and strategy.id must be safe identifiers"),
    (decide (∃ name ∈ data.triggerInputs, name = "open_interest" ∨ name = "coinglass"),
      "OI and CoinGlass inputs must remain supplemental"),
    (decide (spec.strategy.direction ∉ ["neutral", "bullish", "bearish"]),
      "strategy.direction is invalid"),
    (decide (data.provider ∉ ["normalized_csv", "binance_public"]),
      "unsupported public data provider"),
    (decide (unsafePath data.catalogPath),
      "data.catalog_path must be a safe project-relative path"),
    (decide (data.timezone ≠ "UTC"),
      "data.timezone must be UTC"),
    (decide (data.start.utcOffset ≠ some 0 ∨ data.end.utcOffset ≠ some 0 ∨
      data.end.wall ≤ data.start.wall),
      "data range must be increasing timezone-aware UTC"),
    (decide (data.timeframes = [] ∨ ¬ data.timeframes.Nodup),
      "data.timeframes must be non-empty and unique"),
    (decide (¬ data.closedCandlesOnly ∨ ¬ data.publicOnly),
      "backtests require closed candles and public data"),
    (decide (data.triggerInputs = []),
      "data.trigger_inputs must be non-empty"),
    (decide (∃ name ∈ data.triggerInputs, name ∈ data.supplementalInputs),
      "trigger and supplemental inputs must be disjoint"),
    (decide (spec.universe.kind ∉ ["fixed", "binance_ranked_altcoins"]),
      "unsupported universe kind"),
    (decide (spec.universe.kind = "fixed" ∧ spec.universe.symbols = []),
      "fixed universe requires symbols"),
    (decide (spec.universe.rankingDays < 1),
      "universe.ranking_days must be positive"),
    (decide (¬ (1 ≤ spec.universe.topVolume ∧ spec.universe.topVolume ≤ 100) ∨
      ¬ (1 ≤ spec.universe.topGainers ∧ spec.universe.topGainers ≤ 100)),
      "universe ranking sizes must be between 1 and 100"),
    (decide (∃ base ∈ spec.universe.excludeBases, ¬ safeBase base),
      "universe.exclude_bases contains an invalid base asset"),
    (decide (spec.parameterIds = [] ∨ ¬ spec.parameterIds.Nodup ∨
      ∃ name ∈ spec.parameterIds, ¬ safeId name),
      "search parameter IDs must be safe, non-empty, and unique")] ++
  spec.parameters.map (fun parameter =>
    let parameterId := parameter.parameterId
    (decide (parameter.values = [] ∨ 1000 < parameter.values.length),
      s!"parameter {parameterId} has an invalid grid")) ++
  [(decide (100000 < (spec.parameters.map fun parameter => parameter.values.length).prod),
      "parameter grid exceeds 100000 combinations"),
    (decide (spec.signal.eventPolicy ≠ "onset" ∨ spec.signal.cooldownSeconds < 0),
      "only onset with a non-negative cooldown is supported"),
    (decide (spec.label.operator ≠ "future_absolute_move"),
      "only future_absolute_move labels are supported"),
    (decide (spec.label.horizonHours < 1 ∨ ¬ between (ofRat 0) spec.label.threshold (ofRat 1)),
      "label horizon and threshold are invalid"),
    (decide (spec.validation.method ≠ "chronological_holdout"),
      "only chronological_holdout validation is supported"),
    (decide (¬ between (ofRat 0) spec.validation.selectionFraction (ofRat 1)),
      "validation.selection_fraction must be between zero and one"),
    (decide (¬ between (ofRat 0) spec.validation.holdoutFraction (ofRat 1) ∨
      ¬ lt (FloatArith.abs (sub (add spec.validation.selectionFraction
        spec.validation.holdoutFraction) (ofRat 1))) (ofRat (1 / 1000000000))),
      "selection and holdout fractions must sum to one"),
    (decide (spec.validation.primaryMetric ∉ ["wilson_lower", "precision", "lift"]),
      "unsupported primary metric"),
    (decide (le spec.validation.maxSignalsPerSymbolDay (ofRat 0)),
      "max signals per symbol-day must be positive"),
    (decide (¬ spec.safety.signalOnly),
      "safety.signal_only must be true"),
    (decide (spec.safety.allowExecution ∨ spec.safety.allowAuthenticatedExchangeApi),
      "execution and authenticated exchange APIs are forbidden"),
    (decide (spec.safety.autoPromoteParameters),
      "research parameters cannot be auto-promoted")]

def errors (spec : GenericFields F) : List String :=
  (spec.checks.filter Prod.fst).map Prod.snd

def postInit (spec : GenericFields F) : Except SpecValidationError (CompiledFeatureGraph F) :=
  if spec.errors ≠ [] then .error ⟨"; ".intercalate spec.errors⟩ else spec.compileGraph

end GenericFields

structure GenericBacktestSpec (F : Type) [FloatArith F] extends GenericFields F where
  graph : CompiledFeatureGraph F
  accepted : toGenericFields.postInit = .ok graph

namespace GenericBacktestSpec

variable {F : Type} [FloatArith F] (spec : GenericBacktestSpec F)

theorem errors_eq_nil : spec.errors = [] := by
  by_contra h
  have haccepted := spec.accepted
  rw [GenericFields.postInit, if_pos h] at haccepted
  cases haccepted

theorem compileGraph_eq : spec.compileGraph = .ok spec.graph := by
  have haccepted := spec.accepted
  rwa [GenericFields.postInit, if_neg (not_not.mpr spec.errors_eq_nil)] at haccepted

theorem not_of_check {found : Bool} {message : String} (h : (found, message) ∈ spec.checks) :
    found = false := by
  have hnil := spec.errors_eq_nil
  rw [GenericFields.errors, List.map_eq_nil_iff, List.filter_eq_nil_iff] at hnil
  simpa using hnil _ h

theorem label_checked : 1 ≤ spec.label.horizonHours ∧ lt (ofRat 0) spec.label.threshold = true ∧
    lt spec.label.threshold (ofRat 1) = true := by
  have hmem : (decide (spec.label.horizonHours < 1 ∨
      ¬ GenericFields.between (ofRat 0) spec.label.threshold (ofRat 1)),
      "label horizon and threshold are invalid") ∈ spec.checks := by simp [GenericFields.checks]
  have hnot := not_or.mp (of_decide_eq_false (spec.not_of_check hmem))
  refine ⟨not_lt.mp hnot.1, ?_⟩
  simpa [GenericFields.between] using hnot.2

end GenericBacktestSpec

end ChainQuantStudio.Backtesting
