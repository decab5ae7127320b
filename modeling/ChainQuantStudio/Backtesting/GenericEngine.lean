import ChainQuantStudio.Backtesting.GenericSpec

/-!
# The vectorized feature-DSL engine

One run loads a series for each symbol and timeframe, evaluates the graph on every point of the
parameter grid, scores each point on the rows before the chronological split and reports the best
one. Files are given decoded: the instant of each row, and the numbers of its cells.
-/

namespace ChainQuantStudio.Backtesting

open Columns Dsl FloatArith

inductive EngineError
  | spec (message : String)
  | fileNotFound (message : String)
  | value (message : String)
  | type (message : String)
  | overflow
  | runtime (message : String)
  | eval (error : EvalError)
  deriving DecidableEq, Repr

structure CsvRow (F : Type) where
  timestamp : Option ℤ
  cells : Mapping (Option F)
  deriving DecidableEq, Repr

structure SeriesFile (F : Type) where
  name : String
  fieldnames : Option (List String)
  rows : List (CsvRow F)
  deriving DecidableEq, Repr

/-- The research files, by slug and timeframe. -/
structure Catalog (F : Type) where
  underDataRoot : Bool
  /-- The symbols of `universe.json`, where it is there and where they are an array of strings. -/
  universeManifest : Option (Option (List String))
  csv : String → String → Option (SeriesFile F)
  compressed : String → String → Option (SeriesFile F)

structure Dataset (F : Type) where
  timestamps : List ℤ
  columns : Mapping (List F)
  deriving DecidableEq, Repr

structure MetricSet (F : Type) where
  signals : ℕ
  hits : ℕ
  observations : ℕ
  positives : ℕ
  precision : F
  baseline : F
  lift : F
  wilsonLower : F
  signalsPerSymbolDay : F
  deriving DecidableEq, Repr

variable {F : Type} [FloatArith F]

def intervalSeconds : String → Except EngineError ℤ
  | "5m" => .ok 300
  | "15m" => .ok 900
  | "1h" => .ok 3600
  | "2h" => .ok 7200
  | "4h" => .ok 14400
  | "1d" => .ok 86400
  | "1w" => .ok 604800
  | interval => .error (.value s!"Unsupported candle interval: {interval}")

def validate (spec : GenericBacktestSpec F) : Except EngineError Unit :=
  if spec.data.provider ≠ "normalized_csv" then
    .error (.spec "vectorized feature DSL currently requires normalized_csv research data")
  else if spec.universe.kind ∉ ["fixed", "binance_ranked_altcoins"] then
    .error (.spec "unsupported vectorized universe")
  else if ¬ [spec.label.highColumn, spec.label.lowColumn, spec.label.closeColumn] ⊆
      spec.data.sourceColumns then
    .error (.spec "label columns must be declared source columns")
  else .ok ()

def resolveSymbols (spec : GenericBacktestSpec F) (catalog : Catalog F) :
    Except EngineError (List String) :=
  if spec.universe.symbols ≠ [] then .ok spec.universe.symbols
  else
    match catalog.universeManifest with
    | none => .error (.fileNotFound "ranked universe requires catalog/universe.json")
    | some (some (symbol :: symbols)) => .ok (symbol :: symbols)
    | some _ => .error (.value "universe.json must contain a non-empty symbols array")

def slugOf (symbol : String) : String :=
  symbol.map fun c => if c = '/' ∨ c = ':' then '_' else c

def safeSlug (slug : String) : Bool :=
  !slug.isEmpty && slug.toList.all fun c => c.isUpper || c.isDigit || c == '_' || c == '-'

def cell (row : CsvRow F) (name : String) : Except EngineError F :=
  match row.cells.lookup name with
  | some (some value) => .ok value
  | _ => .error (.value "could not convert string to float")

def loadRow (spec : GenericBacktestSpec F) (dataset : Dataset F) (row : CsvRow F) :
    Except EngineError (Dataset F) :=
  match row.timestamp with
  | none => .error (.value "Invalid isoformat string")
  | some timestamp =>
    if ¬ (spec.data.start.wall ≤ timestamp ∧ timestamp < spec.data.end.wall) then .ok dataset
    else if ∃ previous ∈ dataset.timestamps.getLast?, timestamp ≤ previous then
      .error (.value "normalized CSV timestamps must be strictly increasing")
    else do
      let columns ← dataset.columns.mapM fun entry => do
        let value ← cell row entry.1
        return (entry.1, entry.2 ++ [value])
      .ok { timestamps := dataset.timestamps ++ [timestamp], columns }

def Dataset.empty (spec : GenericBacktestSpec F) : Dataset F where
  timestamps := []
  columns := spec.data.sourceColumns.map fun name => (name, [])

def loadFile (spec : GenericBacktestSpec F) (file : SeriesFile F) :
    Except EngineError (Dataset F) :=
  let name := file.name
  if ¬ file.fieldnames.any fun names => "timestamp" :: spec.data.sourceColumns ⊆ names then
    .error (.value s!"normalized CSV is missing required columns: {name}")
  else do
    let dataset ← file.rows.foldlM (loadRow spec) (Dataset.empty spec)
    if dataset.timestamps = [] then
      .error (.value s!"normalized CSV has no rows in the requested UTC range: {name}")
    else .ok dataset

def loadDataset (spec : GenericBacktestSpec F) (catalog : Catalog F) (symbol timeframe : String) :
    Except EngineError (Dataset F) :=
  let slug := slugOf symbol
  if ¬ safeSlug slug then .error (.spec s!"unsafe catalog symbol: {symbol}")
  else
    match (catalog.csv slug timeframe).or (catalog.compressed slug timeframe) with
    | none => .error (.fileNotFound
        s!"normalized research series is missing: {slug}/{timeframe}.csv[.gz]")
    | some file => loadFile spec file

def labelAt (threshold : F) (bars : ℕ) (high low : List F) (row : F × ℕ) :
    Except EvalError (Option Bool) :=
  let (currentClose, index) := row
  let futureHigh := slice high (index + 1) (index + 1 + bars)
  let futureLow := slice low (index + 1) (index + 1 + bars)
  if futureHigh.length ≠ bars ∨ le currentClose (ofRat 0) then .ok none
  else do
    let highest ← extremum (fun value best => lt best value) futureHigh
    if le threshold (sub (div highest currentClose) (ofRat 1)) then return some true
    else
      let lowest ← extremum lt futureLow
      return some (le threshold (sub (ofRat 1) (div lowest currentClose)))

def horizonBars (spec : GenericBacktestSpec F) (candleSeconds : ℤ) : ℕ :=
  (spec.label.horizonHours * 3600 / candleSeconds).toNat

def futureAbsoluteMoveLabels (spec : GenericBacktestSpec F) (dataset : Dataset F)
    (candleSeconds : ℤ) : Except EvalError (List (Option Bool)) := do
  let high ← find dataset.columns spec.label.highColumn
  let low ← find dataset.columns spec.label.lowColumn
  let close ← find dataset.columns spec.label.closeColumn
  close.zipIdx.mapM (labelAt spec.label.threshold (horizonBars spec candleSeconds) high low)

def cooldownFrom (cooldownBars last index : ℤ) : List Bool → List Bool
  | [] => []
  | value :: values =>
    let accepted := value && cooldownBars < index - last
    accepted :: cooldownFrom cooldownBars (if accepted then index else last) (index + 1) values

variable (F) in
def applyCooldown (signal : List Bool) (cooldownSeconds candleSeconds : ℤ) :
    Except EngineError (List Bool) :=
  if cooldownSeconds = 0 then .ok signal
  else
    match FloatArith.ceil (ofRat (cooldownSeconds / candleSeconds) : F) with
    | none => .error .overflow
    | some cooldownBars => .ok (cooldownFrom cooldownBars (-cooldownBars - 1) 0 signal)

/-- The signals and the labels of the rows of one dataset. -/
abbrev Part := List Bool × List (Option Bool)

structure Tally where
  signals : ℕ := 0
  hits : ℕ := 0
  observations : ℕ := 0
  positives : ℕ := 0
  bars : ℕ := 0
  deriving DecidableEq, Repr

def Tally.row (tally : Tally) : Bool × Option Bool → Tally
  | (_, none) => tally
  | (triggered, some label) =>
    { tally with
      observations := tally.observations + 1
      positives := tally.positives + label.toNat
      signals := tally.signals + triggered.toNat
      hits := tally.hits + (triggered && label).toNat }

def Tally.part (tally : Tally) (part : Part) : Except EngineError Tally :=
  if part.1.length ≠ part.2.length then .error (.value "zip() arguments differ in length")
  else .ok ((part.1.zip part.2).foldl Tally.row { tally with bars := tally.bars + part.1.length })

def wilsonLower (hits total : ℕ) : F :=
  if total = 0 then ofRat 0
  else
    let z : F := ofRat (196 / 100)
    let probability : F := ofRat (hits / total)
    let denominator := add (ofRat 1) (div (mul z z) (ofRat total))
    let center := add probability (div (mul z z) (ofRat (2 * total)))
    let margin := mul z (sqrt (add
      (div (mul probability (sub (ofRat 1) probability)) (ofRat total))
      (div (mul z z) (ofRat (4 * total * total)))))
    div (sub center margin) denominator

def Tally.metrics (tally : Tally) (candleSeconds : ℤ) : MetricSet F :=
  let precision : F := if tally.signals = 0 then ofRat 0 else ofRat (tally.hits / tally.signals)
  let baseline : F :=
    if tally.observations = 0 then ofRat 0 else ofRat (tally.positives / tally.observations)
  let symbolDays : F := ofRat (tally.bars * candleSeconds / 86400)
  { signals := tally.signals
    hits := tally.hits
    observations := tally.observations
    positives := tally.positives
    precision
    baseline
    lift := if isZero baseline then ofRat 0 else div precision baseline
    wilsonLower := Backtesting.wilsonLower tally.hits tally.signals
    signalsPerSymbolDay :=
      if isZero symbolDays then ofRat 0 else div (ofRat tally.signals) symbolDays }

def metrics (parts : List Part) (candleSeconds : ℤ) : Except EngineError (MetricSet F) := do
  let tally ← parts.foldlM Tally.part {}
  return tally.metrics candleSeconds

/-- `itertools.product`: the last list varies fastest. -/
def product {α : Type} : List (List α) → List (List α)
  | [] => [[]]
  | values :: rest => values.flatMap fun value => (product rest).map (value :: ·)

def grids (spec : GenericBacktestSpec F) : List (Mapping F) :=
  (product (spec.parameters.map SearchParameter.values)).map fun values =>
    spec.parameterIds.zip values

/-- `[:split]` and `[split:]` of a sequence; a negative index counts from the end. -/
def splitIndex (spec : GenericBacktestSpec F) (length : ℕ) : Except EngineError ℕ :=
  match trunc (mul (ofRat length) spec.validation.selectionFraction) with
  | none => .error .overflow
  | some split => .ok (if 0 ≤ split then split.toNat else (length + split).toNat)

def partsOf (spec : GenericBacktestSpec F) (candleSeconds : ℤ) (parameters : Mapping F)
    (dataset : Dataset F) : Except EngineError (Part × Part) := do
  let evaluated ←
    (spec.graph.evaluate dataset.columns parameters (candleSeconds / 60)).mapError .eval
  let condition ← (find evaluated spec.graph.signalCondition).mapError .eval
  let signal ← applyCooldown F (onset condition) spec.signal.cooldownSeconds candleSeconds
  let labels ← (futureAbsoluteMoveLabels spec dataset candleSeconds).mapError .eval
  let split ← splitIndex spec signal.length
  return ((signal.take split, labels.take split), (signal.drop split, labels.drop split))

structure Candidate (F : Type) where
  score : F
  parameters : Mapping F
  selection : MetricSet F
  holdout : MetricSet F
  deriving DecidableEq, Repr

def primaryMetric (metric : String) (selection : MetricSet F) : F :=
  if metric = "wilson_lower" then selection.wilsonLower
  else if metric = "precision" then selection.precision
  else selection.lift

def candidateOf (spec : GenericBacktestSpec F) (candleSeconds : ℤ)
    (datasets : List (Dataset F)) (parameters : Mapping F) :
    Except EngineError (Option (Candidate F)) := do
  let parts ← datasets.mapM (partsOf spec candleSeconds parameters)
  let selection ← metrics (parts.map Prod.fst) candleSeconds
  let holdout ← metrics (parts.map Prod.snd) candleSeconds
  if selection.signals = 0 ∨
      lt spec.validation.maxSignalsPerSymbolDay selection.signalsPerSymbolDay then
    return none
  else
    let score := primaryMetric spec.validation.primaryMetric selection
    return some { score, parameters, selection, holdout }

/-- The order of the tuples `(score, lift, precision, signals)`. -/
def outranks (score : F) (a : MetricSet F) (best : F) (b : MetricSet F) : Bool :=
  let same (x y : F) : Bool := le x y && le y x
  if !same score best then lt best score
  else if !same a.lift b.lift then lt b.lift a.lift
  else if !same a.precision b.precision then lt b.precision a.precision
  else b.signals < a.signals

/-- `max` keeps the first of equal entries. -/
def firstMax {α : Type} (greater : α → α → Bool) : List α → Option α
  | [] => none
  | first :: rest =>
    some (rest.foldl (fun best entry => if greater entry best then entry else best) first)

def choose (candidates : List (Candidate F)) : Option (Candidate F) :=
  firstMax (fun a b => outranks a.score a.selection b.score b.selection) candidates

structure TimeframeResult (F : Type) where
  timeframe : String
  parameters : Mapping F
  selection : MetricSet F
  holdout : MetricSet F
  selectionScore : F
  deriving DecidableEq, Repr

def runTimeframe (spec : GenericBacktestSpec F) (catalog : Catalog F) (symbols : List String)
    (timeframe : String) : Except EngineError (TimeframeResult F) := do
  let candleSeconds ← intervalSeconds timeframe
  let datasets ← symbols.eraseDups.mapM fun symbol => loadDataset spec catalog symbol timeframe
  let candidates ← (grids spec).mapM (candidateOf spec candleSeconds datasets)
  match choose (candidates.filterMap id) with
  | none => .error (.runtime s!"no eligible parameter candidate for {timeframe}")
  | some best =>
    .ok { timeframe, parameters := best.parameters, selection := best.selection,
          holdout := best.holdout, selectionScore := best.score }

structure Payload (F : Type) where
  strategyId : String
  horizon : BacktestHorizon
  dataStart : Datetime
  dataEnd : Datetime
  symbols : List String
  results : List (TimeframeResult F)
  productionThresholdsChanged : Bool := false
  deriving DecidableEq, Repr

def run (spec : GenericBacktestSpec F) (catalog : Catalog F) : Except EngineError (Payload F) := do
  validate spec
  if !catalog.underDataRoot then
    .error (.spec "normalized catalog must stay under data/backtest")
  let symbols ← resolveSymbols spec catalog
  let results ← spec.data.timeframes.mapM (runTimeframe spec catalog symbols)
  return { strategyId := spec.strategy.strategyId, horizon := spec.strategy.horizon,
           dataStart := spec.data.start, dataEnd := spec.data.end, symbols, results }

omit [FloatArith F] in
theorem mapError_eq_ok {ε ε' α : Type} {x : Except ε α} {f : ε → ε'} {a : α} :
    x.mapError f = .ok a ↔ x = .ok a := by
  cases x <;> simp [Except.mapError]

omit [FloatArith F] in
theorem find_eq_ok {α : Type} {m : Mapping α} {key : String} {value : α} :
    find m key = .ok value ↔ m.lookup key = some value := by
  unfold find
  cases m.lookup key <;> simp

theorem partsOf_eq_ok {spec : GenericBacktestSpec F} {candleSeconds : ℤ} {parameters : Mapping F}
    {dataset : Dataset F} {parts : Part × Part} :
    partsOf spec candleSeconds parameters dataset = .ok parts ↔
      ∃ values condition signal labels split,
        spec.graph.evaluate dataset.columns parameters (candleSeconds / 60) = .ok values ∧
        values.lookup spec.graph.signalCondition = some condition ∧
        applyCooldown F (onset condition) spec.signal.cooldownSeconds candleSeconds = .ok signal ∧
        futureAbsoluteMoveLabels spec dataset candleSeconds = .ok labels ∧
        splitIndex spec signal.length = .ok split ∧
        parts = ((signal.take split, labels.take split), (signal.drop split, labels.drop split)) := by
  simp only [partsOf, bind_eq_ok, mapError_eq_ok, find_eq_ok, pure, Except.pure, Except.ok.injEq]
  constructor
  · rintro ⟨values, hvalues, condition, hcondition, signal, hsignal, labels, hlabels, split, hsplit,
      rfl⟩
    exact ⟨values, condition, signal, labels, split, hvalues, hcondition, hsignal, hlabels, hsplit,
      rfl⟩
  · rintro ⟨values, condition, signal, labels, split, hvalues, hcondition, hsignal, hlabels, hsplit,
      rfl⟩
    exact ⟨values, hvalues, condition, hcondition, signal, hsignal, labels, hlabels, split, hsplit,
      rfl⟩

theorem candidateOf_eq_ok {spec : GenericBacktestSpec F} {candleSeconds : ℤ}
    {datasets : List (Dataset F)} {parameters : Mapping F} {candidate : Option (Candidate F)} :
    candidateOf spec candleSeconds datasets parameters = .ok candidate ↔
      ∃ parts selection holdout,
        datasets.mapM (partsOf spec candleSeconds parameters) = .ok parts ∧
        metrics (parts.map Prod.fst) candleSeconds = .ok selection ∧
        metrics (parts.map Prod.snd) candleSeconds = .ok holdout ∧
        candidate =
          if selection.signals = 0 ∨
              lt spec.validation.maxSignalsPerSymbolDay selection.signalsPerSymbolDay then none
          else some { score := primaryMetric spec.validation.primaryMetric selection, parameters,
                      selection, holdout } := by
  simp only [candidateOf, bind_eq_ok, pure, Except.pure]
  constructor
  · rintro ⟨parts, hparts, selection, hselection, holdout, hholdout, h⟩
    refine ⟨parts, selection, holdout, hparts, hselection, hholdout, ?_⟩
    split_ifs at h ⊢ <;> exact (Except.ok.inj h).symm
  · rintro ⟨parts, selection, holdout, hparts, hselection, hholdout, rfl⟩
    refine ⟨parts, hparts, selection, hselection, holdout, hholdout, ?_⟩
    split_ifs <;> rfl

theorem runTimeframe_eq_ok {spec : GenericBacktestSpec F} {catalog : Catalog F}
    {symbols : List String} {timeframe : String} {result : TimeframeResult F} :
    runTimeframe spec catalog symbols timeframe = .ok result ↔
      ∃ candleSeconds datasets candidates best,
        intervalSeconds timeframe = .ok candleSeconds ∧
        symbols.eraseDups.mapM (fun symbol => loadDataset spec catalog symbol timeframe) =
          .ok datasets ∧
        (grids spec).mapM (candidateOf spec candleSeconds datasets) = .ok candidates ∧
        choose (candidates.filterMap id) = some best ∧
        result = { timeframe, parameters := best.parameters, selection := best.selection,
                   holdout := best.holdout, selectionScore := best.score } := by
  simp only [runTimeframe, bind_eq_ok]
  constructor
  · rintro ⟨candleSeconds, hseconds, datasets, hdatasets, candidates, hcandidates, h⟩
    split at h
    · cases h
    · rename_i best hbest
      exact ⟨candleSeconds, datasets, candidates, best, hseconds, hdatasets, hcandidates, hbest,
        (Except.ok.inj h).symm⟩
  · rintro ⟨candleSeconds, datasets, candidates, best, hseconds, hdatasets, hcandidates, hbest, rfl⟩
    refine ⟨candleSeconds, hseconds, datasets, hdatasets, candidates, hcandidates, ?_⟩
    rw [hbest]

theorem run_eq_ok {spec : GenericBacktestSpec F} {catalog : Catalog F} {payload : Payload F} :
    run spec catalog = .ok payload ↔
      validate spec = .ok () ∧ catalog.underDataRoot = true ∧
      ∃ symbols results, resolveSymbols spec catalog = .ok symbols ∧
        spec.data.timeframes.mapM (runTimeframe spec catalog symbols) = .ok results ∧
        payload = { strategyId := spec.strategy.strategyId, horizon := spec.strategy.horizon,
                    dataStart := spec.data.start, dataEnd := spec.data.end, symbols, results } := by
  unfold run
  cases hvalid : validate spec with
  | error e => simp [bind, Except.bind]
  | ok valid =>
    cases hroot : catalog.underDataRoot with
    | false => simp [bind, Except.bind]
    | true =>
      constructor
      · intro h
        obtain ⟨-, -, h⟩ := bind_eq_ok.mp h
        obtain ⟨symbols, hsymbols, h⟩ := bind_eq_ok.mp h
        obtain ⟨results, hresults, h⟩ := bind_eq_ok.mp h
        exact ⟨rfl, rfl, symbols, results, hsymbols, hresults, (Except.ok.inj h).symm⟩
      · rintro ⟨-, -, symbols, results, hsymbols, hresults, rfl⟩
        exact bind_eq_ok.mpr ⟨⟨⟩, rfl, bind_eq_ok.mpr ⟨symbols, hsymbols,
          bind_eq_ok.mpr ⟨results, hresults, rfl⟩⟩⟩

end ChainQuantStudio.Backtesting
