import ChainQuantStudio.Library.PythonText
import ChainQuantStudio.Studio.MarketDataService
import ChainQuantStudio.Studio.StrategyData

/-!
# Complete datasets

A request that the validation accepts is split into archive periods, fetched and merged. Three
pieces of it do not fit together: the names of archives know minutes and hours alone, the periods
end with the last whole day, and the warm-up of a request without a start may reach past its end.
Elsewhere the rows are exactly the candles of the range.
-/

namespace ChainQuantStudio.Studio.StrategyData

open Calendar Exchanges.BinanceArchive

abbrev Instant9999 := { instant : ℤ // Representable instant }

/-- What the validation takes from Python's library: case mappings, `datetime.fromisoformat` with
the offset of its zone, and the candle counts that the warm-up pattern finds in a text. -/
structure TextPlatform where
  casefold : String → String
  upper : String → String
  lower : String → String
  fromisoformat : String → Option (Instant9999 × Option ℤ)
  candleCounts : String → List ℕ

inductive SymbolValue
  | list (values : List String)
  | text (value : String)

/-- What the requirements read from a normalised spec. -/
structure NormalizedSpec where
  venue : String
  market : String
  symbols : SymbolValue
  timeframes : List String
  requiredData : String
  start : Option String
  «end» : Option String

variable (p : TextPlatform)

def strip (text : String) : String := String.ofList (PythonText.strip text.toList)

def binanceMarket (venue market : String) : Except DataError (ArchiveMarket × String) :=
  if p.casefold venue ≠ "binance" then
    .error (.value ("unsupported strategy data venue: " ++ venue))
  else
    let normalized := String.ofList ((p.casefold market).toList.filter fun c =>
      ('a' ≤ c ∧ c ≤ 'z') ∨ ('0' ≤ c ∧ c ≤ '9'))
    if normalized ∈ ["usdm", "usdmargin", "linearperpetual", "futuresum"] then
      .ok (.futuresUm, "usd-m")
    else if normalized = "spot" then .ok (.spot, "spot")
    else .error (.value ("unsupported Binance strategy market: " ++ market))

/-- `[A-Z0-9]{4,30}`. -/
def isSymbol (symbol : String) : Bool :=
  4 ≤ symbol.toList.length && symbol.toList.length ≤ 30 &&
    symbol.toList.all fun c => ('A' ≤ c && c ≤ 'Z') || ('0' ≤ c && c ≤ '9')

/-- The items of a list, or the parts of a text between commas and blanks. -/
def SymbolValue.items : SymbolValue → List String
  | .list values => values
  | .text value =>
    (value.toList.splitOnP fun c => c == ',' || PythonText.isSpace c).map String.ofList

def fixedSymbols (value : SymbolValue) : Except DataError (List String) :=
  let symbols := (value.items.filter (strip · ≠ "")).map fun item => p.upper (strip item)
  if symbols = [] ∨ ¬ symbols.all isSymbol then
    .error (.value "strategy backtest requires fixed exchange symbols")
  else .ok symbols

def timeframesOf (values : List String) : Except DataError (List String) :=
  let result := (values.filter (strip · ≠ "")).map fun item => p.lower (strip item)
  if result = [] then .error (.value "strategy backtest requires at least one timeframe")
  else do
    let _ ← result.mapM timeframeDuration
    return result

def warmupCandles (requiredData : String) : ℕ := (p.candleCounts requiredData).max?.getD 200

def parseUtc (value : String) : Except DataError Instant9999 :=
  match p.fromisoformat (value.replace "Z" "+00:00") with
  | none => .error (.value "Invalid isoformat string")
  | some (wall, offset) =>
    if offset ≠ some 0 then .error (.value "strategy backtest bounds must be UTC") else .ok wall

def defaultBacktestStart : Instant9999 := ⟨1577836800000000, by decide⟩

def latestCompleteDay (now : Instant9999) : Instant9999 :=
  ⟨now.val / 86400000000 * 86400000000, by
    have h := now.property
    unfold Representable at h ⊢
    omega⟩

def boundOr (default : Instant9999) : Option String → Except DataError Instant9999
  | some value => parseUtc p value
  | none => .ok default

def bounds (spec : NormalizedSpec) (now : Instant9999) :
    Except DataError (Instant9999 × Instant9999 × Bool) := do
  let start ← boundOr p defaultBacktestStart spec.start
  let last ← boundOr p (latestCompleteDay now) spec.end
  if last.val ≤ start.val then throw (.value "strategy backtest start must precede end")
  else return (start, last, spec.start.isSome)

def instantOf (instant : ℤ) : Except DataError Instant9999 :=
  if h : Representable instant then .ok ⟨instant, h⟩ else .error .overflow

def requirementOf (archiveMarket : ArchiveMarket) (canonicalMarket : String) (warmup : ℕ)
    (start last : Instant9999) (explicitStart : Bool) (target : String × String) :
    Except DataError StrategyDatasetRequirement := do
  let seconds ← timeframeDuration target.2
  let before ← instantOf (start.val - seconds * 1000000 * warmup)
  let after ← if explicitStart then pure start else instantOf (start.val + seconds * 1000000 * warmup)
  let dataStart := if explicitStart then before else start
  return { venue := "binance", market := canonicalMarket, archiveMarket, symbol := target.1,
           timeframe := target.2, selectionStart := after.val, selectionEnd := last.val,
           dataStart := dataStart.val, warmupCandles := warmup,
           selectionEnd_representable := last.property,
           dataStart_representable := dataStart.property }

def requirements (spec : NormalizedSpec) (now : Instant9999) :
    Except DataError (List StrategyDatasetRequirement) := do
  let (archiveMarket, canonicalMarket) ← binanceMarket p (strip spec.venue) (strip spec.market)
  let symbols ← fixedSymbols p spec.symbols
  let timeframes ← timeframesOf p spec.timeframes
  let (start, last, explicitStart) ← bounds p spec now
  let targets := symbols.flatMap fun symbol => timeframes.map fun timeframe => (symbol, timeframe)
  targets.mapM (requirementOf archiveMarket canonicalMarket (warmupCandles p spec.requiredData)
    start last explicitStart)

structure Accepted (requirement : StrategyDatasetRequirement) : Prop where
  symbol : isSymbol requirement.symbol = true
  bounds : requirement.dataStart < requirement.selectionEnd
  warmup : ∃ seconds, timeframeDuration requirement.timeframe = .ok seconds ∧
    requirement.selectionStart =
      requirement.dataStart + requirement.warmupCandles * (seconds * 1000000)

theorem accepted_of_requirementOf {archiveMarket : ArchiveMarket} {canonicalMarket : String}
    {warmup : ℕ} {start last : Instant9999} {explicitStart : Bool} {target : String × String}
    {requirement : StrategyDatasetRequirement} (hlt : start.val < last.val)
    (hsymbol : isSymbol target.1 = true)
    (h : requirementOf archiveMarket canonicalMarket warmup start last explicitStart target =
      .ok requirement) : Accepted requirement := by
  obtain ⟨seconds, hseconds, h⟩ := Columns.bind_eq_ok.mp h
  obtain ⟨before, hbefore, h⟩ := Columns.bind_eq_ok.mp h
  have hpos := (timeframeDuration_spec hseconds).1
  have hval : before.val = start.val - seconds * 1000000 * warmup := by
    unfold instantOf at hbefore
    split_ifs at hbefore
    rw [← Except.ok.inj hbefore]
  have hnonneg : 0 ≤ seconds * 1000000 * warmup := by positivity
  cases explicitStart with
  | true =>
    cases h
    refine ⟨hsymbol, ?_, seconds, hseconds, ?_⟩
    · simp only [if_true]
      omega
    · simp only [if_true]
      rw [hval]
      ring
  | false =>
    obtain ⟨after, hafter, h⟩ := Columns.bind_eq_ok.mp h
    cases h
    refine ⟨hsymbol, hlt, seconds, hseconds, ?_⟩
    unfold instantOf at hafter
    split_ifs at hafter
    rw [← Except.ok.inj hafter]
    simp only [Bool.false_eq_true, if_false]
    ring

theorem isSymbol_of_fixedSymbols {value : SymbolValue} {symbols : List String}
    (h : fixedSymbols p value = .ok symbols) : ∀ symbol ∈ symbols, isSymbol symbol = true := by
  unfold fixedSymbols at h
  simp only at h
  split at h
  · cases h
  · rename_i hgood
    rw [← Except.ok.inj h]
    rw [not_or, not_not] at hgood
    exact List.all_eq_true.mp hgood.2

theorem bounds_lt {spec : NormalizedSpec} {now start last : Instant9999} {explicitStart : Bool}
    (h : bounds p spec now = .ok (start, last, explicitStart)) : start.val < last.val := by
  obtain ⟨first, -, h⟩ := Columns.bind_eq_ok.mp h
  obtain ⟨final, -, h⟩ := Columns.bind_eq_ok.mp h
  split at h
  · cases h
  · rename_i hlt
    cases h
    exact not_le.mp hlt

theorem accepted_of_requirements {spec : NormalizedSpec} {now : Instant9999}
    {accepted : List StrategyDatasetRequirement} (h : requirements p spec now = .ok accepted) :
    ∀ requirement ∈ accepted, Accepted requirement := by
  unfold requirements at h
  obtain ⟨⟨archiveMarket, canonicalMarket⟩, -, h⟩ := Columns.bind_eq_ok.mp h
  simp only at h
  obtain ⟨symbols, hsymbols, h⟩ := Columns.bind_eq_ok.mp h
  obtain ⟨timeframes, -, h⟩ := Columns.bind_eq_ok.mp h
  obtain ⟨⟨start, last, explicitStart⟩, hbounds, h⟩ := Columns.bind_eq_ok.mp h
  simp only at h
  have hlt : start.val < last.val := bounds_lt p hbounds
  have hname := isSymbol_of_fixedSymbols p hsymbols
  clear hbounds hsymbols
  intro requirement hrequirement
  obtain ⟨target, htarget, hof⟩ :=
    Columns.exists_of_forall₂_right (Columns.mapM_eq_ok_iff.mp h) hrequirement
  obtain ⟨symbol, hsymbol, htimeframe⟩ := List.mem_flatMap.mp htarget
  obtain ⟨timeframe, -, rfl⟩ := List.mem_map.mp htimeframe
  have htargetName : isSymbol (symbol, timeframe).1 = true := hname symbol hsymbol
  exact accepted_of_requirementOf hlt htargetName hof

/-- A fetcher, its errors as `_materialize` raises them. -/
abbrev ArchiveFetcher :=
  ArchiveMarket → String → String → ArchivePeriod → Except DataError ArchiveFetch

abbrev Serve :=
  List NormalizedRow → List Source → Except DataError VersionedMarketDataService.DatasetVersion

variable (u : Unicode) (f : Doubles) (fetch : ArchiveFetcher)
  (requirement : StrategyDatasetRequirement)

def archivePeriods : List ArchivePeriod :=
  let endDay := requirement.selectionEnd / 86400000000
  iterArchivePeriods (requirement.dataStart / 86400000000) endDay (firstOfMonth endDay)

def fetchPeriod (period : ArchivePeriod) : Except DataError ArchiveFetch :=
  fetch requirement.archiveMarket requirement.symbol requirement.timeframe period

def materialize (serve : Serve) :
    Except DataError VersionedMarketDataService.DatasetVersion := do
  let fetched ← (archivePeriods requirement).mapM (fetchPeriod fetch requirement)
  let (rows, sources) ← normalizeArchives u f requirement fetched
  if rows.length < requirement.warmupCandles then
    throw (.value "verified market dataset does not contain the required warm-up history")
  else serve rows sources

/-- What a candle holds besides its times. -/
structure Kline where
  «open» : String
  high : String
  low : String
  close : String
  baseVolume : String
  quoteVolume : String
  trades : String
  takerBase : String
  takerQuote : String
  ignore : String

def candleRecord (durationMs : ℤ) (candle : ℤ → Kline) (openMs : ℤ) : KlineRecord where
  openTime := openMs
  «open» := (candle openMs).open
  high := (candle openMs).high
  low := (candle openMs).low
  close := (candle openMs).close
  baseVolume := (candle openMs).baseVolume
  closeTime := openMs + durationMs - 1
  quoteVolume := (candle openMs).quoteVolume
  trades := (candle openMs).trades
  takerBase := (candle openMs).takerBase
  takerQuote := (candle openMs).takerQuote
  ignore := (candle openMs).ignore

def candleRow (durationMs : ℤ) (candle : ℤ → Kline) (scale openMs : ℤ) : List String :=
  [toString (openMs * scale), (candle openMs).open, (candle openMs).high, (candle openMs).low,
   (candle openMs).close, (candle openMs).baseVolume,
   toString ((openMs + durationMs) * scale - 1), (candle openMs).quoteVolume,
   (candle openMs).trades, (candle openMs).takerBase, (candle openMs).takerQuote,
   (candle openMs).ignore]

def RowOf (durationMs : ℤ) (candle : ℤ → Kline) (openMs : ℤ) (values : List String) : Prop :=
  values = candleRow durationMs candle 1 openMs ∨
    (1735689600000 ≤ openMs ∧ values = candleRow durationMs candle 1000 openMs)

def OpensIn (durationMs : ℤ) (period : ArchivePeriod) (openMs : ℤ) : Prop :=
  period.day * 86400000 ≤ openMs ∧ openMs < period.last * 86400000 ∧ openMs % durationMs = 0

structure HoldsCandles (u : Unicode) (durationMs : ℤ) (candle : ℤ → Kline) (period : ArchivePeriod)
    (table : List (List String)) : Prop where
  rows : ∀ values ∈ table, values = [] ∨
    (values.length = 12 ∧ ∀ first ∈ values.head?, ¬ u.isdigit first.toList) ∨
    ∃ openMs, OpensIn durationMs period openMs ∧ RowOf durationMs candle openMs values
  every : ∀ openMs, OpensIn durationMs period openMs →
    ∃ values ∈ table, RowOf durationMs candle openMs values

structure SuppliesPeriod (durationMs : ℤ) (candle : ℤ → Kline) (period : ArchivePeriod)
    (item : ArchiveFetch) : Prop where
  fetched : fetchPeriod fetch requirement period = .ok item
  market : item.market = requirement.archiveMarket
  symbol : item.symbol = requirement.symbol
  interval : item.interval = requirement.timeframe
  partition : item.period = period
  status : item.status = .available
  rows : ∃ table, item.path = some (.ok [.ok table]) ∧
    HoldsCandles u durationMs candle period table

def Supplies (durationMs : ℤ) (candle : ℤ → Kline) (periods : List ArchivePeriod) : Prop :=
  ∀ period ∈ periods, ∃ item, SuppliesPeriod u fetch requirement durationMs candle period item

structure Dated (durationMs : ℤ) (period : ArchivePeriod) : Prop where
  first : ∀ openMs, OpensIn durationMs period openMs → 1000000000000 ≤ openMs
  last : period.last ≤ 2932896

variable {u f fetch requirement}

theorem milliseconds_toString {n : ℤ} (h : 0 ≤ n) (hlt : n < 1000000000000000000) :
    milliseconds u (toString n) = timestampToMilliseconds n := by
  lift n to ℕ using h
  have htext : toString (n : ℤ) = toString n := rfl
  rw [milliseconds, htext, Unicode.int_toString (by omega)]

theorem timestampToMilliseconds_eq_ok {value ms : ℤ} :
    timestampToMilliseconds value = .ok ms ↔
      (1000000000000000 ≤ value ∧ ms = value / 1000) ∨
        (1000000000000 ≤ value ∧ value < 1000000000000000 ∧ ms = value) := by
  unfold timestampToMilliseconds
  split_ifs with hmicros hearly
  · rw [Except.ok.injEq]
    omega
  · refine iff_of_false (by simp) ?_
    omega
  · rw [Except.ok.injEq]
    omega

theorem parseKlineRow_candleRow {d scale t : ℤ} {candle : ℤ → Kline} (hopen : 0 ≤ t * scale) :
    parseKlineRow u (candleRow d candle scale t) = (do
      let openMs ← milliseconds u (toString (t * scale))
      let closeMs ← milliseconds u (toString ((t + d) * scale - 1))
      return some { candleRecord d candle t with openTime := openMs, closeTime := closeMs }) := by
  have hdigit : u.isdigit (toString (t * scale)).toList = true := by
    lift t * scale to ℕ using hopen with n
    exact Unicode.isdigit_toString n
  rw [candleRow, parseKlineRow, if_neg (not_not.mpr hdigit)]
  rfl

theorem parseKlineRow_heading {values : List String} (hlength : values.length = 12)
    (hheading : ∀ first ∈ values.head?, ¬ u.isdigit first.toList) :
    parseKlineRow u values = .ok none := by
  match values, hlength with
  | [first, _, _, _, _, _, _, _, _, _, _, _], _ => exact if_pos (hheading first rfl)

theorem parseKlineRow_of_rowOf {d t : ℤ} {candle : ℤ → Kline} {values : List String} (hd : 0 < d)
    (hfirst : 1000000000000 ≤ t) (hlast : t + d ≤ 900000000000000)
    (h : RowOf d candle t values) :
    parseKlineRow u values = .ok (some (candleRecord d candle t)) := by
  rcases h with rfl | ⟨hrecent, rfl⟩
  · have hopen : timestampToMilliseconds (t * 1) = .ok t :=
      timestampToMilliseconds_eq_ok.mpr (by omega)
    have hclose : timestampToMilliseconds ((t + d) * 1 - 1) = .ok (t + d - 1) :=
      timestampToMilliseconds_eq_ok.mpr (by omega)
    rw [parseKlineRow_candleRow (by omega), milliseconds_toString (by omega) (by omega),
      milliseconds_toString (by omega) (by omega), hopen, hclose]
    rfl
  · have hopen : timestampToMilliseconds (t * 1000) = .ok t :=
      timestampToMilliseconds_eq_ok.mpr (by omega)
    have hclose : timestampToMilliseconds ((t + d) * 1000 - 1) = .ok (t + d - 1) :=
      timestampToMilliseconds_eq_ok.mpr (by omega)
    rw [parseKlineRow_candleRow (by omega), milliseconds_toString (by omega) (by omega),
      milliseconds_toString (by omega) (by omega), hopen, hclose]
    rfl

theorem first_of_parseKlineRow {d t : ℤ} {candle : ℤ → Kline} {values : List String}
    {found : Option KlineRecord} (hnonneg : 0 ≤ t) (h : RowOf d candle t values)
    (hread : parseKlineRow u values = .ok found) : 1000000000000 ≤ t := by
  by_contra hearly
  rcases h with rfl | ⟨hrecent, -⟩
  · rw [parseKlineRow_candleRow (by omega), milliseconds_toString (by omega) (by omega)] at hread
    obtain ⟨openMs, hopen, -⟩ := Columns.bind_eq_ok.mp hread
    rcases timestampToMilliseconds_eq_ok.mp hopen with ⟨hmicros, -⟩ | ⟨hfirst, -⟩
    · omega
    · omega
  · omega

theorem openTime_of_parseKlineRow {values : List String} {raw : KlineRecord}
    (h : parseKlineRow u values = .ok (some raw)) : 1000000000000 ≤ raw.openTime := by
  unfold parseKlineRow at h
  split at h
  · cases h
  · split at h
    · cases h
    · obtain ⟨openMs, hopen, h⟩ := Columns.bind_eq_ok.mp h
      obtain ⟨closeMs, -, h⟩ := Columns.bind_eq_ok.mp h
      cases h
      unfold milliseconds at hopen
      split at hopen
      · cases hopen
      · rcases timestampToMilliseconds_eq_ok.mp hopen with ⟨hmicros, rfl⟩ | ⟨hfirst, -, rfl⟩
        · simp only
          omega
        · exact hfirst
  · cases h

theorem parseKlineZip_eq_ok {table : List (List String)} {records : List KlineRecord} :
    parseKlineZip u (.ok [.ok table]) = .ok records ↔
      ∃ parsed, table.mapM (parseKlineRow u) = .ok parsed ∧ records = parsed.filterMap id := by
  constructor
  · intro h
    obtain ⟨members, hmembers, h⟩ := Columns.bind_eq_ok.mp h
    cases hmembers
    simp only at h
    obtain ⟨rows, hrows, h⟩ := Columns.bind_eq_ok.mp h
    cases hrows
    obtain ⟨parsed, hparsed, h⟩ := Columns.bind_eq_ok.mp h
    cases h
    exact ⟨parsed, hparsed, rfl⟩
  · rintro ⟨parsed, hparsed, rfl⟩
    refine Columns.bind_eq_ok.mpr ⟨_, rfl, ?_⟩
    simp only
    exact Columns.bind_eq_ok.mpr ⟨table, rfl, Columns.bind_eq_ok.mpr ⟨parsed, hparsed, rfl⟩⟩

theorem mem_parsed_iff {table : List (List String)} {parsed : List (Option KlineRecord)}
    (h : table.mapM (parseKlineRow u) = .ok parsed) (raw : KlineRecord) :
    raw ∈ parsed.filterMap id ↔ ∃ values ∈ table, parseKlineRow u values = .ok (some raw) := by
  rw [List.mem_filterMap]
  constructor
  · rintro ⟨found, hfound, rfl⟩
    exact Columns.exists_of_forall₂_right (Columns.mapM_eq_ok_iff.mp h) hfound
  · rintro ⟨values, hvalues, hread⟩
    obtain ⟨found, hfound, hread'⟩ :=
      Columns.exists_of_forall₂_left (Columns.mapM_eq_ok_iff.mp h) hvalues
    obtain rfl : some raw = found := Except.ok.inj (hread.symm.trans hread')
    exact ⟨some raw, hfound, rfl⟩

def CandleOf (durationMs : ℤ) (candle : ℤ → Kline) (period : ArchivePeriod) (raw : KlineRecord) :
    Prop :=
  ∃ openMs, OpensIn durationMs period openMs ∧ raw = candleRecord durationMs candle openMs

theorem OpensIn.bounded {d t : ℤ} {period : ArchivePeriod} (h : OpensIn d period t)
    (hdated : Dated d period) : 1000000000000 ≤ t ∧ t + d ≤ 900000000000000 := by
  have hfirst := hdated.first t h
  obtain ⟨-, hbefore, hmod⟩ := h
  have hlast := hdated.last
  have hle : d ≤ t := Int.le_of_dvd (by omega) (Int.dvd_of_emod_eq_zero hmod)
  omega

theorem exists_records {d : ℤ} {candle : ℤ → Kline} {period : ArchivePeriod}
    {table : List (List String)} (hd : 0 < d) (hdated : Dated d period)
    (h : HoldsCandles u d candle period table) :
    ∃ records, parseKlineZip u (.ok [.ok table]) = .ok records ∧
      ∀ raw, raw ∈ records ↔ CandleOf d candle period raw := by
  have hcandle : ∀ t values, OpensIn d period t → RowOf d candle t values →
      parseKlineRow u values = .ok (some (candleRecord d candle t)) := by
    intro t values hopens hrow
    obtain ⟨hfirst, hlast⟩ := hopens.bounded hdated
    exact parseKlineRow_of_rowOf hd hfirst hlast hrow
  have hread : ∀ values ∈ table, parseKlineRow u values = .ok none ∨
      ∃ t, OpensIn d period t ∧ parseKlineRow u values = .ok (some (candleRecord d candle t)) := by
    intro values hvalues
    rcases h.rows values hvalues with rfl | ⟨hlength, hheading⟩ | ⟨t, hopens, hrow⟩
    · exact .inl rfl
    · left
      exact parseKlineRow_heading hlength hheading
    · exact .inr ⟨t, hopens, hcandle t values hopens hrow⟩
  obtain ⟨parsed, hparsed, -⟩ : ∃ parsed, table.mapM (parseKlineRow u) = .ok parsed ∧
      ∀ found ∈ parsed, True := by
    refine Columns.exists_mapM_ok fun values hvalues => ?_
    rcases hread values hvalues with hnone | ⟨t, -, hsome⟩
    · exact ⟨none, hnone, trivial⟩
    · exact ⟨_, hsome, trivial⟩
  refine ⟨_, parseKlineZip_eq_ok.mpr ⟨parsed, hparsed, rfl⟩, fun raw => ?_⟩
  rw [mem_parsed_iff hparsed]
  constructor
  · rintro ⟨values, hvalues, hraw⟩
    rcases hread values hvalues with hnone | ⟨t, hopens, hsome⟩
    · rw [hnone] at hraw
      cases hraw
    · rw [hsome] at hraw
      cases hraw
      exact ⟨t, hopens, rfl⟩
  · rintro ⟨t, hopens, rfl⟩
    obtain ⟨values, hvalues, hrow⟩ := h.every t hopens
    exact ⟨values, hvalues, hcandle t values hopens hrow⟩

theorem readItem_of_supplies {d : ℤ} {candle : ℤ → Kline} {period : ArchivePeriod}
    {item : ArchiveFetch} (hd : 0 < d) (hdated : Dated d period)
    (h : SuppliesPeriod u fetch requirement d candle period item) {object : ArchiveObject}
    (hobject : archiveObject u requirement.archiveMarket requirement.symbol requirement.timeframe
      period = .ok object) :
    ∃ records, readItem u item = .ok (records, sourceOf item object) ∧
      ∀ raw, raw ∈ records ↔ CandleOf d candle period raw := by
  obtain ⟨table, hpath, htable⟩ := h.rows
  obtain ⟨records, hparse, hrecords⟩ := exists_records hd hdated htable
  refine ⟨records, ?_, hrecords⟩
  simp only [readItem, h.market, h.symbol, h.interval, h.partition, hobject, h.status, hpath, hparse]
  rfl

theorem of_readItem {d : ℤ} {candle : ℤ → Kline} {period : ArchivePeriod} {item : ArchiveFetch}
    (h : SuppliesPeriod u fetch requirement d candle period item)
    {found : List KlineRecord × Source} (hread : readItem u item = .ok found) :
    (∃ object, archiveObject u requirement.archiveMarket requirement.symbol requirement.timeframe
        period = .ok object) ∧
      ∃ table parsed, HoldsCandles u d candle period table ∧
        table.mapM (parseKlineRow u) = .ok parsed ∧ found.1 = parsed.filterMap id := by
  obtain ⟨table, hpath, htable⟩ := h.rows
  obtain ⟨object, hobject, hread⟩ := Columns.bind_eq_ok.mp hread
  rw [h.market, h.symbol, h.interval, h.partition] at hobject
  constructor
  · cases hname : archiveObject u requirement.archiveMarket requirement.symbol requirement.timeframe
        period with
    | ok object => exact ⟨object, rfl⟩
    | error error =>
      rw [hname] at hobject
      cases hobject
  · simp only [h.status, hpath] at hread
    cases hparse : parseKlineZip u (.ok [.ok table]) with
    | ok records =>
      rw [hparse] at hread
      cases hread
      obtain ⟨parsed, hparsed, rfl⟩ := parseKlineZip_eq_ok.mp hparse
      exact ⟨table, parsed, htable, hparsed, rfl⟩
    | error error =>
      rw [hparse] at hread
      cases hread

theorem first_of_readItem {d : ℤ} {candle : ℤ → Kline} {period : ArchivePeriod}
    {item : ArchiveFetch} (h : SuppliesPeriod u fetch requirement d candle period item)
    {found : List KlineRecord × Source} (hread : readItem u item = .ok found) {t : ℤ}
    (hopens : OpensIn d period t) (hnonneg : 0 ≤ t) : 1000000000000 ≤ t := by
  obtain ⟨-, table, parsed, htable, hparsed, -⟩ := of_readItem h hread
  obtain ⟨values, hvalues, hrow⟩ := htable.every t hopens
  obtain ⟨record, -, hrecord⟩ :=
    Columns.exists_of_forall₂_left (Columns.mapM_eq_ok_iff.mp hparsed) hvalues
  exact first_of_parseKlineRow hnonneg hrow hrecord

theorem openTime_of_readItem {d : ℤ} {candle : ℤ → Kline} {period : ArchivePeriod}
    {item : ArchiveFetch} (h : SuppliesPeriod u fetch requirement d candle period item)
    {found : List KlineRecord × Source} (hread : readItem u item = .ok found) {raw : KlineRecord}
    (hraw : raw ∈ found.1) : 1000000000000 ≤ raw.openTime := by
  obtain ⟨-, table, parsed, -, hparsed, hfound⟩ := of_readItem h hread
  rw [hfound] at hraw
  obtain ⟨values, -, hvalues⟩ := (mem_parsed_iff hparsed raw).mp hraw
  exact openTime_of_parseKlineRow hvalues

theorem mem_read_iff {d : ℤ} {candle : ℤ → Kline} {periods : List ArchivePeriod}
    {fetched : List ArchiveFetch} {read : List (List KlineRecord × Source)} (hd : 0 < d)
    (hdated : ∀ period ∈ periods, Dated d period) (h : Supplies u fetch requirement d candle periods)
    (hfetched : periods.mapM (fetchPeriod fetch requirement) = .ok fetched)
    (hread : fetched.mapM (readItem u) = .ok read) (raw : KlineRecord) :
    raw ∈ (read.map Prod.fst).flatten ↔ ∃ period ∈ periods, CandleOf d candle period raw := by
  induction periods generalizing fetched read with
  | nil =>
    cases hfetched
    cases hread
    simp
  | cons period periods ih =>
    obtain ⟨item, items, hitem, hitems, rfl⟩ := Columns.mapM_cons_eq_ok.mp hfetched
    obtain ⟨found, rest, hfound, hrest, rfl⟩ := Columns.mapM_cons_eq_ok.mp hread
    obtain ⟨supplied, hsupplied⟩ := h period List.mem_cons_self
    obtain rfl : item = supplied := Except.ok.inj (hitem.symm.trans hsupplied.fetched)
    obtain ⟨⟨object, hobject⟩, -⟩ := of_readItem hsupplied hfound
    obtain ⟨records, hrecords, hmem⟩ :=
      readItem_of_supplies hd (hdated period List.mem_cons_self) hsupplied hobject
    obtain rfl : found = (records, sourceOf item object) :=
      Except.ok.inj (hfound.symm.trans hrecords)
    have htail := ih (fun other hother => hdated other (List.mem_cons_of_mem _ hother))
      (fun other hother => h other (List.mem_cons_of_mem _ hother)) hitems hrest
    rw [List.map_cons, List.flatten_cons, List.mem_append, htail, hmem]
    simp

theorem exists_read {d : ℤ} {candle : ℤ → Kline} {periods : List ArchivePeriod} (hd : 0 < d)
    (hdated : ∀ period ∈ periods, Dated d period) (h : Supplies u fetch requirement d candle periods)
    (hnames : ∀ period ∈ periods, ∃ object, archiveObject u requirement.archiveMarket
      requirement.symbol requirement.timeframe period = .ok object) :
    ∃ fetched read, periods.mapM (fetchPeriod fetch requirement) = .ok fetched ∧
      fetched.mapM (readItem u) = .ok read := by
  induction periods with
  | nil => exact ⟨[], [], rfl, rfl⟩
  | cons period periods ih =>
    obtain ⟨item, hitem⟩ := h period List.mem_cons_self
    obtain ⟨object, hobject⟩ := hnames period List.mem_cons_self
    obtain ⟨records, hrecords, -⟩ :=
      readItem_of_supplies hd (hdated period List.mem_cons_self) hitem hobject
    obtain ⟨fetched, read, hfetched, hread⟩ :=
      ih (fun other hother => hdated other (List.mem_cons_of_mem _ hother))
        (fun other hother => h other (List.mem_cons_of_mem _ hother))
        fun other hother => hnames other (List.mem_cons_of_mem _ hother)
    exact ⟨item :: fetched, _ :: read,
      Columns.mapM_cons_eq_ok.mpr ⟨item, fetched, hitem.fetched, hfetched, rfl⟩,
      Columns.mapM_cons_eq_ok.mpr ⟨_, read, hrecords, hread, rfl⟩⟩

theorem exists_readItem {d : ℤ} {candle : ℤ → Kline} {periods : List ArchivePeriod}
    {fetched : List ArchiveFetch} {read : List (List KlineRecord × Source)}
    (h : Supplies u fetch requirement d candle periods)
    (hfetched : periods.mapM (fetchPeriod fetch requirement) = .ok fetched)
    (hread : fetched.mapM (readItem u) = .ok read) {period : ArchivePeriod}
    (hperiod : period ∈ periods) :
    ∃ item found, SuppliesPeriod u fetch requirement d candle period item ∧
      readItem u item = .ok found := by
  obtain ⟨item, hitem⟩ := h period hperiod
  obtain ⟨fetchedItem, hmem, hfetchedItem⟩ :=
    Columns.exists_of_forall₂_left (Columns.mapM_eq_ok_iff.mp hfetched) hperiod
  obtain rfl : item = fetchedItem := Except.ok.inj (hitem.fetched.symm.trans hfetchedItem)
  obtain ⟨found, -, hfound⟩ :=
    Columns.exists_of_forall₂_left (Columns.mapM_eq_ok_iff.mp hread) hmem
  exact ⟨item, found, hitem, hfound⟩

theorem openTime_of_read {d : ℤ} {candle : ℤ → Kline} {periods : List ArchivePeriod}
    {fetched : List ArchiveFetch} {read : List (List KlineRecord × Source)}
    (h : Supplies u fetch requirement d candle periods)
    (hfetched : periods.mapM (fetchPeriod fetch requirement) = .ok fetched)
    (hread : fetched.mapM (readItem u) = .ok read) {raw : KlineRecord}
    (hraw : raw ∈ (read.map Prod.fst).flatten) : 1000000000000 ≤ raw.openTime := by
  obtain ⟨records, hrecords, hmem⟩ := List.mem_flatten.mp hraw
  obtain ⟨found, hfound, rfl⟩ := List.mem_map.mp hrecords
  obtain ⟨item, hitem, hread⟩ :=
    Columns.exists_of_forall₂_right (Columns.mapM_eq_ok_iff.mp hread) hfound
  obtain ⟨period, hperiod, hfetch⟩ :=
    Columns.exists_of_forall₂_right (Columns.mapM_eq_ok_iff.mp hfetched) hitem
  obtain ⟨supplied, hsupplied⟩ := h period hperiod
  obtain rfl : item = supplied := Except.ok.inj (hfetch.symm.trans hsupplied.fetched)
  exact openTime_of_readItem hsupplied hread hmem

theorem timeframe_spelled {timeframe : String} {seconds : ℤ}
    (h : timeframeDuration timeframe = .ok seconds) :
    ∃ digits unit, timeframe.toList = digits ++ [unit] ∧ digits ≠ [] ∧
      digits.all Char.isDigit = true ∧ (unit = 'm' ∨ unit = 'h' ∨ unit = 'd') := by
  unfold timeframeDuration at h
  split at h
  · rename_i unit count hunit hcount
    obtain ⟨c, hc, hseconds⟩ := Option.bind_eq_some_iff.mp hunit
    refine ⟨timeframe.toList.dropLast, c, ?_, ?_, ?_, ?_⟩
    · exact (List.dropLast_append_getLast? c hc).symm
    · rintro hempty
      rw [hempty] at hcount
      cases hcount
    · unfold countOf at hcount
      split_ifs at hcount with hdigits
      exact hdigits.2
    · unfold unitSeconds at hseconds
      split at hseconds
      · exact .inl rfl
      · exact .inr (.inl rfl)
      · exact .inr (.inr rfl)
      · cases hseconds
  · cases h

theorem isDigit_lt {c : Char} (h : c.isDigit = true) : c.toNat < 128 ∧ c ≠ 'm' ∧ c ≠ 'h' := by
  have hrange : c.val ≤ 57 := by
    simp only [Char.isDigit, Bool.and_eq_true, decide_eq_true_eq] at h
    exact h.2
  have hle : c.toNat ≤ '9'.toNat := hrange
  have hnine : '9'.toNat = 57 := rfl
  refine ⟨by omega, ?_, ?_⟩ <;> (rintro rfl; revert h; decide)

theorem isdigit_withoutUnits_iff {timeframe : String} {seconds : ℤ}
    (h : timeframeDuration timeframe = .ok seconds) :
    u.isdigit (withoutUnits timeframe) = true ↔ timeframe.toList.getLast? ≠ some 'd' := by
  obtain ⟨digits, unit, hspelled, hne, hall, hunit⟩ := timeframe_spelled h
  have hkeep : digits.filter (fun c => c ≠ 'm' ∧ c ≠ 'h') = digits := by
    rw [List.filter_eq_self]
    intro c hc
    obtain ⟨-, hm, hh⟩ := isDigit_lt (List.all_eq_true.mp hall c hc)
    exact decide_eq_true ⟨hm, hh⟩
  have hdigits : ∀ c ∈ digits, (if c.toNat < 128 then c.isDigit else u.digit c) = true := by
    intro c hc
    have hdigit := List.all_eq_true.mp hall c hc
    rw [if_pos (isDigit_lt hdigit).1]
    exact hdigit
  have hdigit : u.isdigit digits = true := by
    simp only [Unicode.isdigit, Bool.and_eq_true, decide_eq_true_eq, List.all_eq_true]
    exact ⟨hne, hdigits⟩
  rw [withoutUnits, hspelled, List.filter_append, hkeep, List.getLast?_append]
  rcases hunit with rfl | rfl | rfl
  · simpa using hdigit
  · simpa using hdigit
  · refine iff_of_false (fun hbad => ?_) (by simp)
    simp only [Unicode.isdigit, Bool.and_eq_true, List.all_eq_true] at hbad
    have hlast := hbad.2 'd' (by simp)
    rw [if_pos (by decide)] at hlast
    exact absurd hlast (by decide)

theorem isalnum_of_isSymbol {symbol : String} (h : isSymbol symbol = true) :
    u.isalnum symbol = true := by
  simp only [isSymbol, Bool.and_eq_true, decide_eq_true_eq, List.all_eq_true] at h
  obtain ⟨⟨hlength, -⟩, hall⟩ := h
  simp only [Unicode.isalnum, Bool.and_eq_true, decide_eq_true_eq, List.all_eq_true]
  constructor
  · rintro rfl
    simp at hlength
  · intro c hc
    have hrange := hall c hc
    simp only [Bool.or_eq_true, Bool.and_eq_true, decide_eq_true_eq] at hrange
    have hlt : c.toNat < 128 := by
      rcases hrange with ⟨-, hle⟩ | ⟨-, hle⟩
      · have hle' : c.toNat ≤ 'Z'.toNat := hle
        have hz : 'Z'.toNat = 90 := rfl
        omega
      · have hle' : c.toNat ≤ '9'.toNat := hle
        have hnine : '9'.toNat = 57 := rfl
        omega
    rw [if_pos hlt]
    rcases hrange with ⟨hlow, hhigh⟩ | ⟨hlow, hhigh⟩
    · have hupper : c.isUpper = true := decide_eq_true ⟨hlow, hhigh⟩
      have halpha : c.isAlpha = true := Bool.or_eq_true_iff.mpr (.inl hupper)
      exact Bool.or_eq_true_iff.mpr (.inl halpha)
    · have hdigit : c.isDigit = true :=
        Bool.and_eq_true_iff.mpr ⟨decide_eq_true hlow, decide_eq_true hhigh⟩
      exact Bool.or_eq_true_iff.mpr (.inr hdigit)

theorem exists_archiveObject_iff (h : Accepted requirement) (period : ArchivePeriod) :
    (∃ object, archiveObject u requirement.archiveMarket requirement.symbol requirement.timeframe
      period = .ok object) ↔ requirement.timeframe.toList.getLast? ≠ some 'd' := by
  obtain ⟨seconds, hseconds, -⟩ := h.warmup
  rw [← isdigit_withoutUnits_iff (u := u) hseconds]
  unfold archiveObject
  by_cases hbad : ¬ u.isalnum requirement.symbol = true ∨
      ¬ u.isdigit (withoutUnits requirement.timeframe) = true
  · rw [if_pos hbad]
    refine iff_of_false (by simp) ?_
    exact hbad.resolve_left (not_not.mpr (isalnum_of_isSymbol h.symbol))
  · rw [if_neg hbad]
    rw [not_or, not_not, not_not] at hbad
    exact iff_of_true ⟨_, rfl⟩ hbad.2

theorem ratRound_bounds {x : ℚ} {low high : ℤ} (hlow : (low : ℚ) ≤ x) (hhigh : x ≤ high) :
    low ≤ FloatArith.ratRound x ∧ FloatArith.ratRound x ≤ high := by
  have hfloor : low ≤ ⌊x⌋ := Int.le_floor.mpr hlow
  have hfloor' : ⌊x⌋ ≤ high := by
    exact_mod_cast (Int.floor_le x).trans hhigh
  have hup : (1 / 2 : ℚ) ≤ x - ⌊x⌋ → ⌊x⌋ + 1 ≤ high := by
    intro hrest
    have hlt : ((⌊x⌋ : ℤ) : ℚ) < high := by linarith
    have hlt' : ⌊x⌋ < high := by exact_mod_cast hlt
    omega
  unfold FloatArith.ratRound
  simp only
  split_ifs with hless hmore heven
  · exact ⟨hfloor, hfloor'⟩
  · exact ⟨by omega, hup hmore.le⟩
  · exact ⟨hfloor, hfloor'⟩
  · exact ⟨by omega, hup (not_lt.mp hless)⟩

theorem exists_epochMsIso {ms low high : ℤ} (hlow : low * 1000 ≤ ms) (hhigh : ms ≤ high * 1000)
    (hlow' : Representable (low * 1000000)) (hhigh' : Representable (high * 1000000)) :
    ∃ text, epochMsIso f ms = .ok text := by
  have hexact : ∀ {n : ℤ}, Representable (n * 1000000) → f.round n = n := by
    intro n hn
    apply f.exact
    unfold Representable at hn
    rw [abs_le]
    omega
  have hround : ∀ {n : ℤ}, ((n : ℚ) * 1000000) = ((n * 1000000 : ℤ) : ℚ) := by
    intro n
    push_cast
    ring
  have hfirst : ((low * 1000000 : ℤ) : ℚ) ≤ f.round (ms / 1000) * 1000000 := by
    rw [← hround, ← hexact hlow']
    refine mul_le_mul_of_nonneg_right (f.mono ?_) (by norm_num)
    rw [le_div_iff₀ (by norm_num)]
    exact_mod_cast hlow
  have hlast : f.round (ms / 1000) * 1000000 ≤ ((high * 1000000 : ℤ) : ℚ) := by
    rw [← hround, ← hexact hhigh']
    refine mul_le_mul_of_nonneg_right (f.mono ?_) (by norm_num)
    rw [div_le_iff₀ (by norm_num)]
    exact_mod_cast hhigh
  obtain ⟨hge, hle⟩ := ratRound_bounds hfirst hlast
  refine ⟨_, if_pos ?_⟩
  unfold Representable at hlow' hhigh' ⊢
  omega

theorem exists_normalizedRow {d t : ℤ} (candle : ℤ → Kline) (hd : 0 < d) (hd' : d % 1000 = 0)
    (ht : t % 1000 = 0) (hfirst : requirement.dataStart ≤ t * 1000)
    (hlast : (t + d) * 1000 ≤ requirement.selectionEnd) :
    ∃ row, normalizedRow f requirement (candleRecord d candle t) = .ok row := by
  have hstart := requirement.dataStart_representable
  have hend := requirement.selectionEnd_representable
  unfold Representable at hstart hend
  have hlow : Representable (t / 1000 * 1000000) := by
    unfold Representable
    omega
  have hhigh : Representable ((t + d) / 1000 * 1000000) := by
    unfold Representable
    omega
  have htext : ∀ ms, t ≤ ms → ms ≤ t + d → ∃ text, epochMsIso f ms = .ok text := by
    intro ms hge hle
    exact exists_epochMsIso (by omega) (by omega) hlow hhigh
  obtain ⟨openText, hopen⟩ := htext t le_rfl (by omega)
  obtain ⟨closeText, hclose⟩ := htext (t + d - 1) (by omega) (by omega)
  obtain ⟨availableText, havailable⟩ := htext (t + d - 1 + 1) (by omega) (by omega)
  simp only [normalizedRow, candleRecord, hopen, hclose, havailable]
  exact ⟨_, rfl⟩

theorem mem_progression {start d : ℤ} {n : ℕ} {t : ℤ} :
    t ∈ progression start d n ↔ ∃ k < n, t = start + k * d := by
  rw [List.mem_iff_getElem?]
  constructor
  · rintro ⟨k, hk⟩
    have hlt : k < n := by
      have := (List.getElem?_eq_some_iff.mp hk).1
      rwa [length_progression] at this
    rw [getElem?_progression _ _ hlt] at hk
    exact ⟨k, hlt, (Option.some.inj hk).symm⟩
  · rintro ⟨k, hlt, rfl⟩
    exact ⟨k, getElem?_progression _ _ hlt⟩

theorem pairwise_progression {d : ℤ} (hd : 0 < d) (start : ℤ) (n : ℕ) :
    (progression start d n).Pairwise (· < ·) := by
  induction n generalizing start with
  | zero => exact List.Pairwise.nil
  | succ n ih =>
    refine List.pairwise_cons.mpr ⟨fun t ht => ?_, ih (start + d)⟩
    obtain ⟨k, -, rfl⟩ := mem_progression.mp ht
    have : 0 ≤ (k : ℤ) * d := by positivity
    omega

theorem mem_progression_iff {start d last : ℤ} {n : ℕ} (hd : 0 < d) (hstart : start % d = 0)
    (hlast : last = start + n * d) {t : ℤ} :
    t ∈ progression start d n ↔ start ≤ t ∧ t < last ∧ t % d = 0 := by
  rw [mem_progression]
  constructor
  · rintro ⟨k, hk, rfl⟩
    have hnonneg : 0 ≤ (k : ℤ) * d := by positivity
    have hlt : (k : ℤ) * d < n * d := mul_lt_mul_of_pos_right (by exact_mod_cast hk) hd
    exact ⟨by omega, by omega, by rw [Int.add_mul_emod_self_right, hstart]⟩
  · rintro ⟨hfirst, hbefore, haligned⟩
    obtain ⟨q, hq⟩ : d ∣ t - start :=
      Int.dvd_sub (Int.dvd_of_emod_eq_zero haligned) (Int.dvd_of_emod_eq_zero hstart)
    have hq0 : 0 ≤ q := by
      by_contra hneg
      have : d * q ≤ d * (-1) := mul_le_mul_of_nonneg_left (by omega) hd.le
      omega
    have hqn : q < n := by
      by_contra hge
      have : d * n ≤ d * q := mul_le_mul_of_nonneg_left (by omega) hd.le
      have hcomm : d * (n : ℤ) = n * d := mul_comm _ _
      omega
    refine ⟨q.toNat, by omega, ?_⟩
    rw [Int.toNat_of_nonneg hq0, mul_comm q d, ← hq]
    ring

theorem mapM_filterMap {α β ε : Type} {g : α → Option β} {h : α → Except ε β} {xs : List α}
    (hall : ∀ x ∈ xs, ∃ y, g x = some y ∧ h x = .ok y) : xs.mapM h = .ok (xs.filterMap g) := by
  induction xs with
  | nil => rfl
  | cons x xs ih =>
    obtain ⟨y, hg, hh⟩ := hall x List.mem_cons_self
    rw [List.filterMap_cons_some hg]
    exact Columns.mapM_cons_eq_ok.mpr
      ⟨y, _, hh, ih fun other hother => hall other (List.mem_cons_of_mem _ hother), rfl⟩

theorem materialize_eq_serve {serve : Serve} {fetched : List ArchiveFetch}
    {rows : List NormalizedRow} {sources : List Source}
    (hfetched : (archivePeriods requirement).mapM (fetchPeriod fetch requirement) = .ok fetched)
    (hnormalized : normalizeArchives u f requirement fetched = .ok (rows, sources))
    (hlength : ¬ rows.length < requirement.warmupCandles) :
    materialize u f fetch requirement serve = serve rows sources := by
  unfold materialize
  rw [hfetched]
  simp only [bind, Except.bind]
  rw [hnormalized]
  simp only
  rw [if_neg hlength]

theorem normalized_of_materialize {serve : Serve}
    {version : VersionedMarketDataService.DatasetVersion}
    (h : materialize u f fetch requirement serve = .ok version) :
    ∃ fetched rows sources,
      (archivePeriods requirement).mapM (fetchPeriod fetch requirement) = .ok fetched ∧
      normalizeArchives u f requirement fetched = .ok (rows, sources) ∧
      ¬ rows.length < requirement.warmupCandles := by
  unfold materialize at h
  obtain ⟨fetched, hfetched, h⟩ := Columns.bind_eq_ok.mp h
  obtain ⟨⟨rows, sources⟩, hnormalized, h⟩ := Columns.bind_eq_ok.mp h
  simp only at h
  split at h
  · cases h
  · rename_i hlength
    exact ⟨fetched, rows, sources, hfetched, hnormalized, hlength⟩

/-- The service is handed exactly the candles that open in the range, in their order. -/
def Complete (u : Unicode) (f : Doubles) (fetch : ArchiveFetcher)
    (requirement : StrategyDatasetRequirement) (durationMs : ℤ) (candle : ℤ → Kline) : Prop :=
  ∃ (opens : List ℤ) (rows : List NormalizedRow) (sources : List Source),
    opens.Pairwise (· < ·) ∧
    (∀ t, t ∈ opens ↔ requirement.dataStart ≤ t * 1000 ∧ t * 1000 < requirement.selectionEnd ∧
      t % durationMs = 0) ∧
    opens.mapM (fun t => normalizedRow f requirement (candleRecord durationMs candle t)) = .ok rows ∧
    ∀ serve, materialize u f fetch requirement serve = serve rows sources

/-- Where the pieces fit together: the timeframe counts minutes or hours, the last candle opens
before the day in which the range ends, the evaluation starts after the warm-up and before the end,
and no candle of the archives is older than 2001-09-09T01:46:40Z. -/
structure Materializes (requirement : StrategyDatasetRequirement) (seconds : ℤ) : Prop where
  unit : requirement.timeframe.toList.getLast? ≠ some 'd'
  lastDay : (requirement.selectionEnd - seconds * 1000000) / 86400000000 <
    requirement.selectionEnd / 86400000000
  warmup : requirement.selectionStart ≤ requirement.selectionEnd
  dated : ∀ period ∈ archivePeriods requirement, ∀ openMs, OpensIn (seconds * 1000) period openMs →
    1000000000000 ≤ openMs

/-- The bounds stand on candle boundaries. -/
structure OnBoundaries (requirement : StrategyDatasetRequirement) (seconds : ℤ) : Prop where
  start : requirement.selectionStart % (seconds * 1000000) = 0
  last : requirement.selectionEnd % (seconds * 1000000) = 0

structure Times (f : Doubles) (requirement : StrategyDatasetRequirement) (seconds : ℤ) (n : ℕ) :
    Prop where
  duration : toMs f (seconds * 1000000) = seconds * 1000
  start : toMs f requirement.dataStart * 1000 = requirement.dataStart
  last : toMs f requirement.selectionEnd * 1000 = requirement.selectionEnd
  aligned : toMs f requirement.dataStart % (seconds * 1000) = 0
  nonempty : 0 < n
  count : toMs f requirement.selectionEnd = toMs f requirement.dataStart + n * (seconds * 1000)

theorem Accepted.exists_times (h : Accepted requirement) {seconds : ℤ}
    (hseconds : timeframeDuration requirement.timeframe = .ok seconds)
    (haligned : OnBoundaries requirement seconds) : ∃ n, Times f requirement seconds n := by
  have hpos := (timeframeDuration_spec hseconds).1
  obtain ⟨seconds', hseconds', hwarmup⟩ := h.warmup
  obtain rfl : seconds = seconds' := Except.ok.inj (hseconds.symm.trans hseconds')
  have hstartDvd : seconds * 1000000 ∣ requirement.dataStart := by
    have hdvd := Int.dvd_of_emod_eq_zero haligned.start
    rw [hwarmup] at hdvd
    exact (Int.dvd_add_left (Int.dvd_mul_left _ _)).mp hdvd
  obtain ⟨a, ha⟩ := hstartDvd
  obtain ⟨b, hb⟩ := Int.dvd_of_emod_eq_zero haligned.last
  have hlt : a < b := by
    by_contra hle
    have : seconds * 1000000 * b ≤ seconds * 1000000 * a :=
      mul_le_mul_of_nonneg_left (by omega) (by omega)
    have := h.bounds
    omega
  have hstart := toMs_of_seconds (f := f) requirement.dataStart_representable (by
    rw [ha, mul_comm seconds, mul_assoc, Int.mul_emod_right])
  have hlast := toMs_of_seconds (f := f) requirement.selectionEnd_representable (by
    rw [hb, mul_comm seconds, mul_assoc, Int.mul_emod_right])
  have hstartMs : toMs f requirement.dataStart = seconds * 1000 * a := by
    have : seconds * 1000000 * a = seconds * 1000 * a * 1000 := by ring
    omega
  have hlastMs : toMs f requirement.selectionEnd = seconds * 1000 * b := by
    have : seconds * 1000000 * b = seconds * 1000 * b * 1000 := by ring
    omega
  have hspan : seconds * 1000 * b = seconds * 1000 * a + seconds * 1000 * (b - a) := by ring
  refine ⟨(b - a).toNat, ?_, hstart, hlast, ?_, by omega, ?_⟩
  · apply toMs_seconds
    have hshort : seconds * 1000 * 1 ≤ seconds * 1000 * (b - a) :=
      mul_le_mul_of_nonneg_left (by omega) (by omega)
    have hlow := requirement.dataStart_representable
    have hhigh := requirement.selectionEnd_representable
    unfold Representable at hlow hhigh
    rw [abs_le]
    omega
  · rw [hstartMs, Int.mul_emod_right]
  · rw [hstartMs, hlastMs, hspan, Int.toNat_of_nonneg (by omega)]
    ring

theorem Times.warmup_le_iff {seconds : ℤ} {n : ℕ} (htimes : Times f requirement seconds n)
    (h : Accepted requirement) (hseconds : timeframeDuration requirement.timeframe = .ok seconds) :
    requirement.selectionStart ≤ requirement.selectionEnd ↔ requirement.warmupCandles ≤ n := by
  have hpos := (timeframeDuration_spec hseconds).1
  obtain ⟨seconds', hseconds', hwarmup⟩ := h.warmup
  obtain rfl : seconds = seconds' := Except.ok.inj (hseconds.symm.trans hseconds')
  have hstart := htimes.start
  have hlast := htimes.last
  have hcount := htimes.count
  have hspan : (n : ℤ) * (seconds * 1000000) = n * (seconds * 1000) * 1000 := by ring
  have hend : requirement.selectionEnd = requirement.dataStart + n * (seconds * 1000000) := by omega
  rw [hwarmup, hend, add_le_add_iff_left]
  constructor
  · intro hle
    exact_mod_cast le_of_mul_le_mul_right hle (by omega : 0 < seconds * 1000000)
  · intro hle
    exact mul_le_mul_of_nonneg_right (by exact_mod_cast hle) (by omega)

theorem last_le_of_mem_archivePeriods {period : ArchivePeriod}
    (h : period ∈ archivePeriods requirement) : period.last ≤ 2932896 := by
  obtain ⟨-, -, hlast⟩ := mem_iterArchivePeriods h
  have hend := requirement.selectionEnd_representable.2
  omega

theorem Materializes.dated_archivePeriods {seconds : ℤ} (h : Materializes requirement seconds) :
    ∀ period ∈ archivePeriods requirement, Dated (seconds * 1000) period := fun period hperiod =>
  ⟨h.dated period hperiod, last_le_of_mem_archivePeriods hperiod⟩

theorem day_nonneg_of_mem_archivePeriods (hstart : 0 ≤ requirement.dataStart)
    {period : ArchivePeriod} (h : period ∈ archivePeriods requirement) : 0 ≤ period.day := by
  obtain ⟨hfirst, -⟩ := mem_iterArchivePeriods h
  have hdate : 0 ≤ requirement.dataStart / 86400000000 := by omega
  have hmonth := (monthIndex_spec (requirement.dataStart / 86400000000)).2
  have hepoch : monthStart 23640 = 0 := by decide +kernel
  refine le_trans ?_ hfirst
  rw [firstOfMonth, ← hepoch]
  apply monthStart_strictMono.monotone
  by_contra hearlier
  have hle : monthStart (monthIndex (requirement.dataStart / 86400000000) + 1) ≤
      monthStart 23640 := monthStart_strictMono.monotone (by omega)
  omega

abbrev rangeEntry (f : Doubles) (requirement : StrategyDatasetRequirement) (durationMs : ℤ) :
    KlineRecord → Except DataError (Option (ℤ × NormalizedRow)) :=
  candleEntry f requirement durationMs (toMs f requirement.dataStart)
    (toMs f requirement.selectionEnd)

/-- The open times of the `n` candles of a range. -/
abbrev rangeOpens (f : Doubles) (requirement : StrategyDatasetRequirement) (durationMs : ℤ)
    (n : ℕ) : List ℤ :=
  progression (toMs f requirement.dataStart) durationMs n

theorem Times.mem_rangeOpens_iff {seconds : ℤ} {n : ℕ} (htimes : Times f requirement seconds n)
    (hpos : 0 < seconds) (t : ℤ) : t ∈ rangeOpens f requirement (seconds * 1000) n ↔
      toMs f requirement.dataStart ≤ t ∧ t < toMs f requirement.selectionEnd ∧
        t % (seconds * 1000) = 0 :=
  mem_progression_iff (by omega) htimes.aligned htimes.count

theorem Times.close_le {seconds : ℤ} {n : ℕ} (htimes : Times f requirement seconds n)
    (hpos : 0 < seconds) {t : ℤ} (ht : t ∈ rangeOpens f requirement (seconds * 1000) n) :
    t + seconds * 1000 ≤ toMs f requirement.selectionEnd := by
  obtain ⟨k, hk, rfl⟩ := mem_progression.mp ht
  have hle : ((k : ℤ) + 1) * (seconds * 1000) ≤ n * (seconds * 1000) :=
    mul_le_mul_of_nonneg_right (by omega) (by omega)
  have hcount := htimes.count
  have hsplit : ((k : ℤ) + 1) * (seconds * 1000) = k * (seconds * 1000) + seconds * 1000 := by ring
  omega

theorem Times.exists_entry {seconds : ℤ} {n : ℕ} (htimes : Times f requirement seconds n)
    (hpos : 0 < seconds) (candle : ℤ → Kline) {t : ℤ}
    (ht : t ∈ rangeOpens f requirement (seconds * 1000) n) : ∃ row,
      normalizedRow f requirement (candleRecord (seconds * 1000) candle t) = .ok row ∧
        rangeEntry f requirement (seconds * 1000) (candleRecord (seconds * 1000) candle t) =
          .ok (some (t, row)) := by
  obtain ⟨hfirst, hbefore, hmod⟩ := (htimes.mem_rangeOpens_iff hpos t).mp ht
  have hbound := htimes.close_le hpos ht
  have hstart := htimes.start
  have hlast := htimes.last
  have hthousand : t % 1000 = 0 := by
    obtain ⟨q, rfl⟩ := Int.dvd_of_emod_eq_zero hmod
    rw [mul_comm seconds, mul_assoc, Int.mul_emod_right]
  obtain ⟨row, hrow⟩ := exists_normalizedRow (f := f) candle (by omega) (by omega)
    hthousand (by omega) (by omega : (t + seconds * 1000) * 1000 ≤ requirement.selectionEnd)
  exact ⟨row, hrow, candleEntry_eq_ok.mpr (.inr ⟨hfirst, hbefore, hmod, rfl, row, hrow, rfl⟩)⟩

theorem Times.no_entry {seconds : ℤ} {n : ℕ} (htimes : Times f requirement seconds n)
    (hpos : 0 < seconds) (candle : ℤ → Kline) {t : ℤ} (hmod : t % (seconds * 1000) = 0)
    (hnot : t ∉ rangeOpens f requirement (seconds * 1000) n) :
    rangeEntry f requirement (seconds * 1000) (candleRecord (seconds * 1000) candle t) =
      .ok none := by
  refine candleEntry_eq_ok.mpr (.inl ⟨?_, rfl⟩)
  by_contra hin
  rw [not_or, not_lt, not_le] at hin
  exact hnot ((htimes.mem_rangeOpens_iff hpos t).mpr ⟨hin.1, hin.2, hmod⟩)

structure ReadsCandles (f : Doubles) (requirement : StrategyDatasetRequirement) (durationMs : ℤ)
    (candle : ℤ → Kline) (n : ℕ) (records : List KlineRecord) : Prop where
  aligned : ∀ raw ∈ records, ∃ openMs, openMs % durationMs = 0 ∧
    raw = candleRecord durationMs candle openMs
  covers : ∀ t ∈ rangeOpens f requirement durationMs n, candleRecord durationMs candle t ∈ records

section

variable {seconds : ℤ} {candle : ℤ → Kline} {n : ℕ} {records : List KlineRecord}
  {byOpen : List (ℤ × NormalizedRow)}

theorem ReadsCandles.entry_key (hreads : ReadsCandles f requirement (seconds * 1000) candle n records)
    (htimes : Times f requirement seconds n) (hpos : 0 < seconds) {raw : KlineRecord}
    (hraw : raw ∈ records) {t : ℤ} {row : NormalizedRow}
    (hentry : rangeEntry f requirement (seconds * 1000) raw = .ok (some (t, row))) :
    t ∈ rangeOpens f requirement (seconds * 1000) n ∧
      raw = candleRecord (seconds * 1000) candle t := by
  obtain ⟨openMs, hmod, rfl⟩ := hreads.aligned raw hraw
  by_cases hin : openMs ∈ rangeOpens f requirement (seconds * 1000) n
  · obtain ⟨row', -, hentry'⟩ := htimes.exists_entry hpos candle hin
    rw [hentry'] at hentry
    cases hentry
    exact ⟨hin, rfl⟩
  · rw [htimes.no_entry hpos candle hmod hin] at hentry
    cases hentry

theorem ReadsCandles.agree (hreads : ReadsCandles f requirement (seconds * 1000) candle n records)
    (htimes : Times f requirement seconds n) (hpos : 0 < seconds) :
    ConsistentDict.Agree (rangeEntry f requirement (seconds * 1000)) records := by
  constructor
  · intro raw hraw
    obtain ⟨openMs, hmod, rfl⟩ := hreads.aligned raw hraw
    by_cases hin : openMs ∈ rangeOpens f requirement (seconds * 1000) n
    · obtain ⟨row, -, hentry⟩ := htimes.exists_entry hpos candle hin
      exact ⟨_, hentry⟩
    · exact ⟨none, htimes.no_entry hpos candle hmod hin⟩
  · intro raw hraw other hother t row row' hentry hentry'
    rw [(hreads.entry_key htimes hpos hraw hentry).2] at hentry
    rw [(hreads.entry_key htimes hpos hother hentry').2, hentry] at hentry'
    cases hentry'
    rfl

theorem ReadsCandles.collected
    (hreads : ReadsCandles f requirement (seconds * 1000) candle n records)
    (htimes : Times f requirement seconds n) (hpos : 0 < seconds)
    (hcollects : ConsistentDict.Collects (rangeEntry f requirement (seconds * 1000)) records byOpen) :
    ∀ t ∈ rangeOpens f requirement (seconds * 1000) n, ∃ row, Dict.get? byOpen t = some row ∧
      normalizedRow f requirement (candleRecord (seconds * 1000) candle t) = .ok row := by
  intro t ht
  obtain ⟨row, hnormal, hentry⟩ := htimes.exists_entry hpos candle ht
  exact ⟨row, (hcollects.get?_iff t row).mpr ⟨_, hreads.covers t ht, hentry⟩, hnormal⟩

theorem ReadsCandles.sorted_keys
    (hreads : ReadsCandles f requirement (seconds * 1000) candle n records)
    (htimes : Times f requirement seconds n) (hpos : 0 < seconds)
    (hcollects : ConsistentDict.Collects (rangeEntry f requirement (seconds * 1000)) records byOpen) :
    (byOpen.map Prod.fst).insertionSort (· ≤ ·) = rangeOpens f requirement (seconds * 1000) n := by
  have hpairwise := pairwise_progression (by omega : 0 < seconds * 1000)
    (toMs f requirement.dataStart) n
  have hsame : (byOpen.map Prod.fst).Perm (rangeOpens f requirement (seconds * 1000) n) := by
    refine (List.perm_ext_iff_of_nodup hcollects.unique
      (hpairwise.imp fun hlt => hlt.ne)).mpr fun t => ?_
    rw [hcollects.mem_keys_iff]
    constructor
    · rintro ⟨raw, hraw, row, hentry⟩
      exact (hreads.entry_key htimes hpos hraw hentry).1
    · intro ht
      obtain ⟨row, -, hentry⟩ := htimes.exists_entry hpos candle ht
      exact ⟨_, hreads.covers t ht, row, hentry⟩
  exact ((List.perm_insertionSort _ _).trans hsame).eq_of_sortedLE List.sortedLE_insertionSort
    (hpairwise.imp fun hlt => hlt.le).sortedLE

theorem Materializes.readsCandles (hfits : Materializes requirement seconds) (hpos : 0 < seconds)
    (htimes : Times f requirement seconds n)
    (hrecords : ∀ raw, raw ∈ records ↔
      ∃ period ∈ archivePeriods requirement, CandleOf (seconds * 1000) candle period raw) :
    ReadsCandles f requirement (seconds * 1000) candle n records := by
  constructor
  · intro raw hraw
    obtain ⟨-, -, openMs, ⟨-, -, hmod⟩, rfl⟩ := (hrecords raw).mp hraw
    exact ⟨openMs, hmod, rfl⟩
  · intro t ht
    obtain ⟨hfirst, hbefore, hmod⟩ := (htimes.mem_rangeOpens_iff hpos t).mp ht
    have hbound := htimes.close_le hpos ht
    have hstart := htimes.start
    have hlast := htimes.last
    have hlastDay := hfits.lastDay
    have hafter : requirement.dataStart / 86400000000 ≤ t / 86400000 := by omega
    have hbeforeLast : t / 86400000 < requirement.selectionEnd / 86400000000 := by omega
    obtain ⟨period, hperiod, hday, hday'⟩ := iterArchivePeriods_covers hafter hbeforeLast
    exact (hrecords _).mpr ⟨period, hperiod, t, ⟨by omega, by omega, hmod⟩, rfl⟩

end

theorem complete_of_materializes {seconds : ℤ} {candle : ℤ → Kline} (h : Accepted requirement)
    (hseconds : timeframeDuration requirement.timeframe = .ok seconds)
    (haligned : OnBoundaries requirement seconds)
    (hsupplies : Supplies u fetch requirement (seconds * 1000) candle (archivePeriods requirement))
    (hfits : Materializes requirement seconds) :
    Complete u f fetch requirement (seconds * 1000) candle := by
  obtain ⟨hpos, -⟩ := timeframeDuration_spec hseconds
  obtain ⟨n, htimes⟩ := h.exists_times (f := f) hseconds haligned
  have hduration : 0 < seconds * 1000 := by omega
  have hdated := hfits.dated_archivePeriods
  obtain ⟨fetched, read, hfetched, hread⟩ := exists_read hduration hdated hsupplies
    fun period _ => (exists_archiveObject_iff h period).mpr hfits.unit
  have hreads : ReadsCandles f requirement (seconds * 1000) candle n (read.map Prod.fst).flatten :=
    hfits.readsCandles hpos htimes (mem_read_iff hduration hdated hsupplies hfetched hread)
  obtain ⟨byOpen, hcollect⟩ : ∃ byOpen, ConsistentDict.collect
      (rangeEntry f requirement (seconds * 1000)) conflict (read.map Prod.fst).flatten =
        .ok byOpen := ConsistentDict.exists_collect_iff.mpr (hreads.agree htimes hpos)
  have hcollects := ConsistentDict.collects_of_collect hcollect
  have hordered := hreads.sorted_keys htimes hpos hcollects
  have hrows := mapM_filterMap (hreads.collected htimes hpos hcollects)
  have hnormalized : normalizeArchives u f requirement fetched =
      .ok ((rangeOpens f requirement (seconds * 1000) n).filterMap (Dict.get? byOpen),
        read.map Prod.snd) := by
    refine normalizeArchives_eq_ok.mpr ⟨seconds, read, byOpen, hseconds, hread, ?_, ?_, ?_, rfl⟩
    · rw [htimes.duration]
      exact hcollect
    · rw [htimes.duration, hordered]
      exact (continuous_iff (by omega)).mpr ⟨n, htimes.nonempty, htimes.aligned, htimes.count, rfl⟩
    · rw [hordered]
  have hlength : requirement.warmupCandles ≤
      ((rangeOpens f requirement (seconds * 1000) n).filterMap (Dict.get? byOpen)).length := by
    rw [Columns.length_of_mapM hrows, length_progression]
    exact (htimes.warmup_le_iff h hseconds).mp hfits.warmup
  have hpairwise := pairwise_progression hduration (toMs f requirement.dataStart) n
  refine ⟨_, _, read.map Prod.snd, hpairwise, fun t => ?_, hrows, fun serve => ?_⟩
  · have hstart := htimes.start
    have hlast := htimes.last
    rw [htimes.mem_rangeOpens_iff hpos]
    constructor
    · rintro ⟨hfirst, hbefore, hmod⟩
      exact ⟨by omega, by omega, hmod⟩
    · rintro ⟨hfirst, hbefore, hmod⟩
      exact ⟨by omega, by omega, hmod⟩
  · exact materialize_eq_serve hfetched hnormalized (not_lt.mpr hlength)

theorem materializes_of_complete {seconds : ℤ} {candle : ℤ → Kline} (h : Accepted requirement)
    (hseconds : timeframeDuration requirement.timeframe = .ok seconds)
    (haligned : OnBoundaries requirement seconds)
    (hsupplies : Supplies u fetch requirement (seconds * 1000) candle (archivePeriods requirement))
    (hcomplete : Complete u f fetch requirement (seconds * 1000) candle) :
    Materializes requirement seconds := by
  have hpos := (timeframeDuration_spec hseconds).1
  have hduration : 0 < seconds * 1000 := by omega
  obtain ⟨n, htimes⟩ := h.exists_times (f := f) hseconds haligned
  obtain ⟨opens, expected, origin, -, -, -, hserve⟩ := hcomplete
  -- the service is reached, so what comes before it has not failed
  obtain ⟨fetched, rows, sources, hfetched, hnormalized, hlength⟩ :=
    normalized_of_materialize (hserve fun _ _ =>
      .ok ⟨"", "", "", "", 0, ⟨"", "", "", "", "", "", ""⟩, none, none⟩)
  have htiled := tiled_of_normalizeArchives (toMs_duration_pos hpos) hseconds hnormalized
  obtain ⟨-, read, -, -, hread, -⟩ := normalizeArchives_eq_ok.mp hnormalized
  rw [htimes.duration] at htiled
  rw [← flatten_eq_fetchedRecords hread] at htiled
  have hstart := htimes.start
  have hlast := htimes.last
  have hcount := htimes.count
  have hnonempty := htimes.nonempty
  have hrows : rows.length = n := by
    have hspan : (rows.length : ℤ) * (seconds * 1000) = n * (seconds * 1000) := by
      have := htiled.last_eq
      omega
    exact_mod_cast mul_right_cancel₀ hduration.ne' hspan
  have hfound : ∀ k < n, ∃ raw ∈ (read.map Prod.fst).flatten,
      raw.openTime = toMs f requirement.dataStart + k * (seconds * 1000) := by
    intro k hk
    have hlt : k < rows.length := by omega
    obtain ⟨-, raw, hraw, hentry⟩ := (htiled.row_iff k rows[k]).mp (List.getElem?_eq_getElem hlt)
    refine ⟨raw, hraw, ?_⟩
    rcases candleEntry_eq_ok.mp hentry with ⟨-, hnone⟩ | ⟨-, -, -, -, row, -, hsome⟩
    · cases hnone
    · simp only [Option.some.injEq, Prod.mk.injEq] at hsome
      exact hsome.1.symm
  have hdated : ∀ period ∈ archivePeriods requirement, Dated (seconds * 1000) period := by
    -- the first candle of the range has been read
    obtain ⟨raw, hraw, hopen⟩ := hfound 0 hnonempty
    have hfirst := openTime_of_read hsupplies hfetched hread hraw
    rw [Nat.cast_zero, zero_mul, add_zero] at hopen
    intro period hperiod
    refine ⟨fun openMs hopens => ?_, last_le_of_mem_archivePeriods hperiod⟩
    have hday : 0 ≤ period.day := day_nonneg_of_mem_archivePeriods (by omega) hperiod
    obtain ⟨item, found, hitem, hfoundItem⟩ :=
      exists_readItem hsupplies hfetched hread hperiod
    exact first_of_readItem hitem hfoundItem hopens (by have := hopens.1; omega)
  have hrecords := mem_read_iff hduration hdated hsupplies hfetched hread
  -- the last candle is in some archive, and no archive reaches past the last whole day
  obtain ⟨raw, hraw, hopen⟩ := hfound (n - 1) (by omega)
  obtain ⟨period, hperiod, openMs, ⟨-, hbefore, -⟩, rfl⟩ := (hrecords raw).mp hraw
  refine ⟨?_, ?_, ?_, fun period hperiod => (hdated period hperiod).first⟩
  · obtain ⟨item, found, hitem, hfoundItem⟩ :=
      exists_readItem hsupplies hfetched hread hperiod
    exact (exists_archiveObject_iff h period).mp (of_readItem hitem hfoundItem).1
  · obtain ⟨-, -, hwithin⟩ := mem_iterArchivePeriods hperiod
    have hcast : ((n - 1 : ℕ) : ℤ) = n - 1 := by omega
    have hsplit : ((n : ℤ) - 1) * (seconds * 1000) = n * (seconds * 1000) - seconds * 1000 := by
      ring
    rw [hcast, hsplit] at hopen
    simp only [candleRecord] at hopen
    omega
  · rw [htimes.warmup_le_iff h hseconds]
    omega

/-- A request that has been accepted materialises completely exactly if the pieces fit. -/
theorem materialize_complete_iff {spec : NormalizedSpec} {now : Instant9999}
    {accepted : List StrategyDatasetRequirement} (h : requirements p spec now = .ok accepted)
    {requirement : StrategyDatasetRequirement} (hrequirement : requirement ∈ accepted) {seconds : ℤ}
    (hseconds : timeframeDuration requirement.timeframe = .ok seconds)
    (haligned : OnBoundaries requirement seconds) {candle : ℤ → Kline}
    (hsupplies : Supplies u fetch requirement (seconds * 1000) candle (archivePeriods requirement)) :
    Complete u f fetch requirement (seconds * 1000) candle ↔ Materializes requirement seconds := by
  have haccepted := accepted_of_requirements p h requirement hrequirement
  constructor
  · intro hcomplete
    exact materializes_of_complete haccepted hseconds haligned hsupplies hcomplete
  · exact complete_of_materializes haccepted hseconds haligned hsupplies

section

def plainText : TextPlatform where
  casefold := id
  upper := id
  lower := id
  fromisoformat := fun _ => none
  candleCounts := fun text => if text = "0-candle" then [0] else []

def spotSpec (timeframe : String) : NormalizedSpec where
  venue := "binance"
  market := "spot"
  symbols := .list ["BTCUSDT"]
  timeframes := [timeframe]
  requiredData := "0-candle"
  start := none
  «end» := none

def thirdOfJanuary : Instant9999 := ⟨1578052800000000, by decide⟩

def firstRequirement (spec : NormalizedSpec) : Option (String × ℤ × ℤ × ℤ) :=
  (requirements plainText spec thirdOfJanuary).toOption.bind fun accepted =>
    accepted.head?.map fun requirement =>
      (requirement.timeframe, requirement.selectionStart, requirement.selectionEnd,
        requirement.dataStart)

theorem exists_firstRequirement {spec : NormalizedSpec} {timeframe : String} {start last first : ℤ}
    (h : firstRequirement spec = some (timeframe, start, last, first)) :
    ∃ accepted requirement, requirements plainText spec thirdOfJanuary = .ok accepted ∧
      requirement ∈ accepted ∧ requirement.timeframe = timeframe ∧
      requirement.selectionStart = start ∧ requirement.selectionEnd = last := by
  unfold firstRequirement at h
  cases haccepted : requirements plainText spec thirdOfJanuary with
  | error error =>
    rw [haccepted] at h
    cases h
  | ok accepted =>
    rw [haccepted] at h
    cases accepted with
    | nil => cases h
    | cons requirement others =>
      simp only [Except.toOption, Option.bind_some, List.head?_cons, Option.map_some,
        Option.some.injEq, Prod.mk.injEq] at h
      exact ⟨_, requirement, rfl, List.mem_cons_self, h.1, h.2.1, h.2.2.1⟩

def quietMarket : ℤ → Kline := fun _ => ⟨"1", "1", "1", "1", "0", "0", "0", "0", "0", "0"⟩

def quietArchives (durationMs : ℤ) : ArchiveFetcher := fun market symbol interval period =>
  let opens := progression (period.day * 86400000) durationMs
    ((period.last - period.day) * 86400000 / durationMs).toNat
  .ok { market, symbol, interval, period, status := .available, sha256 := none,
        path := some (.ok [.ok ([] :: opens.map (candleRow durationMs quietMarket 1))]) }

theorem supplies_quietArchives {durationMs : ℤ} (hd : 0 < durationMs)
    (hday : durationMs ∣ 86400000) (requirement : StrategyDatasetRequirement) :
    Supplies ascii (quietArchives durationMs) requirement durationMs quietMarket
      (archivePeriods requirement) := by
  intro period hperiod
  obtain ⟨-, hafter, -⟩ := mem_iterArchivePeriods hperiod
  refine ⟨_, rfl, rfl, rfl, rfl, rfl, rfl, _, rfl, ?_⟩
  have hspan : durationMs ∣ (period.last - period.day) * 86400000 := hday.mul_left _
  have hcount : period.last * 86400000 = period.day * 86400000 +
      ((period.last - period.day) * 86400000 / durationMs).toNat * durationMs := by
    rw [Int.toNat_of_nonneg (Int.ediv_nonneg (by omega) hd.le), Int.ediv_mul_cancel hspan]
    ring
  have hstart : period.day * 86400000 % durationMs = 0 :=
    Int.emod_eq_zero_of_dvd (hday.mul_left _)
  constructor
  · intro values hvalues
    rcases List.mem_cons.mp hvalues with rfl | hvalues
    · exact .inl rfl
    · obtain ⟨openMs, hopens, rfl⟩ := List.mem_map.mp hvalues
      exact .inr (.inr ⟨openMs, (mem_progression_iff hd hstart hcount).mp hopens, .inl rfl⟩)
  · intro openMs hopens
    exact ⟨_, List.mem_cons_of_mem _ (List.mem_map_of_mem
      ((mem_progression_iff hd hstart hcount).mpr hopens)), .inl rfl⟩

theorem materialize_complete_iff_hour :
    ∃ accepted requirement, requirements plainText (spotSpec "1h") thirdOfJanuary = .ok accepted ∧
      requirement ∈ accepted ∧
      (Complete ascii exactDoubles (quietArchives 3600000) requirement 3600000 quietMarket ↔
        Materializes requirement 3600) := by
  have hfirst : firstRequirement (spotSpec "1h") =
      some ("1h", 1577836800000000, 1578009600000000, 1577836800000000) := by decide +kernel
  obtain ⟨accepted, requirement, haccepted, hmem, htimeframe, hstart, hlast⟩ :=
    exists_firstRequirement hfirst
  have hseconds : timeframeDuration requirement.timeframe = .ok 3600 := by
    rw [htimeframe]
    decide +kernel
  have haligned : OnBoundaries requirement 3600 := ⟨by rw [hstart]; decide, by rw [hlast]; decide⟩
  exact ⟨accepted, requirement, haccepted, hmem, materialize_complete_iff plainText haccepted hmem
    hseconds haligned (supplies_quietArchives (by omega) (by decide) requirement)⟩

/-- Two days of daily candles are accepted, but their archives have no name. -/
theorem daily_request_incomplete :
    ∃ accepted requirement, requirements plainText (spotSpec "1d") thirdOfJanuary = .ok accepted ∧
      requirement ∈ accepted ∧ timeframeDuration requirement.timeframe = .ok 86400 ∧
      OnBoundaries requirement 86400 ∧
      Supplies ascii (quietArchives 86400000) requirement 86400000 quietMarket
        (archivePeriods requirement) ∧
      ¬ Complete ascii exactDoubles (quietArchives 86400000) requirement 86400000 quietMarket := by
  have hfirst : firstRequirement (spotSpec "1d") =
      some ("1d", 1577836800000000, 1578009600000000, 1577836800000000) := by decide +kernel
  obtain ⟨accepted, requirement, haccepted, hmem, htimeframe, hstart, hlast⟩ :=
    exists_firstRequirement hfirst
  have hseconds : timeframeDuration requirement.timeframe = .ok 86400 := by
    rw [htimeframe]
    decide +kernel
  have haligned : OnBoundaries requirement 86400 := ⟨by rw [hstart]; decide, by rw [hlast]; decide⟩
  have hsupplies : Supplies ascii (quietArchives 86400000) requirement 86400000 quietMarket
      (archivePeriods requirement) := supplies_quietArchives (by omega) (by decide) requirement
  refine ⟨accepted, requirement, haccepted, hmem, hseconds, haligned, hsupplies, fun hcomplete => ?_⟩
  have hfits := materializes_of_complete (accepted_of_requirements plainText haccepted requirement hmem)
    hseconds haligned hsupplies hcomplete
  apply hfits.unit
  rw [htimeframe]
  decide

end

end ChainQuantStudio.Studio.StrategyData
