import ChainQuantStudio.Exchanges.BinanceArchive
import ChainQuantStudio.Library.ConsistentDict
import ChainQuantStudio.Library.FloatArith
import Mathlib.Data.List.Sort
import Mathlib.Data.Rat.Floor
import Mathlib.Tactic.Linarith
import Mathlib.Tactic.Ring

/-!
# Normalised market data for backtests

The rows of all archives of a request are merged by their open times, and the merged rows must
tile the range of the request. The bounds of the range are cut to whole milliseconds before.
-/

namespace ChainQuantStudio.Studio.StrategyData

open Calendar Exchanges.BinanceArchive

inductive DataError
  | archive (error : ArchiveError)
  | acquisition (message : String)
  | value (message : String)
  | overflow
  deriving DecidableEq, Repr

/-- Rounding to the nearest double: monotone, and the identity on integers up to `2 ^ 53`. -/
structure Doubles where
  round : ℚ → ℚ
  mono : Monotone round
  exact : ∀ n : ℤ, |n| ≤ 9007199254740992 → round n = n

/-- The instants of `datetime` in microseconds: years 1 to 9999. -/
def Representable (instant : ℤ) : Prop :=
  -62135596800000000 ≤ instant ∧ instant < 253402300800000000

instance (instant : ℤ) : Decidable (Representable instant) := inferInstanceAs (Decidable (_ ∧ _))

/-- `int(x)`. -/
def truncate (x : ℚ) : ℤ := if 0 ≤ x then ⌊x⌋ else ⌈x⌉

/-- `int(value.timestamp() * 1_000)`, and the same of `total_seconds()`. -/
def toMs (f : Doubles) (instant : ℤ) : ℤ := truncate (f.round (f.round (instant / 1000000) * 1000))

def isoZ (instant : ℤ) : String :=
  let date := instant / 86400000000
  let time := instant % 86400000000
  let micros := time % 1000000
  let clock := pad 2 (time / 3600000000) ++ ":" ++ pad 2 (time / 60000000 % 60) ++ ":" ++
    pad 2 (time / 1000000 % 60)
  pad 4 (year date) ++ "-" ++ pad 2 (month date) ++ "-" ++ pad 2 (day date) ++ "T" ++ clock ++
    (if micros = 0 then "" else "." ++ pad 6 micros) ++ "Z"

def epochMsIso (f : Doubles) (value : ℤ) : Except DataError String :=
  let instant := FloatArith.ratRound (f.round (value / 1000) * 1000000)
  if Representable instant then .ok (isoZ instant) else .error (.value "year is out of range")

/-- The seconds of a unit of `_timeframe_duration`. -/
def unitSeconds : Char → Option ℤ
  | 'm' => some 60
  | 'h' => some 3600
  | 'd' => some 86400
  | _ => none

/-- The count of a timeframe, `[1-9][0-9]*`. -/
def countOf (digits : List Char) : Option ℕ :=
  if digits.head?.any (· ≠ '0') ∧ digits.all Char.isDigit then
    some (digits.foldl (fun value c => 10 * value + (c.toNat - '0'.toNat)) 0)
  else none

/-- The duration of a timeframe in seconds. -/
def timeframeDuration (value : String) : Except DataError ℤ :=
  match value.toList.getLast?.bind unitSeconds, countOf value.toList.dropLast with
  | some seconds, some count =>
    if 999999999 < count * seconds / 86400 then .error .overflow else .ok (count * seconds)
  | _, _ => .error (.value ("unsupported candle timeframe: " ++ value))

/-- One market-data input, its bounds in microseconds. -/
structure StrategyDatasetRequirement where
  venue : String
  market : String
  archiveMarket : ArchiveMarket
  symbol : String
  timeframe : String
  selectionStart : ℤ
  selectionEnd : ℤ
  dataStart : ℤ
  warmupCandles : ℕ
  selectionEnd_representable : Representable selectionEnd
  dataStart_representable : Representable dataStart

structure NormalizedRow where
  venue : String
  market : String
  symbol : String
  timeframe : String
  openTime : String
  closeTime : String
  availableAt : String
  «open» : String
  high : String
  low : String
  close : String
  baseVolume : String
  quoteVolume : String
  trades : String
  closed : String
  deriving DecidableEq, Repr

structure Source where
  object : String
  sourceUrl : String
  checksumUrl : String
  status : String
  officialSha256 : Option String
  deriving DecidableEq, Repr

variable (u : Unicode) (f : Doubles) (requirement : StrategyDatasetRequirement)

def normalizedRow (raw : KlineRecord) : Except DataError NormalizedRow := do
  let openTime ← epochMsIso f raw.openTime
  let closeTime ← epochMsIso f raw.closeTime
  let availableAt ← epochMsIso f (raw.closeTime + 1)
  return { venue := requirement.venue, market := requirement.market, symbol := requirement.symbol,
           timeframe := requirement.timeframe, openTime, closeTime, availableAt,
           «open» := raw.open, high := raw.high, low := raw.low, close := raw.close,
           baseVolume := raw.baseVolume, quoteVolume := raw.quoteVolume, trades := raw.trades,
           closed := "true" }

def candleEntry (durationMs startMs endMs : ℤ) (raw : KlineRecord) :
    Except DataError (Option (ℤ × NormalizedRow)) :=
  if raw.openTime < startMs ∨ endMs ≤ raw.openTime then .ok none
  else if raw.openTime % durationMs ≠ 0 ∨ raw.closeTime ≠ raw.openTime + durationMs - 1 then
    .error (.value "Binance archive contains a noncanonical candle boundary")
  else do
    let row ← normalizedRow f requirement raw
    return some (raw.openTime, row)

def conflict : DataError := .value "conflicting duplicate candle in Binance archives"

def sourceOf (item : ArchiveFetch) (object : ArchiveObject) : Source where
  object := object.relativePath
  sourceUrl := "https://data.binance.vision/" ++ object.relativePath
  checksumUrl := "https://data.binance.vision/" ++ object.checksumPath
  status := item.status.value
  officialSha256 := item.sha256

def readItem (item : ArchiveFetch) : Except DataError (List KlineRecord × Source) := do
  let object ← (archiveObject u item.market item.symbol item.interval item.period).mapError .archive
  let source := sourceOf item object
  match item.status, item.path with
  | .available, some archive => do
    let rows ← (parseKlineZip u archive).mapError .archive
    return (rows, source)
  | _, _ => return ([], source)

def mergeItem (entry : KlineRecord → Except DataError (Option (ℤ × NormalizedRow)))
    (state : List (ℤ × NormalizedRow) × List Source) (item : ArchiveFetch) :
    Except DataError (List (ℤ × NormalizedRow) × List Source) := do
  let (rows, source) ← readItem u item
  let byOpen ← rows.foldlM (ConsistentDict.step entry conflict) state.1
  return (byOpen, state.2 ++ [source])

def continuous (durationMs startMs endMs : ℤ) (orderedOpens : List ℤ) : Bool :=
  startMs % durationMs = 0 && endMs % durationMs = 0 && startMs < endMs &&
    orderedOpens.length = (endMs - startMs) / durationMs &&
    orderedOpens.head?.all (· = startMs) && orderedOpens.getLast?.all (· = endMs - durationMs) &&
    (orderedOpens.zip orderedOpens.tail).all fun pair => pair.2 - pair.1 = durationMs

def normalizeArchives (fetched : List ArchiveFetch) :
    Except DataError (List NormalizedRow × List Source) := do
  let duration ← timeframeDuration requirement.timeframe
  let durationMs := toMs f (duration * 1000000)
  let startMs := toMs f requirement.dataStart
  let endMs := toMs f requirement.selectionEnd
  let (byOpen, sources) ←
    fetched.foldlM (mergeItem u (candleEntry f requirement durationMs startMs endMs)) ([], [])
  let orderedOpens := (byOpen.map Prod.fst).insertionSort (· ≤ ·)
  if ¬ continuous durationMs startMs endMs orderedOpens then
    throw (.value "verified market dataset does not cover a continuous candle range")
  else return (orderedOpens.filterMap (Dict.get? byOpen), sources)

variable {u f requirement}

theorem truncate_intCast (n : ℤ) : truncate (n : ℚ) = n := by
  unfold truncate
  split_ifs <;> simp

theorem truncate_mono : Monotone truncate := by
  intro x y hxy
  unfold truncate
  split_ifs with hx hy hy
  · exact Int.floor_mono hxy
  · exact absurd (hx.trans hxy) hy
  · have hceil : ⌈x⌉ ≤ 0 := by
      rw [Int.ceil_le]
      exact_mod_cast (not_le.mp hx).le
    exact hceil.trans (Int.floor_nonneg.mpr hy)
  · exact Int.ceil_mono hxy

theorem toMs_mono : Monotone (toMs f) := by
  intro a b hab
  refine truncate_mono (f.mono (mul_le_mul_of_nonneg_right (f.mono ?_) (by norm_num)))
  exact div_le_div_of_nonneg_right (by exact_mod_cast hab) (by norm_num)

theorem toMs_seconds {seconds : ℤ} (h : |seconds * 1000| ≤ 9007199254740992) :
    toMs f (seconds * 1000000) = seconds * 1000 := by
  have hdiv : ((seconds * 1000000 : ℤ) : ℚ) / 1000000 = (seconds : ℤ) := by
    push_cast
    ring
  have hseconds : |seconds| ≤ 9007199254740992 := by
    rw [abs_mul] at h
    have hthousand : |(1000 : ℤ)| = 1000 := by decide
    rw [hthousand] at h
    have := abs_nonneg seconds
    omega
  have hproduct : ((seconds : ℤ) : ℚ) * 1000 = ((seconds * 1000 : ℤ) : ℚ) := by push_cast; ring
  rw [toMs, hdiv, f.exact _ hseconds, hproduct, f.exact _ h, truncate_intCast]

theorem toMs_representable {instant : ℤ} (h : Representable instant) :
    -62135596800000 ≤ toMs f instant ∧ toMs f instant ≤ 253402300800000 := by
  have hlow := toMs_mono (f := f) (a := -62135596800 * 1000000) h.1
  have hhigh := toMs_mono (f := f) (b := 253402300800 * 1000000) h.2.le
  rw [toMs_seconds (by decide)] at hlow hhigh
  exact ⟨hlow, hhigh⟩

theorem toMs_duration {seconds : ℤ} (hpos : 0 < seconds) :
    toMs f (seconds * 1000000) = seconds * 1000 ∨ 9007199254740000 ≤ toMs f (seconds * 1000000) := by
  rcases le_or_gt (seconds * 1000) 9007199254740992 with hexact | hlong
  · left
    apply toMs_seconds
    rw [abs_of_nonneg (by omega)]
    exact hexact
  · right
    have hle := toMs_mono (f := f) (a := 9007199254740 * 1000000) (b := seconds * 1000000) (by omega)
    rw [toMs_seconds (by decide)] at hle
    exact hle

theorem le_foldl_digits (digits : List Char) (value : ℕ) :
    value ≤ digits.foldl (fun value c => 10 * value + (c.toNat - '0'.toNat)) value := by
  induction digits generalizing value with
  | nil => exact le_rfl
  | cons c digits ih =>
    rw [List.foldl_cons]
    refine le_trans ?_ (ih _)
    omega

theorem countOf_pos {digits : List Char} {count : ℕ} (h : countOf digits = some count) :
    0 < count := by
  unfold countOf at h
  split_ifs at h with hdigits
  obtain ⟨hfirst, hall⟩ := hdigits
  cases digits with
  | nil => cases hfirst
  | cons c digits =>
    rw [List.foldl_cons] at h
    have hle := le_foldl_digits digits (10 * 0 + (c.toNat - '0'.toNat))
    rw [Option.some.inj h] at hle
    have hne : c ≠ '0' := by simpa using hfirst
    have hdigit : '0' ≤ c := by
      have := List.all_eq_true.mp hall c List.mem_cons_self
      simp only [Char.isDigit, Bool.and_eq_true, decide_eq_true_eq] at this
      exact this.1
    have hlt : '0'.toNat < c.toNat := by
      refine lt_of_le_of_ne hdigit fun heq => hne ?_
      exact (Char.toNat_inj.mp heq).symm
    omega

theorem timeframeDuration_spec {value : String} {seconds : ℤ}
    (h : timeframeDuration value = .ok seconds) : 0 < seconds ∧ seconds % 60 = 0 := by
  unfold timeframeDuration at h
  split at h
  · rename_i unit count hunit hcount
    split at h
    · cases h
    obtain rfl := Except.ok.inj h
    obtain ⟨c, -, hc⟩ := Option.bind_eq_some_iff.mp hunit
    have hseconds : 0 < unit ∧ unit % 60 = 0 := by
      unfold unitSeconds at hc
      split at hc <;> first | cases hc; decide | cases hc
    have hpositive := countOf_pos hcount
    constructor
    · exact mul_pos (by exact_mod_cast hpositive) hseconds.1
    · rw [Int.mul_emod, hseconds.2, mul_zero, Int.zero_emod]
  · cases h

theorem foldlM_mergeItem_eq_ok {entry : KlineRecord → Except DataError (Option (ℤ × NormalizedRow))}
    {items : List ArchiveFetch} {state state' : List (ℤ × NormalizedRow) × List Source} :
    items.foldlM (mergeItem u entry) state = .ok state' ↔
      ∃ read, items.mapM (readItem u) = .ok read ∧
        (read.map Prod.fst).flatten.foldlM (ConsistentDict.step entry conflict) state.1 =
          .ok state'.1 ∧
        state'.2 = state.2 ++ read.map Prod.snd := by
  induction items generalizing state with
  | nil =>
    obtain ⟨byOpen, sources⟩ := state
    obtain ⟨byOpen', sources'⟩ := state'
    simp only [List.foldlM_nil, List.mapM_nil]
    constructor
    · intro h
      cases h
      exact ⟨[], rfl, rfl, by simp⟩
    · rintro ⟨read, hread, hfold, hsources⟩
      cases hread
      cases hfold
      simp only [List.map_nil, List.append_nil] at hsources
      rw [hsources]
      rfl
  | cons item items ih =>
    simp only [List.foldlM_cons, Columns.bind_eq_ok, Columns.mapM_cons_eq_ok, mergeItem, ih]
    constructor
    · rintro ⟨next, ⟨⟨rows, source⟩, hitem, byOpen, hrows, hnext⟩, read, hread, hfold, hsources⟩
      cases hnext
      refine ⟨(rows, source) :: read, ⟨_, read, hitem, hread, rfl⟩, ?_, by simp [hsources]⟩
      rw [List.map_cons, List.flatten_cons, List.foldlM_append]
      exact Columns.bind_eq_ok.mpr ⟨byOpen, hrows, hfold⟩
    · rintro ⟨_, ⟨⟨rows, source⟩, read, hitem, hread, rfl⟩, hfold, hsources⟩
      rw [List.map_cons, List.flatten_cons, List.foldlM_append] at hfold
      obtain ⟨byOpen, hrows, hrest⟩ := Columns.bind_eq_ok.mp hfold
      exact ⟨_, ⟨(rows, source), hitem, byOpen, hrows, rfl⟩, read, hread, hrest, by simp [hsources]⟩

theorem normalizeArchives_eq_ok {fetched : List ArchiveFetch} {rows : List NormalizedRow}
    {sources : List Source} :
    normalizeArchives u f requirement fetched = .ok (rows, sources) ↔
      ∃ seconds read byOpen, timeframeDuration requirement.timeframe = .ok seconds ∧
        fetched.mapM (readItem u) = .ok read ∧
        ConsistentDict.collect (candleEntry f requirement (toMs f (seconds * 1000000))
          (toMs f requirement.dataStart) (toMs f requirement.selectionEnd)) conflict
          (read.map Prod.fst).flatten = .ok byOpen ∧
        continuous (toMs f (seconds * 1000000)) (toMs f requirement.dataStart)
          (toMs f requirement.selectionEnd)
          ((byOpen.map Prod.fst).insertionSort (· ≤ ·)) = true ∧
        rows = ((byOpen.map Prod.fst).insertionSort (· ≤ ·)).filterMap (Dict.get? byOpen) ∧
        sources = read.map Prod.snd := by
  simp only [normalizeArchives, Columns.bind_eq_ok, foldlM_mergeItem_eq_ok, List.nil_append]
  constructor
  · rintro ⟨seconds, hseconds, ⟨byOpen, sources'⟩, ⟨read, hread, hfold, hsources⟩, h⟩
    simp only at h hsources hfold
    split at h
    · cases h
    · rename_i hcontinuous
      cases h
      exact ⟨seconds, read, byOpen, hseconds, hread, hfold, not_not.mp hcontinuous, rfl, hsources⟩
  · rintro ⟨seconds, read, byOpen, hseconds, hread, hfold, hcontinuous, rfl, rfl⟩
    refine ⟨seconds, hseconds, (byOpen, _), ⟨read, hread, hfold, rfl⟩, ?_⟩
    simp only
    rw [if_neg (not_not.mpr hcontinuous)]
    rfl

theorem normalizeArchives_perm {fetched fetched' : List ArchiveFetch} {rows : List NormalizedRow}
    {sources : List Source} (h : normalizeArchives u f requirement fetched = .ok (rows, sources))
    (hperm : fetched.Perm fetched') :
    ∃ sources', normalizeArchives u f requirement fetched' = .ok (rows, sources') := by
  obtain ⟨seconds, read, byOpen, hseconds, hread, hcollect, hcontinuous, rfl, rfl⟩ :=
    normalizeArchives_eq_ok.mp h
  obtain ⟨read', hread', hreadPerm⟩ := Columns.mapM_perm hread hperm
  have hrows : (read.map Prod.fst).flatten.Perm (read'.map Prod.fst).flatten :=
    (hreadPerm.map Prod.fst).flatten
  have hagree := ConsistentDict.exists_collect_iff.mp ⟨byOpen, hcollect⟩
  obtain ⟨byOpen', hcollect'⟩ := ConsistentDict.exists_collect_iff.mpr (hagree.perm hrows)
  obtain ⟨hkeys, hvalues⟩ := (ConsistentDict.collects_of_collect hcollect).perm
    (ConsistentDict.collects_of_collect hcollect') hrows
  have hordered : (byOpen'.map Prod.fst).insertionSort (· ≤ ·) =
      (byOpen.map Prod.fst).insertionSort (· ≤ ·) :=
    (((List.perm_insertionSort _ _).trans (hkeys.symm.trans (List.perm_insertionSort _ _).symm))
      ).eq_of_sortedLE List.sortedLE_insertionSort List.sortedLE_insertionSort
  have hsame : Dict.get? byOpen' = Dict.get? byOpen := funext hvalues
  refine ⟨_, normalizeArchives_eq_ok.mpr ⟨seconds, read', byOpen', hseconds, hread', hcollect', ?_, ?_,
    rfl⟩⟩
  · rw [hordered]
    exact hcontinuous
  · rw [hordered, hsame]

/-- `start, start + d, …`. -/
def progression (start d : ℤ) : ℕ → List ℤ
  | 0 => []
  | n + 1 => start :: progression (start + d) d n

theorem length_progression (start d : ℤ) (n : ℕ) : (progression start d n).length = n := by
  induction n generalizing start with
  | zero => rfl
  | succ n ih => rw [progression, List.length_cons, ih]

theorem getElem?_progression (start d : ℤ) {n k : ℕ} (hk : k < n) :
    (progression start d n)[k]? = some (start + k * d) := by
  induction n generalizing start k with
  | zero => omega
  | succ n ih =>
    cases k with
    | zero => simp [progression]
    | succ k =>
      rw [progression, List.getElem?_cons_succ, ih _ (by omega)]
      push_cast
      ring_nf

theorem eq_progression_iff {start d : ℤ} {opens : List ℤ} :
    (opens.head?.all (· = start) ∧
        (opens.zip opens.tail).all (fun pair => pair.2 - pair.1 = d) = true) ↔
      opens = progression start d opens.length := by
  induction opens generalizing start with
  | nil => simp [progression]
  | cons first rest ih =>
    cases rest with
    | nil => simp [progression]
    | cons second rest =>
      have hrest := @ih (start + d)
      simp only [List.head?_cons, Option.all_some, decide_eq_true_eq, List.tail_cons,
        List.length_cons, progression] at hrest ⊢
      rw [List.zip_cons_cons, List.all_cons, Bool.and_eq_true, decide_eq_true_eq, List.cons.injEq]
      constructor
      · rintro ⟨rfl, hsecond, hdiffs⟩
        exact ⟨rfl, hrest.mp ⟨by omega, hdiffs⟩⟩
      · rintro ⟨rfl, htail⟩
        obtain ⟨hsecond, hdiffs⟩ := hrest.mpr htail
        exact ⟨rfl, by omega, hdiffs⟩

theorem continuous_iff {d start last : ℤ} (hd : 0 < d) {opens : List ℤ} :
    continuous d start last opens = true ↔
      ∃ n : ℕ, 0 < n ∧ start % d = 0 ∧ last = start + n * d ∧ opens = progression start d n := by
  simp only [continuous, Bool.and_eq_true, decide_eq_true_eq]
  constructor
  · rintro ⟨⟨⟨⟨⟨⟨hstart, hlast⟩, hlt⟩, hlength⟩, hhead⟩, -⟩, hdiffs⟩
    have hdvd : d ∣ last - start := Int.dvd_sub (Int.dvd_of_emod_eq_zero hlast)
      (Int.dvd_of_emod_eq_zero hstart)
    have hspan : last - start = opens.length * d := by
      rw [hlength, Int.ediv_mul_cancel hdvd]
    refine ⟨opens.length, ?_, hstart, by omega, eq_progression_iff.mp ⟨by simpa using hhead, hdiffs⟩⟩
    by_contra hzero
    obtain hzero : opens.length = 0 := by omega
    rw [hzero] at hspan
    simp at hspan
    omega
  · rintro ⟨n, hn, hstart, rfl, rfl⟩
    have hlength := length_progression start d n
    obtain ⟨hhead, hdiffs⟩ := eq_progression_iff.mpr
      (by rw [hlength] : progression start d n = progression start d (progression start d n).length)
    have hspan : (start + n * d - start) / d = n := by
      rw [add_sub_cancel_left, Int.mul_ediv_cancel _ hd.ne']
    have hend : (start + n * d) % d = 0 := by
      rw [Int.add_mul_emod_self_right, hstart]
    have hlt : start < start + n * d := by
      have : 0 < (n : ℤ) * d := mul_pos (by exact_mod_cast hn) hd
      omega
    have hlastOpen : (progression start d n).getLast? = some (start + n * d - d) := by
      rw [List.getLast?_eq_getElem?, hlength, getElem?_progression _ _ (by omega)]
      rw [Nat.cast_sub hn]
      push_cast
      ring_nf
    refine ⟨⟨⟨⟨⟨⟨hstart, hend⟩, hlt⟩, ?_⟩, by simpa using hhead⟩, ?_⟩, hdiffs⟩
    · rw [hlength, hspan]
    · simp [hlastOpen]

def fetchedRecords (u : Unicode) (fetched : List ArchiveFetch) : List KlineRecord :=
  fetched.flatMap fun item => ((readItem u item).toOption.map Prod.fst).getD []

def InRange (requirement : StrategyDatasetRequirement) (raw : KlineRecord) : Prop :=
  requirement.dataStart ≤ raw.openTime * 1000 ∧ raw.openTime * 1000 < requirement.selectionEnd

/-- What rows that are returned promise: they tile the range from its start to its end, each is
every fetched row with its open time, in-range rows stand on candle boundaries and agree, and
another order of the archives changes nothing. -/
structure Normalized (u : Unicode) (f : Doubles) (requirement : StrategyDatasetRequirement)
    (seconds : ℤ) (fetched : List ArchiveFetch) (rows : List NormalizedRow) : Prop where
  tiles : requirement.dataStart + rows.length * (seconds * 1000000) = requirement.selectionEnd
  found : ∀ k < rows.length, ∃ raw ∈ fetchedRecords u fetched,
    raw.openTime * 1000 = requirement.dataStart + k * (seconds * 1000000)
  every : ∀ (k : ℕ) row, rows[k]? = some row → ∀ raw ∈ fetchedRecords u fetched,
    raw.openTime * 1000 = requirement.dataStart + k * (seconds * 1000000) →
    normalizedRow f requirement raw = .ok row
  canonical : ∀ raw ∈ fetchedRecords u fetched, InRange requirement raw →
    raw.openTime % (seconds * 1000) = 0 ∧ raw.closeTime = raw.openTime + seconds * 1000 - 1
  agree : ∀ raw ∈ fetchedRecords u fetched, ∀ other ∈ fetchedRecords u fetched,
    InRange requirement raw → other.openTime = raw.openTime →
    normalizedRow f requirement other = normalizedRow f requirement raw
  order : ∀ fetched', fetched.Perm fetched' →
    ∃ sources, normalizeArchives u f requirement fetched' = .ok (rows, sources)

/-- The bounds of the range are whole milliseconds as the program computes them. -/
def BoundsExact (f : Doubles) (requirement : StrategyDatasetRequirement) : Prop :=
  toMs f requirement.dataStart * 1000 = requirement.dataStart ∧
    toMs f requirement.selectionEnd * 1000 = requirement.selectionEnd

theorem flatten_eq_fetchedRecords {fetched : List ArchiveFetch}
    {read : List (List KlineRecord × Source)} (h : fetched.mapM (readItem u) = .ok read) :
    (read.map Prod.fst).flatten = fetchedRecords u fetched := by
  induction fetched generalizing read with
  | nil =>
    cases h
    rfl
  | cons item fetched ih =>
    obtain ⟨found, rest, hitem, hrest, rfl⟩ := Columns.mapM_cons_eq_ok.mp h
    rw [List.map_cons, List.flatten_cons, ih hrest, fetchedRecords, fetchedRecords,
      List.flatMap_cons, hitem]
    rfl

theorem candleEntry_eq_ok {d start last : ℤ} {raw : KlineRecord}
    {found : Option (ℤ × NormalizedRow)} :
    candleEntry f requirement d start last raw = .ok found ↔
      ((raw.openTime < start ∨ last ≤ raw.openTime) ∧ found = none) ∨
        (start ≤ raw.openTime ∧ raw.openTime < last ∧ raw.openTime % d = 0 ∧
          raw.closeTime = raw.openTime + d - 1 ∧
          ∃ row, normalizedRow f requirement raw = .ok row ∧ found = some (raw.openTime, row)) := by
  unfold candleEntry
  split_ifs with hout hbad
  · rw [Except.ok.injEq]
    constructor
    · rintro rfl
      exact .inl ⟨hout, rfl⟩
    · rintro (⟨-, rfl⟩ | ⟨hfirst, hlast, -⟩)
      · rfl
      · omega
  · refine iff_of_false (by simp) ?_
    rintro (⟨hout', -⟩ | ⟨-, -, haligned, hclose, -⟩)
    · exact hout hout'
    · exact hbad.elim (· haligned) (· hclose)
  · rw [not_or, not_lt, not_le] at hout
    rw [not_or, not_not, not_not] at hbad
    rw [Columns.bind_eq_ok]
    constructor
    · rintro ⟨row, hrow, hfound⟩
      exact .inr ⟨hout.1, hout.2, hbad.1, hbad.2, row, hrow, (Except.ok.inj hfound).symm⟩
    · rintro (⟨hout', -⟩ | ⟨-, -, -, -, row, hrow, rfl⟩)
      · omega
      · exact ⟨row, hrow, rfl⟩

theorem getElem?_filterMap {α β : Type} {g : α → Option β} {xs : List α}
    (h : ∀ x ∈ xs, (g x).isSome) (k : ℕ) : (xs.filterMap g)[k]? = xs[k]?.bind g := by
  induction xs generalizing k with
  | nil => simp
  | cons x xs ih =>
    obtain ⟨y, hy⟩ := Option.isSome_iff_exists.mp (h x List.mem_cons_self)
    rw [List.filterMap_cons_some hy]
    cases k with
    | zero => simp [hy]
    | succ k => simpa using ih (fun other hother => h other (List.mem_cons_of_mem _ hother)) k

structure Tiled (f : Doubles) (requirement : StrategyDatasetRequirement) (d start last : ℤ)
    (records : List KlineRecord) (rows : List NormalizedRow) : Prop where
  aligned : start % d = 0
  nonempty : rows ≠ []
  last_eq : last = start + rows.length * d
  read : ∀ raw ∈ records, ∃ found, candleEntry f requirement d start last raw = .ok found
  row_iff : ∀ (k : ℕ) row, rows[k]? = some row ↔ k < rows.length ∧ ∃ raw ∈ records,
    candleEntry f requirement d start last raw = .ok (some (start + k * d, row))
  agree : ∀ raw ∈ records, ∀ other ∈ records, ∀ t row row',
    candleEntry f requirement d start last raw = .ok (some (t, row)) →
    candleEntry f requirement d start last other = .ok (some (t, row')) → row = row'

theorem tiled_of_normalizeArchives {fetched : List ArchiveFetch} {rows : List NormalizedRow}
    {sources : List Source} {seconds : ℤ} (hpos : 0 < toMs f (seconds * 1000000))
    (hseconds : timeframeDuration requirement.timeframe = .ok seconds)
    (h : normalizeArchives u f requirement fetched = .ok (rows, sources)) :
    Tiled f requirement (toMs f (seconds * 1000000)) (toMs f requirement.dataStart)
      (toMs f requirement.selectionEnd) (fetchedRecords u fetched) rows := by
  obtain ⟨seconds', read, byOpen, hseconds', hread, hcollect, hcontinuous, rfl, -⟩ :=
    normalizeArchives_eq_ok.mp h
  obtain rfl : seconds = seconds' := Except.ok.inj (hseconds.symm.trans hseconds')
  rw [flatten_eq_fetchedRecords hread] at hcollect
  have hcollects := ConsistentDict.collects_of_collect hcollect
  have hagree := ConsistentDict.exists_collect_iff.mp ⟨byOpen, hcollect⟩
  obtain ⟨n, hn, haligned, hlast, hordered⟩ := (continuous_iff hpos).mp hcontinuous
  have hsome : ∀ t ∈ progression (toMs f requirement.dataStart) (toMs f (seconds * 1000000)) n,
      (Dict.get? byOpen t).isSome := by
    intro t ht
    rw [← hordered, List.mem_insertionSort] at ht
    obtain ⟨item, hitem, value, hvalue⟩ := hcollects.mem_keys_iff.mp ht
    rw [(hcollects.get?_iff t value).mpr ⟨item, hitem, hvalue⟩]
    rfl
  rw [hordered]
  have hrow := getElem?_filterMap hsome
  have hlength : (List.filterMap (Dict.get? byOpen)
      (progression (toMs f requirement.dataStart) (toMs f (seconds * 1000000)) n)).length = n := by
    rw [List.filterMap_length_eq_length.mpr hsome, length_progression]
  refine ⟨haligned, ?_, by rw [hlength]; exact hlast, hagree.1, fun k row => ?_, ?_⟩
  · rw [← List.length_pos_iff, hlength]
    exact hn
  · rw [hrow, hlength]
    rcases Nat.lt_or_ge k n with hk | hk
    · rw [getElem?_progression _ _ hk, Option.bind_some, hcollects.get?_iff]
      exact (and_iff_right hk).symm
    · rw [List.getElem?_eq_none (by rw [length_progression]; exact hk)]
      simp only [Option.bind_none, reduceCtorEq, false_iff, not_and]
      omega
  · intro raw hraw other hother t row row' hentry hentry'
    exact hagree.2 raw hraw other hother t row row' hentry hentry'

theorem toMs_duration_pos {seconds : ℤ} (hpos : 0 < seconds) : 0 < toMs f (seconds * 1000000) := by
  rcases toMs_duration (f := f) hpos with hexact | hlong <;> omega

theorem Tiled.duration_exact {seconds : ℤ} {records : List KlineRecord} {rows : List NormalizedRow}
    (h : Tiled f requirement (toMs f (seconds * 1000000)) (toMs f requirement.dataStart)
      (toMs f requirement.selectionEnd) records rows) (hpos : 0 < seconds) :
    toMs f (seconds * 1000000) = seconds * 1000 := by
  rcases toMs_duration (f := f) hpos with hexact | hlong
  · exact hexact
  · -- a longer candle than every instant would tile from zero to zero
    exfalso
    obtain ⟨hstart, hstart'⟩ := toMs_representable (f := f) requirement.dataStart_representable
    obtain ⟨hlast, hlast'⟩ := toMs_representable (f := f) requirement.selectionEnd_representable
    have hzero : toMs f requirement.dataStart = 0 := by
      obtain ⟨q, hq⟩ := Int.dvd_of_emod_eq_zero h.aligned
      have hq0 : q = 0 := by
        by_contra hne
        rcases lt_or_gt_of_ne hne with hneg | hposq
        · have : toMs f (seconds * 1000000) * q ≤ toMs f (seconds * 1000000) * (-1) :=
            mul_le_mul_of_nonneg_left (by omega) (by omega)
          omega
        · have : toMs f (seconds * 1000000) * 1 ≤ toMs f (seconds * 1000000) * q :=
            mul_le_mul_of_nonneg_left (by omega) (by omega)
          omega
      rw [hq, hq0, mul_zero]
    have hone : 1 ≤ (rows.length : ℤ) := by
      have := List.length_pos_iff.mpr h.nonempty
      omega
    have hspan : 1 * toMs f (seconds * 1000000) ≤ rows.length * toMs f (seconds * 1000000) :=
      mul_le_mul_of_nonneg_right hone (by omega)
    have := h.last_eq
    omega

theorem toMs_of_seconds {instant : ℤ} (h : Representable instant) (hwhole : instant % 1000000 = 0) :
    toMs f instant * 1000 = instant := by
  obtain ⟨hlow, hhigh⟩ := h
  obtain ⟨s, rfl⟩ := Int.dvd_of_emod_eq_zero hwhole
  rw [mul_comm, mul_comm 1000000 s, toMs_seconds]
  · ring
  · rw [abs_le]
    omega

theorem boundsExact_of_normalized {seconds : ℤ} {fetched : List ArchiveFetch}
    {rows : List NormalizedRow} (hseconds : 0 < seconds) (hrows : rows ≠ [])
    (h : Normalized u f requirement seconds fetched rows) : BoundsExact f requirement := by
  have hlength : 0 < rows.length := List.length_pos_iff.mpr hrows
  obtain ⟨raw, hraw, hopen⟩ := h.found 0 hlength
  rw [Nat.cast_zero, zero_mul, add_zero] at hopen
  have hspan : 0 < (rows.length : ℤ) * (seconds * 1000000) :=
    mul_pos (by exact_mod_cast hlength) (by omega)
  have htiles := h.tiles
  obtain ⟨haligned, -⟩ := h.canonical raw hraw ⟨by omega, by omega⟩
  -- the first candle stands on a boundary, and so does the end of the last
  have hstart : requirement.dataStart % 1000000 = 0 := by
    obtain ⟨q, hq⟩ := Int.dvd_of_emod_eq_zero haligned
    have : requirement.dataStart = 1000000 * (seconds * q) := by
      rw [← hopen, hq]
      ring
    omega
  have hlast : requirement.selectionEnd % 1000000 = 0 := by
    have : requirement.selectionEnd = requirement.dataStart + 1000000 * (rows.length * seconds) := by
      rw [← htiles]
      ring
    omega
  exact ⟨toMs_of_seconds requirement.dataStart_representable hstart,
    toMs_of_seconds requirement.selectionEnd_representable hlast⟩

theorem normalized_of_boundsExact {seconds : ℤ} {fetched : List ArchiveFetch}
    {rows : List NormalizedRow} {sources : List Source} (hpos : 0 < seconds)
    (hseconds : timeframeDuration requirement.timeframe = .ok seconds)
    (h : normalizeArchives u f requirement fetched = .ok (rows, sources))
    (hexact : BoundsExact f requirement) : Normalized u f requirement seconds fetched rows := by
  have htiled := tiled_of_normalizeArchives (toMs_duration_pos hpos) hseconds h
  have hd := htiled.duration_exact hpos
  obtain ⟨hstart, hlast⟩ := hexact
  rw [hd] at htiled
  have hin : ∀ raw, InRange requirement raw ↔ toMs f requirement.dataStart ≤ raw.openTime ∧
      raw.openTime < toMs f requirement.selectionEnd := by
    intro raw
    unfold InRange
    omega
  have hat : ∀ (k : ℕ) (raw : KlineRecord),
      raw.openTime * 1000 = requirement.dataStart + k * (seconds * 1000000) ↔
      raw.openTime = toMs f requirement.dataStart + k * (seconds * 1000) := by
    intro k raw
    have : (k : ℤ) * (seconds * 1000000) = k * (seconds * 1000) * 1000 := by ring
    omega
  have hentry : ∀ raw ∈ fetchedRecords u fetched, InRange requirement raw → ∃ row,
      raw.openTime % (seconds * 1000) = 0 ∧ raw.closeTime = raw.openTime + seconds * 1000 - 1 ∧
        normalizedRow f requirement raw = .ok row ∧
        candleEntry f requirement (seconds * 1000) (toMs f requirement.dataStart)
          (toMs f requirement.selectionEnd) raw = .ok (some (raw.openTime, row)) := by
    intro raw hraw hrange
    obtain ⟨hfirst, hbefore⟩ := (hin raw).mp hrange
    obtain ⟨found, hfound⟩ := htiled.read raw hraw
    rcases candleEntry_eq_ok.mp hfound with ⟨hout, -⟩ | ⟨-, -, haligned, hclose, row, hrow, rfl⟩
    · omega
    · exact ⟨row, haligned, hclose, hrow, hfound⟩
  refine ⟨?_, fun k hk => ?_, fun k row hrow raw hraw hopen => ?_, fun raw hraw hrange => ?_,
    fun raw hraw other hother hrange hopen => ?_, fun fetched' hperm => normalizeArchives_perm h hperm⟩
  · have := htiled.last_eq
    have : (rows.length : ℤ) * (seconds * 1000000) = rows.length * (seconds * 1000) * 1000 := by ring
    omega
  · obtain ⟨-, raw, hraw, hfound⟩ :=
      (htiled.row_iff k rows[k]).mp (List.getElem?_eq_getElem hk)
    rcases candleEntry_eq_ok.mp hfound with ⟨-, hnone⟩ | ⟨-, -, -, -, row, -, hsome⟩
    · cases hnone
    · refine ⟨raw, hraw, (hat k raw).mpr ?_⟩
      simp only [Option.some.injEq, Prod.mk.injEq] at hsome
      exact hsome.1.symm
  · obtain ⟨hk, source, hsource, hfound⟩ := (htiled.row_iff k row).mp hrow
    have hspan : (k : ℤ) * (seconds * 1000) < rows.length * (seconds * 1000) :=
      mul_lt_mul_of_pos_right (by exact_mod_cast hk) (by omega)
    have hnonneg : 0 ≤ (k : ℤ) * (seconds * 1000) := by positivity
    have htime := (hat k raw).mp hopen
    have hlastEq := htiled.last_eq
    obtain ⟨row', -, -, hrow', hentry'⟩ := hentry raw hraw ((hin raw).mpr (by omega))
    rw [htime] at hentry'
    rw [hrow', htiled.agree raw hraw source hsource _ _ _ hentry' hfound]
  · obtain ⟨row, haligned, hclose, -⟩ := hentry raw hraw hrange
    exact ⟨haligned, hclose⟩
  · have hrange' : InRange requirement other := by
      unfold InRange at hrange ⊢
      rwa [hopen]
    obtain ⟨row, -, -, hrow, hentryRow⟩ := hentry raw hraw hrange
    obtain ⟨row', -, -, hrow', hentryRow'⟩ := hentry other hother hrange'
    rw [hopen] at hentryRow'
    rw [hrow, hrow', htiled.agree raw hraw other hother _ _ _ hentryRow hentryRow']

/-- Rows that are returned are sound exactly if no bound of the range has been cut. -/
theorem normalizeArchives_sound_iff {fetched : List ArchiveFetch} {rows : List NormalizedRow}
    {sources : List Source}
    (h : normalizeArchives u f requirement fetched = .ok (rows, sources)) :
    (∃ seconds, timeframeDuration requirement.timeframe = .ok seconds ∧
        Normalized u f requirement seconds fetched rows) ↔ BoundsExact f requirement := by
  obtain ⟨seconds, -, -, hseconds, -⟩ := normalizeArchives_eq_ok.mp h
  have hpos := (timeframeDuration_spec hseconds).1
  have hrows := (tiled_of_normalizeArchives (toMs_duration_pos hpos) hseconds h).nonempty
  constructor
  · rintro ⟨seconds', hseconds', hnormalized⟩
    exact boundsExact_of_normalized (timeframeDuration_spec hseconds').1 hrows hnormalized
  · intro hexact
    exact ⟨seconds, hseconds, normalized_of_boundsExact hpos hseconds h hexact⟩

section

def ascii : Unicode := ⟨fun _ => false, fun _ => false, fun _ => none⟩

def exactDoubles : Doubles := ⟨id, monotone_id, fun _ _ => rfl⟩

def hourArchives : List ArchiveFetch :=
  let candle := ["1000000800000", "1", "2", "1", "2", "10", "1000004399999", "15", "3", "5", "7", "0"]
  [⟨.spot, "BTCUSDT", "1h", ⟨.daily, 11574⟩, .available, some (.ok [.ok [candle]]), none⟩,
   ⟨.spot, "BTCUSDT", "1h", ⟨.monthly, 11566⟩, .available, some (.ok [.ok [candle, []]]), none⟩]

def hourRequirement (micros : Fin 1000) : StrategyDatasetRequirement where
  venue := "binance"
  market := "spot"
  archiveMarket := .spot
  symbol := "BTCUSDT"
  timeframe := "1h"
  selectionStart := 1000000800000000 + micros.val
  selectionEnd := 1000004400000000
  dataStart := 1000000800000000 + micros.val
  warmupCandles := 0
  selectionEnd_representable := by decide
  dataStart_representable := by
    unfold Representable
    omega

theorem normalizeArchives_sound_iff_hour :
    ∃ rows sources, normalizeArchives ascii exactDoubles (hourRequirement 0)
        hourArchives = .ok (rows, sources) ∧
      ((∃ seconds, timeframeDuration (hourRequirement 0).timeframe = .ok seconds ∧
          Normalized ascii exactDoubles (hourRequirement 0) seconds hourArchives rows) ↔
        BoundsExact exactDoubles (hourRequirement 0)) := by
  have hok : (normalizeArchives ascii exactDoubles (hourRequirement 0)
      hourArchives).toOption.isSome = true := by
    decide +kernel
  cases h : normalizeArchives ascii exactDoubles (hourRequirement 0) hourArchives with
  | error error =>
    rw [h] at hok
    cases hok
  | ok result =>
    obtain ⟨rows, sources⟩ := result
    have hiff := normalizeArchives_sound_iff h
    exact ⟨rows, sources, rfl, hiff⟩

/-- With 500 microseconds on its start the range is met by a candle that opens before it. -/
theorem cut_start_accepted :
    ∃ rows sources, normalizeArchives ascii exactDoubles (hourRequirement 500)
        hourArchives = .ok (rows, sources) ∧
      rows.map NormalizedRow.openTime = ["2001-09-09T02:00:00Z"] ∧
      ¬ ∃ seconds, timeframeDuration "1h" = .ok seconds ∧
        Normalized ascii exactDoubles (hourRequirement 500) seconds hourArchives rows := by
  have hok : ((normalizeArchives ascii exactDoubles (hourRequirement 500)
      hourArchives).toOption.map fun result => result.1.map NormalizedRow.openTime) =
        some ["2001-09-09T02:00:00Z"] := by decide +kernel
  cases h : normalizeArchives ascii exactDoubles (hourRequirement 500) hourArchives with
  | error error =>
    rw [h] at hok
    cases hok
  | ok result =>
    rw [h] at hok
    have hopen : result.1.map NormalizedRow.openTime = ["2001-09-09T02:00:00Z"] := by
      simpa [Except.toOption] using hok
    refine ⟨result.1, result.2, rfl, hopen, ?_⟩
    rintro ⟨seconds, hseconds, hnormalized⟩
    obtain rfl : 3600 = seconds :=
      Except.ok.inj ((by decide +kernel : timeframeDuration "1h" = .ok 3600).symm.trans hseconds)
    have htiles := hnormalized.tiles
    simp only [hourRequirement] at htiles
    omega

end

end ChainQuantStudio.Studio.StrategyData
