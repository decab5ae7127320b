import ChainQuantStudio.Library.SortedPrefix
import ChainQuantStudio.Universe.MalformedRows
import ChainQuantStudio.Universe.Pool

/-!
# Ranking of candidates

The kept history of a symbol is in order and reaches back at most twice the lookback from its newest
ticker, while `rank` looks for a baseline that is one lookback older than the time of the call. Of
the metrics found it returns the largest, in their order.
-/

namespace ChainQuantStudio.Universe

open Columns Data
open Studio.StrategyData (Representable)

namespace Scanner

variable {D : Type} {s t : Scanner D} {symbol : String} {point : TickerPoint D}

structure KeptHistory (s : Scanner D) (points : List (TickerPoint D)) : Prop where
  ordered : points.Pairwise fun a b => a.observedAt ≤ b.observedAt
  recent : ∀ newest ∈ points.getLast?, ∀ point ∈ points,
    s.cutoff newest.observedAt ≤ point.observedAt

structure Kept (s : Scanner D) : Prop where
  unique : (s.history.map Prod.fst).Nodup
  histories : ∀ symbol, s.KeptHistory (s.historyOf symbol)

theorem KeptHistory.append {points : List (TickerPoint D)} (h : s.KeptHistory points)
    (hnewer : ∀ newest ∈ points.getLast?, newest.observedAt ≤ point.observedAt) :
    s.KeptHistory ((points ++ [point]).dropWhile fun other =>
      other.observedAt < s.cutoff point.observedAt) := by
  have hordered : (points ++ [point]).Pairwise fun a b => a.observedAt ≤ b.observedAt := by
    refine List.pairwise_append.mpr ⟨h.ordered, List.pairwise_singleton _ _, ?_⟩
    intro other hother newest hnewest
    rw [List.mem_singleton.mp hnewest]
    obtain ⟨last, hlast⟩ := Option.isSome_iff_exists.mp
      (List.getLast?_isSome.mpr (List.ne_nil_of_mem hother))
    refine le_trans ?_ (hnewer last hlast)
    obtain ⟨front, hfront⟩ := List.getLast?_eq_some_iff.mp hlast
    rw [hfront] at hother h
    rcases List.mem_append.mp hother with hmem | hmem
    · exact (List.pairwise_append.mp h.ordered).2.2 other hmem last (List.mem_singleton_self _)
    · rw [List.mem_singleton.mp hmem]
  have hfilter : ((points ++ [point]).dropWhile fun other =>
      other.observedAt < s.cutoff point.observedAt) =
        (points ++ [point]).filter fun other => !decide (other.observedAt <
          s.cutoff point.observedAt) := by
    refine SortedPrefix.dropWhile_eq_filter (hordered.imp fun hle hold => ?_)
    exact decide_eq_true (lt_of_le_of_lt hle (of_decide_eq_true hold))
  rw [hfilter]
  refine ⟨hordered.filter _, ?_⟩
  intro newest hnewest other hother
  have hkept := (List.mem_filter.mp hother).2
  have hnew := (List.mem_filter.mp (List.mem_of_mem_getLast? hnewest)).1
  have hle : newest.observedAt ≤ point.observedAt := by
    rcases List.mem_append.mp hnew with hmem | hmem
    · exact (List.pairwise_append.mp hordered).2.2 newest hmem point (List.mem_singleton_self _)
    · rw [List.mem_singleton.mp hmem]
  have hcut : s.cutoff newest.observedAt ≤ s.cutoff point.observedAt := sub_le_sub_right hle _
  refine hcut.trans ?_
  simpa using hkept

theorem Kept.recordPoint (h : s.Kept) (hok : s.recordPoint symbol point = .ok t) : t.Kept := by
  unfold Scanner.recordPoint at hok
  cases holder : s.isOlder symbol point.observedAt with
  | true =>
    rw [if_pos holder] at hok
    cases hok
    exact h
  | false =>
    rw [if_neg (by simp [holder])] at hok
    dsimp only at hok
    split_ifs at hok
    cases hok
    refine ⟨Dict.nodup_set h.unique _ _, fun other => ?_⟩
    have hold := h.histories other
    by_cases hsymbol : symbol = other
    · subst hsymbol
      have hlatest : ∀ newest ∈ (s.historyOf symbol).getLast?,
          newest.observedAt ≤ point.observedAt := by
        intro newest hnewest
        unfold isOlder at holder
        rw [Option.mem_def.mp hnewest] at holder
        simpa using holder
      have happend := hold.append hlatest
      refine ⟨?_, ?_⟩
      · simpa [historyOf, Dict.get?_set] using happend.ordered
      · simpa [historyOf, Dict.get?_set, cutoff] using happend.recent
    · refine ⟨?_, ?_⟩
      · simpa [historyOf, Dict.get?_set, hsymbol] using hold.ordered
      · simpa [historyOf, Dict.get?_set, hsymbol, cutoff] using hold.recent

end Scanner

theorem Scanner.Kept.processRow {p : Platform} {now : Instant} {s t : Scanner Decimal}
    {item : Payload} (h : s.Kept) (hok : s.processRow p now item = .ok t) : t.Kept := by
  rcases Scanner.processRow_cases hok with rfl | ⟨row, symbol, -, -, hticker | hbook⟩
  · exact h
  · obtain ⟨observedAt, point, -, -, hrecorded⟩ := hticker
    exact h.recordPoint hrecorded
  · obtain ⟨observedAt, quotes, book, -, -, -, rfl⟩ := hbook
    exact ⟨h.unique, fun other => ⟨(h.histories other).ordered, (h.histories other).recent⟩⟩

section

variable {D D' : Type}

def TickerPoint.map (f : D → D') (point : TickerPoint D) : TickerPoint D' where
  observedAt := point.observedAt
  price := f point.price
  quoteVolume := f point.quoteVolume
  tradeCount := point.tradeCount

def BookPoint.map (f : D → D') (book : BookPoint D) : BookPoint D' where
  observedAt := book.observedAt
  spreadBps := f book.spreadBps
  bidLevelNotional := f book.bidLevelNotional
  askLevelNotional := f book.askLevelNotional

def Scanner.map (f : D → D') (s : Scanner D) : Scanner D' :=
  { s with
    history := s.history.map fun entry => (entry.1, entry.2.map (TickerPoint.map f))
    books := s.books.map fun entry => (entry.1, entry.2.map f) }

variable {f : D → D'} {s : Scanner D}

theorem Scanner.historyOf_map (f : D → D') (s : Scanner D) (symbol : String) :
    (s.map f).historyOf symbol = (s.historyOf symbol).map (TickerPoint.map f) := by
  unfold Scanner.historyOf Scanner.map
  rw [Dict.get?_map_value]
  cases Dict.get? s.history symbol <;> rfl

theorem Scanner.isOlder_map (f : D → D') (s : Scanner D) (symbol : String) (observedAt : Instant) :
    (s.map f).isOlder symbol observedAt = s.isOlder symbol observedAt := by
  unfold Scanner.isOlder
  rw [Scanner.historyOf_map, List.getLast?_map]
  cases (s.historyOf symbol).getLast? <;> rfl

theorem Scanner.recordPoint_map {symbol : String} {point : TickerPoint D} {t' : Scanner D'}
    (h : (s.map f).recordPoint symbol (point.map f) = .ok t') :
    ∃ t, s.recordPoint symbol point = .ok t ∧ t' = t.map f := by
  unfold Scanner.recordPoint at h ⊢
  rw [Scanner.isOlder_map] at h
  change (if s.isOlder symbol point.observedAt = true then _ else _) = _ at h
  split_ifs at h ⊢ with holder
  · exact ⟨s, rfl, (Except.ok.inj h).symm⟩
  · dsimp only at h ⊢
    have hcutoff : (s.map f).cutoff (point.map f).observedAt = s.cutoff point.observedAt := rfl
    rw [hcutoff] at h
    split_ifs at h ⊢ with hrepresentable
    refine ⟨_, rfl, ?_⟩
    rw [← Except.ok.inj h, Scanner.historyOf_map]
    have happend : (s.historyOf symbol).map (TickerPoint.map f) ++ [point.map f] =
        (s.historyOf symbol ++ [point]).map (TickerPoint.map f) := by simp
    have hdrop : ((s.historyOf symbol ++ [point]).map (TickerPoint.map f)).dropWhile
        (fun other => other.observedAt < s.cutoff point.observedAt) =
          ((s.historyOf symbol ++ [point]).dropWhile fun other =>
            other.observedAt < s.cutoff point.observedAt).map (TickerPoint.map f) := by
      rw [List.dropWhile_map]
      rfl
    rw [happend, hdrop]
    unfold Scanner.map
    dsimp only
    rw [Dict.set_map_value]

end

theorem finite_of_hasNumber {row : Row} {key : String} {value : Decimal}
    (hnumber : hasNumber row key = true)
    (hvalue : (do decimalOf (← field row key)) = .ok value) : ∃ number, value = .finite number := by
  unfold hasNumber at hnumber
  unfold field at hvalue
  cases hfield : Dict.get? row key with
  | none =>
    rw [hfield] at hnumber
    cases hnumber
  | some found =>
    rw [hfield] at hnumber hvalue
    have hok : decimalOf found = .ok value := hvalue
    have hfound : found.isNumber = true := hnumber
    unfold decimalOf at hok
    split at hok
    · cases hok
      exact ⟨_, rfl⟩
    · cases hok
      exact ⟨_, rfl⟩
    · cases hfound
    · cases hfound
    · split at hok
      · rename_i htext
        cases hok
        unfold Payload.isNumber at hfound
        dsimp only at hfound
        rw [htext] at hfound
        cases value with
        | finite number => exact ⟨number, rfl⟩
        | infinity negative => cases hfound
        | nan signaling => cases hfound
      · cases hok
    · cases hok
    · cases hok
    · cases hok
    · cases hok

section

variable {x y : ℚ} {d : Decimal}

theorem add_finite (h : (Decimal.finite x).add (.finite y) = some d) : ∃ z, d = .finite z := by
  obtain ⟨z, -, rfl⟩ := Option.map_eq_some_iff.mp h
  exact ⟨z, rfl⟩

theorem mul_finite (h : (Decimal.finite x).mul (.finite y) = some d) : ∃ z, d = .finite z := by
  obtain ⟨z, -, rfl⟩ := Option.map_eq_some_iff.mp h
  exact ⟨z, rfl⟩

theorem div_finite (h : (Decimal.finite x).div (.finite y) = some d) : ∃ z, d = .finite z := by
  unfold Decimal.div at h
  dsimp only at h
  split_ifs at h
  obtain ⟨z, -, rfl⟩ := Option.map_eq_some_iff.mp h
  exact ⟨z, rfl⟩

theorem book_finite {bid ask bidQuantity askQuantity : ℚ} {observedAt : Instant}
    {book : BookPoint Decimal}
    (h : (Quotes.mk (.finite bid) (.finite ask) (.finite bidQuantity)
      (.finite askQuantity)).book observedAt = some book) :
    ∃ finite : BookPoint ℚ, book = finite.map .finite := by
  unfold Quotes.book at h
  simp only [Option.bind_eq_bind, Option.bind_eq_some_iff] at h
  obtain ⟨sum, hsum, mid, hmid, gap, hgap, ratio, hratio, spread, hspread, bidLevel, hbidLevel,
    askLevel, haskLevel, hbook⟩ := h
  obtain ⟨sum, rfl⟩ := add_finite hsum
  obtain ⟨mid, rfl⟩ := div_finite hmid
  obtain ⟨gap, rfl⟩ := add_finite hgap
  obtain ⟨ratio, rfl⟩ := div_finite hratio
  obtain ⟨spread, rfl⟩ := mul_finite hspread
  obtain ⟨bidLevel, rfl⟩ := mul_finite hbidLevel
  obtain ⟨askLevel, rfl⟩ := mul_finite haskLevel
  exact ⟨⟨observedAt, spread, bidLevel, askLevel⟩, (Option.some.inj hbook).symm⟩

end

/-- A row that the scanner does not look at. -/
def ignored (p : Platform) (allowed : List String) : Payload → Bool
  | .obj row => (p.watched allowed row).isNone || (eventOf row).isNone
  | _ => true

def AllFinite (s : Scanner Decimal) : Prop := ∃ view : Scanner ℚ, s = view.map .finite

section

variable {p : Platform} {now : Instant} {s t : Scanner Decimal}

theorem tickerOf_finite {row : Row} {observedAt : Instant} {point : TickerPoint Decimal}
    (hprice : hasNumber row "c" = true) (hvolume : hasNumber row "q" = true)
    (h : tickerOf row observedAt = .ok point) :
    ∃ finite : TickerPoint ℚ, point = finite.map .finite := by
  unfold tickerOf at h
  obtain ⟨c, hc, h⟩ := bind_eq_ok.mp h
  obtain ⟨price, hprice', h⟩ := bind_eq_ok.mp h
  obtain ⟨q, hq, h⟩ := bind_eq_ok.mp h
  obtain ⟨volume, hvolume', h⟩ := bind_eq_ok.mp h
  obtain ⟨n, -, h⟩ := bind_eq_ok.mp h
  obtain ⟨count, -, h⟩ := bind_eq_ok.mp h
  obtain ⟨price, rfl⟩ := finite_of_hasNumber hprice (bind_eq_ok.mpr ⟨c, hc, hprice'⟩)
  obtain ⟨volume, rfl⟩ := finite_of_hasNumber hvolume (bind_eq_ok.mpr ⟨q, hq, hvolume'⟩)
  exact ⟨⟨observedAt, price, volume, count⟩, (Except.ok.inj h).symm⟩

theorem quotesOf_finite {row : Row} {quotes : Quotes Decimal}
    (hnumbers : (["b", "a", "B", "A"].all (hasNumber row)) = true)
    (h : quotesOf row = .ok quotes) :
    ∃ bid ask bidQuantity askQuantity, quotes =
      ⟨.finite bid, .finite ask, .finite bidQuantity, .finite askQuantity⟩ := by
  have hall := List.all_eq_true.mp hnumbers
  unfold quotesOf at h
  obtain ⟨b, hb, h⟩ := bind_eq_ok.mp h
  obtain ⟨bid, hbid, h⟩ := bind_eq_ok.mp h
  obtain ⟨a, ha, h⟩ := bind_eq_ok.mp h
  obtain ⟨ask, hask, h⟩ := bind_eq_ok.mp h
  obtain ⟨bq, hbq, h⟩ := bind_eq_ok.mp h
  obtain ⟨bidQuantity, hbidQuantity, h⟩ := bind_eq_ok.mp h
  obtain ⟨aq, haq, h⟩ := bind_eq_ok.mp h
  obtain ⟨askQuantity, haskQuantity, h⟩ := bind_eq_ok.mp h
  obtain ⟨bid, rfl⟩ := finite_of_hasNumber (hall "b" (by simp)) (bind_eq_ok.mpr ⟨b, hb, hbid⟩)
  obtain ⟨ask, rfl⟩ := finite_of_hasNumber (hall "a" (by simp)) (bind_eq_ok.mpr ⟨a, ha, hask⟩)
  obtain ⟨bidQuantity, rfl⟩ :=
    finite_of_hasNumber (hall "B" (by simp)) (bind_eq_ok.mpr ⟨bq, hbq, hbidQuantity⟩)
  obtain ⟨askQuantity, rfl⟩ :=
    finite_of_hasNumber (hall "A" (by simp)) (bind_eq_ok.mpr ⟨aq, haq, haskQuantity⟩)
  exact ⟨bid, ask, bidQuantity, askQuantity, (Except.ok.inj h).symm⟩

theorem needed_of_formed {row : Row} {symbol : String}
    (hwatched : p.watched s.allowedSymbols row = some symbol)
    (hformed : wellFormed p s.allowedSymbols now (.obj row) = true ∨
      ignored p s.allowedSymbols (.obj row) = true) :
    (eventOf row = some .ticker → hasNumber row "c" = true ∧ hasNumber row "q" = true) ∧
      (eventOf row = some .book → (["b", "a", "B", "A"].all (hasNumber row)) = true) := by
  rcases hformed with hformed | hignored
  · unfold wellFormed at hformed
    obtain ⟨-, hfields⟩ := Bool.and_eq_true_iff.mp hformed
    refine ⟨fun hticker => ?_, fun hbook => ?_⟩
    · rw [hticker] at hfields
      simp only [Bool.and_eq_true] at hfields
      exact hfields.1
    · rw [hbook] at hfields
      exact hfields
  · unfold ignored at hignored
    dsimp only at hignored
    rw [hwatched] at hignored
    have hnone : eventOf row = none := by simpa using hignored
    rw [hnone]
    exact ⟨nofun, nofun⟩

theorem AllFinite.processRow (h : AllFinite s) {item : Payload}
    (hformed : wellFormed p s.allowedSymbols now item = true ∨
      ignored p s.allowedSymbols item = true)
    (hok : s.processRow p now item = .ok t) : AllFinite t := by
  rcases Scanner.processRow_cases hok with rfl | ⟨row, symbol, rfl, hwatched, hticker | hbook⟩
  · exact h
  · obtain ⟨observedAt, point, hevent, hpoint, hrecorded⟩ := hticker
    obtain ⟨hprice, hvolume⟩ := (needed_of_formed hwatched hformed).1 hevent
    obtain ⟨finite, rfl⟩ := tickerOf_finite hprice hvolume hpoint
    obtain ⟨view, rfl⟩ := h
    obtain ⟨later, -, hlater⟩ := Scanner.recordPoint_map hrecorded
    exact ⟨later, hlater⟩
  · obtain ⟨observedAt, quotes, book, hevent, hquotes, hbook, rfl⟩ := hbook
    obtain ⟨bid, ask, bidQuantity, askQuantity, rfl⟩ :=
      quotesOf_finite ((needed_of_formed hwatched hformed).2 hevent) hquotes
    obtain ⟨finite, rfl⟩ := book_finite hbook
    obtain ⟨view, rfl⟩ := h
    refine ⟨view.recordBookPoint symbol finite, ?_⟩
    unfold Scanner.recordBookPoint Scanner.map
    rw [Dict.set_map_value]

end

/-- `f"{exchange_symbol[:-4]}/USDT"`. -/
def canonical (exchangeSymbol : String) : String :=
  String.ofList (exchangeSymbol.toList.take (exchangeSymbol.length - 4)) ++ "/USDT"

/-- The sort key of a metric. -/
def CandidateMetric.key (metric : CandidateMetric) : ℚ ×ₗ ℚ ×ₗ ℚ ×ₗ ℚ :=
  toLex (metric.quoteVolumeVelocity, toLex (metric.tradeCountVelocity,
    toLex (metric.absolutePriceReturn, metric.quoteVolume24h)))

def compared (symbol : String) (current baseline : TickerPoint ℚ) (book : BookPoint ℚ) :
    Option CandidateMetric := do
  let volumeGain ← Decimal.rounded (current.quoteVolume - baseline.quoteVolume)
  let volumeBase ← Decimal.rounded |baseline.quoteVolume|
  let quoteVelocity ← Decimal.rounded (volumeGain / max volumeBase 1)
  let tradeVelocity ← Decimal.rounded
    ((current.tradeCount - baseline.tradeCount : ℤ) / (max |baseline.tradeCount| 1 : ℤ))
  let priceReturn ←
    if 0 < baseline.price then do
      let change ← Decimal.rounded (current.price - baseline.price)
      let relative ← Decimal.rounded (change / baseline.price)
      Decimal.rounded |relative|
    else some 0
  return {
    canonicalSymbol := canonical symbol
    observedAt := current.observedAt
    quoteVolume24h := current.quoteVolume
    quoteVolumeVelocity := max 0 quoteVelocity
    tradeCountVelocity := max 0 tradeVelocity
    absolutePriceReturn := priceReturn
    spreadBps := book.spreadBps
    bidLevelNotional := book.bidLevelNotional
    askLevelNotional := book.askLevelNotional }

namespace Scanner

variable (scanner : Scanner ℚ) (now : Instant)

def minimumStart : Instant := now - scanner.lookbackSeconds * 1000000

def baselineOf (points : List (TickerPoint ℚ)) : Option (TickerPoint ℚ) :=
  points.find? fun point => point.observedAt ≤ scanner.minimumStart now

/-- One turn of the loop of `rank`: a metric, or nothing for a symbol that is passed over. -/
def metricOf (entry : String × List (TickerPoint ℚ)) : Except Raised (Option CandidateMetric) :=
  if entry.2.length < 2 then .ok none
  else
    match entry.2.getLast?, scanner.baselineOf now entry.2, Dict.get? scanner.books entry.1 with
    | some current, some baseline, some book =>
      if canonical entry.1 ∈ scanner.excluded then .ok none
      else if scanner.bookStaleSeconds * 1000000 < now - book.observedAt then .ok none
      else if current.quoteVolume < scanner.minimumQuoteVolume24h then .ok none
      else if scanner.maximumSpreadBps < book.spreadBps then .ok none
      else if min book.bidLevelNotional book.askLevelNotional < scanner.minimumBestLevelNotional then
        .ok none
      else
        match compared entry.1 current baseline book with
        | some metric => .ok (some metric)
        | none => .error .arithmeticError
    | _, _, _ => .ok none

def eligible : Except Raised (List CandidateMetric) :=
  if Representable (scanner.minimumStart now) then do
    let found ← scanner.history.mapM (scanner.metricOf now)
    return found.filterMap id
  else .error .overflowError

/-- `rank`; the sort is stable, with the largest key first. -/
def rank : Except Raised (List CandidateMetric) := do
  let metrics ← scanner.eligible now
  return (metrics.insertionSort fun a b => b.key ≤ a.key).take scanner.candidateLimit

variable {scanner now}

structure TopK (scanner : Scanner ℚ) (found metrics : List CandidateMetric) : Prop where
  limited : metrics.length ≤ scanner.candidateLimit
  ordered : metrics.Pairwise fun a b => b.key ≤ a.key
  rest : ∃ left, found.Perm (metrics ++ left) ∧
    (left ≠ [] → metrics.length = scanner.candidateLimit) ∧
    ∀ other ∈ left, ∀ metric ∈ metrics, other.key ≤ metric.key

theorem topK_take (scanner : Scanner ℚ) (found : List CandidateMetric) :
    TopK scanner found
      ((found.insertionSort fun a b => b.key ≤ a.key).take scanner.candidateLimit) := by
  have : Std.Total fun a b : CandidateMetric => b.key ≤ a.key := ⟨fun a b => le_total _ _⟩
  have : IsTrans CandidateMetric fun a b => b.key ≤ a.key := ⟨fun _ _ _ hab hbc => hbc.trans hab⟩
  have hsorted := List.pairwise_insertionSort (fun a b : CandidateMetric => b.key ≤ a.key) found
  have hperm := List.perm_insertionSort (fun a b : CandidateMetric => b.key ≤ a.key) found
  generalize (found.insertionSort fun a b => b.key ≤ a.key) = sorted at hsorted hperm
  refine ⟨List.length_take_le _ _, hsorted.sublist (List.take_sublist _ _), ?_⟩
  refine ⟨sorted.drop scanner.candidateLimit, ?_, ?_, ?_⟩
  · rw [List.take_append_drop]
    exact hperm.symm
  · intro hleft
    have hlong : scanner.candidateLimit ≤ sorted.length := by
      by_contra hshort
      exact hleft (List.drop_eq_nil_of_le (by omega))
    exact List.length_take_of_le hlong
  · intro other hother metric hmetric
    rw [← List.take_append_drop scanner.candidateLimit sorted] at hsorted
    exact (List.pairwise_append.mp hsorted).2.2 metric hmetric other hother

structure Compares (scanner : Scanner ℚ) (now : Instant) (symbol : String)
    (metric : CandidateMetric) (current baseline : TickerPoint ℚ) : Prop where
  selected : scanner.metricOf now (symbol, scanner.historyOf symbol) = .ok (some metric)
  newest : (scanner.historyOf symbol).getLast? = some current
  found : scanner.baselineOf now (scanner.historyOf symbol) = some baseline
  value : ∃ book, Dict.get? scanner.books symbol = some book ∧
    compared symbol current baseline book = some metric

/-- How much older the ticker is that the newest one is compared with. -/
def window (current baseline : TickerPoint ℚ) : ℤ := current.observedAt - baseline.observedAt

theorem ok_of_ite {c : Prop} [Decidable c] {rest : Except Raised (Option CandidateMetric)}
    {metric : CandidateMetric} (h : (if c then .ok none else rest) = .ok (some metric)) :
    rest = .ok (some metric) := by
  split at h
  · cases h
  · exact h

theorem compares_of_metricOf {symbol : String} {metric : CandidateMetric}
    (h : scanner.metricOf now (symbol, scanner.historyOf symbol) = .ok (some metric)) :
    ∃ current baseline, Compares scanner now symbol metric current baseline := by
  have hselected := h
  unfold metricOf at h
  replace h := ok_of_ite h
  split at h
  · rename_i current baseline book hcurrent hbaseline hbook
    replace h := ok_of_ite (ok_of_ite (ok_of_ite (ok_of_ite (ok_of_ite h))))
    split at h
    · rename_i value hvalue
      cases h
      exact ⟨current, baseline, hselected, hcurrent, hbaseline, book, hbook, hvalue⟩
    · cases h
  · cases h

theorem Kept.baseline (h : scanner.Kept) {symbol : String} {baseline : TickerPoint ℚ}
    (hfound : scanner.baselineOf now (scanner.historyOf symbol) = some baseline) :
    (scanner.historyOf symbol).head? = some baseline := by
  have hordered := (h.histories symbol).ordered
  unfold baselineOf at hfound
  cases hpoints : scanner.historyOf symbol with
  | nil =>
    rw [hpoints] at hfound
    cases hfound
  | cons first rest =>
    rw [hpoints] at hfound hordered
    have hold := List.find?_some hfound
    have hmem := List.mem_of_find?_eq_some hfound
    have hfirst : first.observedAt ≤ scanner.minimumStart now := by
      rcases List.mem_cons.mp hmem with rfl | hrest
      · exact of_decide_eq_true hold
      · exact ((List.pairwise_cons.mp hordered).1 baseline hrest).trans (of_decide_eq_true hold)
    rw [List.find?_cons_of_pos (by simpa using hfirst)] at hfound
    exact hfound

theorem Kept.window_le (h : scanner.Kept) {symbol : String} {metric : CandidateMetric}
    {current baseline : TickerPoint ℚ}
    (hcompares : Compares scanner now symbol metric current baseline) :
    window current baseline ≤ scanner.lookbackSeconds * 2 * 1000000 := by
  have hrecent := (h.histories symbol).recent current hcompares.newest baseline
    (List.mem_of_find?_eq_some hcompares.found)
  exact sub_le_comm.mp hrecent

theorem Kept.mem_eligible (h : scanner.Kept) {found : List CandidateMetric}
    (hfound : scanner.eligible now = .ok found) {metric : CandidateMetric} :
    metric ∈ found ↔
      ∃ symbol, scanner.metricOf now (symbol, scanner.historyOf symbol) = .ok (some metric) := by
  unfold eligible at hfound
  split_ifs at hfound
  obtain ⟨results, hresults, hreturn⟩ := bind_eq_ok.mp hfound
  cases hreturn
  have hforall := mapM_eq_ok_iff.mp hresults
  rw [List.mem_filterMap]
  constructor
  · rintro ⟨result, hresult, hsome⟩
    obtain ⟨⟨symbol, points⟩, hentry, hmetric⟩ := exists_of_forall₂_right hforall hresult
    refine ⟨symbol, ?_⟩
    have hpoints : scanner.historyOf symbol = points := by
      rw [historyOf, Dict.get?_of_mem h.unique hentry]
      rfl
    rw [hpoints, hmetric]
    exact congrArg Except.ok hsome
  · rintro ⟨symbol, hmetric⟩
    have hentry : (symbol, scanner.historyOf symbol) ∈ scanner.history := by
      unfold historyOf at hmetric ⊢
      cases hget : Dict.get? scanner.history symbol with
      | some points => exact Dict.mem_of_get? hget
      | none =>
        rw [hget] at hmetric
        cases hmetric
    obtain ⟨result, hresult, hvalue⟩ := exists_of_forall₂_left hforall hentry
    exact ⟨result, hresult, Except.ok.inj (hvalue.symm.trans hmetric)⟩

def Settled (scanner : Scanner ℚ) (now : Instant) : Prop :=
  ∀ symbol metric, scanner.metricOf now (symbol, scanner.historyOf symbol) = .ok (some metric) →
    ∀ oldest ∈ (scanner.historyOf symbol).head?, ∀ newest ∈ (scanner.historyOf symbol).getLast?,
      scanner.lookbackSeconds * 1000000 ≤ window newest oldest

def EqualLookback (scanner : Scanner ℚ) (now : Instant) (metrics : List CandidateMetric) : Prop :=
  ∀ symbol metric current baseline, Compares scanner now symbol metric current baseline →
    metric ∈ metrics → scanner.lookbackSeconds * 1000000 ≤ window current baseline

theorem Kept.equalLookback_of_settled (h : scanner.Kept) (hsettled : scanner.Settled now)
    (metrics : List CandidateMetric) : scanner.EqualLookback now metrics := by
  intro symbol metric current baseline hcompares _
  exact hsettled symbol metric hcompares.selected baseline (h.baseline hcompares.found) current
    hcompares.newest

theorem Kept.settled_of_equalLookback (h : scanner.Kept) {found metrics : List CandidateMetric}
    (hfound : scanner.eligible now = .ok found) (hall : ∀ metric ∈ found, metric ∈ metrics)
    (hequal : scanner.EqualLookback now metrics) : scanner.Settled now := by
  intro symbol metric hmetric oldest holdest newest hnewest
  obtain ⟨current, baseline, hcompares⟩ := compares_of_metricOf hmetric
  have hmem := hall metric ((h.mem_eligible hfound).mpr ⟨symbol, hmetric⟩)
  have hwindow := hequal symbol metric current baseline hcompares hmem
  have holdest : oldest = baseline :=
    Option.some.inj (holdest.symm.trans (h.baseline hcompares.found))
  have hnewest : newest = current := Option.some.inj (hnewest.symm.trans hcompares.newest)
  rw [holdest, hnewest]
  exact hwindow

end Scanner

/-- A call of `process_message`. -/
structure Call where
  payload : Row
  now : Instant

namespace Scanner

def processCalls (p : Platform) (scanner : Scanner Decimal) (calls : List Call) :
    Except Raised (Scanner Decimal) :=
  calls.foldlM (fun scanner call => scanner.processMessage p call.now call.payload) scanner

/-- The scanner before its first call. -/
def fresh (start : Scanner Decimal) : Scanner Decimal := { start with history := [], books := [] }

structure Recorded (start s : Scanner Decimal) : Prop where
  settings : SameSettings start s
  kept : s.Kept
  finite : AllFinite s

variable {p : Platform} {start s t : Scanner Decimal} {now : Instant}

theorem recorded_fresh (start : Scanner Decimal) : Recorded start start.fresh := by
  refine ⟨rfl, ⟨List.nodup_nil, fun symbol => ⟨List.Pairwise.nil, ?_⟩⟩, ?_⟩
  · intro newest hnewest
    cases hnewest
  · exact ⟨{ start with history := [], books := [] }, rfl⟩

theorem Recorded.processRow (h : Recorded start s) {row : Payload}
    (hformed : wellFormed p start.allowedSymbols now row = true ∨
      ignored p start.allowedSymbols row = true)
    (hok : s.processRow p now row = .ok t) : Recorded start t := by
  have hallowed : start.allowedSymbols = s.allowedSymbols := by rw [h.settings]
  rw [hallowed] at hformed
  have hsettings := h.settings
  have hsame := sameSettings_processRow hok
  refine ⟨?_, h.kept.processRow hok, h.finite.processRow hformed hok⟩
  unfold SameSettings at *
  rw [hsame, hsettings]

theorem Recorded.processCalls (h : Recorded start s) {calls : List Call}
    (hformed : ∀ call ∈ calls, ∀ row ∈ rowsOf call.payload,
      wellFormed p start.allowedSymbols call.now row = true ∨
        ignored p start.allowedSymbols row = true)
    (hok : s.processCalls p calls = .ok t) : Recorded start t := by
  refine invariant_foldlM (fun call hcall a b ha hb => ?_) hok h
  refine invariant_foldlM (fun row hrow c d hc hd => ?_) hb ha
  exact hc.processRow (hformed call hcall row hrow) hd

theorem Kept.of_map {D D' : Type} {f : D → D'} {view : Scanner D} (h : (view.map f).Kept) :
    view.Kept := by
  refine ⟨?_, fun symbol => ⟨?_, ?_⟩⟩
  · have hunique := h.unique
    unfold Scanner.map at hunique
    rwa [List.map_map] at hunique
  · have hordered := (h.histories symbol).ordered
    rw [historyOf_map, List.pairwise_map] at hordered
    exact hordered
  · intro newest hnewest point hpoint
    have hrecent := (h.histories symbol).recent
    rw [historyOf_map, List.getLast?_map] at hrecent
    exact hrecent (newest.map f) (Option.mem_map_of_mem _ hnewest) (point.map f)
      (List.mem_map_of_mem hpoint)

/-- The ranking is an exact top-k, whose metrics compare tickers at most twice the lookback apart.
They are at least one lookback apart in a settled state, and only there if none is left out. -/
structure Ranked (scanner : Scanner ℚ) (now : Instant) (metrics : List CandidateMetric) : Prop where
  compares : ∀ metric ∈ metrics, ∃ symbol current baseline,
    Compares scanner now symbol metric current baseline
  bounded : ∀ symbol metric current baseline, Compares scanner now symbol metric current baseline →
    window current baseline ≤ scanner.lookbackSeconds * 2 * 1000000
  topK : ∃ found, TopK scanner found metrics ∧
    (∀ metric, metric ∈ found ↔
      ∃ symbol, scanner.metricOf now (symbol, scanner.historyOf symbol) = .ok (some metric)) ∧
    (found.length ≤ scanner.candidateLimit →
      scanner.EqualLookback now metrics → scanner.Settled now)
  equalLookback : scanner.Settled now → scanner.EqualLookback now metrics

theorem Kept.ranked {scanner : Scanner ℚ} (h : scanner.Kept) {metrics : List CandidateMetric}
    (hrank : scanner.rank now = .ok metrics) : scanner.Ranked now metrics := by
  obtain ⟨found, hfound, hreturn⟩ := bind_eq_ok.mp hrank
  have htop := topK_take scanner found
  rw [Except.ok.inj hreturn] at htop
  obtain ⟨left, hperm, hfull, -⟩ := htop.rest
  have hmem : ∀ metric ∈ metrics, metric ∈ found := fun metric hmetric =>
    hperm.mem_iff.mpr (List.mem_append_left left hmetric)
  refine ⟨?_, fun _ _ _ _ hcompares => h.window_le hcompares, ⟨found, htop, ?_, ?_⟩, ?_⟩
  · intro metric hmetric
    obtain ⟨symbol, hselected⟩ := (h.mem_eligible hfound).mp (hmem metric hmetric)
    exact ⟨symbol, compares_of_metricOf hselected⟩
  · exact fun metric => h.mem_eligible hfound
  · intro hlength
    refine h.settled_of_equalLookback hfound fun metric hmetric => ?_
    have hnone : left = [] := by
      by_contra hleft
      have hmetrics := hfull hleft
      have hsum := hperm.length_eq
      rw [List.length_append] at hsum
      have hpos := List.length_pos_iff.mpr hleft
      omega
    rw [hnone, List.append_nil] at hperm
    exact hperm.mem_iff.mp hmetric
  · exact fun hsettled => h.equalLookback_of_settled hsettled metrics

end Scanner

/-- After each run of well-formed calls the ranking is an exact top-k over at most twice the
lookback, and over at least one lookback if the state is settled. -/
theorem ranks_equal_lookback (p : Platform) (start : Scanner Decimal) {calls : List Call}
    (hformed : ∀ call ∈ calls, ∀ row ∈ Scanner.rowsOf call.payload,
      wellFormed p start.allowedSymbols call.now row = true ∨
        ignored p start.allowedSymbols row = true)
    {s : Scanner Decimal} (hrun : start.fresh.processCalls p calls = .ok s) :
    SameSettings start s ∧ ∃ view : Scanner ℚ, s = view.map .finite ∧
      ∀ now metrics, view.rank now = .ok metrics → view.Ranked now metrics := by
  obtain ⟨hsettings, hkept, view, rfl⟩ := (Scanner.recorded_fresh start).processCalls hformed hrun
  exact ⟨hsettings, view, rfl, fun now metrics hrank => hkept.of_map.ranked hrank⟩

section

def tickerAt (seconds : ℤ) (quoteVolume : String) : Call where
  payload := [("data", tickerRow (.int (seconds * 1000)) "100" quoteVolume)]
  now := seconds * 1000000

def bookAt (seconds : ℤ) : Call where
  payload := [("e", .str "bookTicker"), ("E", .int (seconds * 1000)), ("s", .str "AAAUSDT"),
    ("b", .str "100"), ("a", .str "100"), ("B", .str "100"), ("A", .str "100")]
  now := seconds * 1000000

def tickersThenBook (second : ℤ) : List Call :=
  [tickerAt 0 "1000000", tickerAt second "2000000", bookAt 80]

def tickerPointAt (seconds : ℤ) (quoteVolume : ℚ) : TickerPoint ℚ where
  observedAt := seconds * 1000000
  price := 100
  quoteVolume := quoteVolume
  tradeCount := 100

def tightBook : BookPoint ℚ where
  observedAt := 80000000
  spreadBps := 0
  bidLevelNotional := 10000
  askLevelNotional := 10000

def tickersThenBookView (second : ℤ) : Scanner ℚ where
  allowedSymbols := ["AAAUSDT"]
  history := [("AAAUSDT", [tickerPointAt 0 1000000, tickerPointAt second 2000000])]
  books := [("AAAUSDT", tightBook)]
  lookback_pos := Scanner.default_lookback_pos
  stale_pos := Scanner.default_stale_pos
  limit_pos := Scanner.default_limit_pos

theorem ranks_equal_lookback_settled :
    SameSettings watchingScanner ((tickersThenBookView 60).map .finite) ∧
      ∃ view : Scanner ℚ, (tickersThenBookView 60).map Decimal.finite = view.map .finite ∧
        ∀ now metrics, view.rank now = .ok metrics → view.Ranked now metrics :=
  have hformed : ∀ call ∈ tickersThenBook 60, ∀ row ∈ Scanner.rowsOf call.payload,
      wellFormed exactPlatform watchingScanner.allowedSymbols call.now row = true ∨
        ignored exactPlatform watchingScanner.allowedSymbols row = true := by
    decide +kernel
  have hrun : watchingScanner.fresh.processCalls exactPlatform (tickersThenBook 60) =
      .ok ((tickersThenBookView 60).map .finite) := by
    decide +kernel
  ranks_equal_lookback exactPlatform watchingScanner hformed hrun

def stalledMetric : CandidateMetric where
  canonicalSymbol := "AAA/USDT"
  observedAt := 30000000
  quoteVolume24h := 2000000
  quoteVolumeVelocity := 1
  tradeCountVelocity := 0
  absolutePriceReturn := 0
  spreadBps := 0
  bidLevelNotional := 10000
  askLevelNotional := 10000

/-- The tickers stop half a minute after the first, and a minute later the symbol is ranked over
that half minute. -/
theorem stalled_ticker_compares_less :
    (∀ call ∈ tickersThenBook 30, call.now ≤ 85000000 ∧ ∀ row ∈ Scanner.rowsOf call.payload,
      wellFormed exactPlatform watchingScanner.allowedSymbols call.now row = true) ∧
    watchingScanner.fresh.processCalls exactPlatform (tickersThenBook 30) =
      .ok ((tickersThenBookView 30).map .finite) ∧
    (tickersThenBookView 30).rank 85000000 = .ok [stalledMetric] ∧
    ¬ (tickersThenBookView 30).EqualLookback 85000000 [stalledMetric] := by
  refine ⟨by decide +kernel, by decide +kernel, by decide +kernel, fun hequal => ?_⟩
  have hcompares : Scanner.Compares (tickersThenBookView 30) 85000000 "AAAUSDT" stalledMetric
      (tickerPointAt 30 2000000) (tickerPointAt 0 1000000) :=
    ⟨by decide +kernel, by decide +kernel, by decide +kernel, tightBook, by decide +kernel,
      by decide +kernel⟩
  have hwindow := hequal _ _ _ _ hcompares (List.mem_singleton_self _)
  revert hwindow
  decide

end

end ChainQuantStudio.Universe
