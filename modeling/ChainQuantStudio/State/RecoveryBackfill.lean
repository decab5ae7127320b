import ChainQuantStudio.Library.Columns
import ChainQuantStudio.Library.EvenlySpaced
import ChainQuantStudio.State.CandleDelivery
import ChainQuantStudio.State.ClosedWindows

/-!
# Backfills after a short disconnect

The number of bars requested is the outage in bars, rounded up, and two more. They reach back to the
bar after the stored ones, whatever the outage and the bars' grid are to each other, so the window
stays without a gap. Bars older than all stored ones are not taken.
-/

namespace ChainQuantStudio.State.Candles

open BoundedDeque Data EvenlySpaced OrderBook Supervisor

/-- The outage that `_consume_forever` measures, from instants in microseconds. -/
def outageSeconds (disconnectedSince measuredAt : ℚ) : ℚ :=
  max 0 ((measuredAt - disconnectedSince) / 1000000)

def recoveryLimit (candleWarmupSize : ℕ) (outage : ℚ) (duration : ℤ) : ℤ :=
  min candleWarmupSize (max 2 (⌈outage / totalSeconds duration⌉ + 2))

/-- `sorted(candles, key=lambda item: item.open_time)`. -/
def byOpenTime (candles : List Candle) : List Candle :=
  candles.insertionSort fun a b => a.openTime ≤ b.openTime

namespace CandleSupervisor

/-- One turn of the loop of `_apply_recovery_candles`, with the number of candles applied. -/
def recoverCandle (recovering : CandleSupervisor × ℕ) (candle : Candle) : CandleSupervisor × ℕ :=
  let (supervisor, appliedCount) := recovering
  let (candles, applied) := supervisor.candles.upsert candle
  if applied then
    let handled :=
      if candle.isClosed then supervisor.handled ++ [candle] else supervisor.handled
    ({ supervisor with candles, handled }, appliedCount + 1)
  else ({ supervisor with candles }, appliedCount)

def applyRecoveryCandles (supervisor : CandleSupervisor) (candles : List Candle) :
    CandleSupervisor × ℕ :=
  (byOpenTime candles).foldl recoverCandle (supervisor, 0)

/-- `_backfill_recovery_candles`; `answers` is what `get_candles` returns. -/
def backfillRecoveryCandles (supervisor : CandleSupervisor) (candleWarmupSize : ℕ) (outage : ℚ)
    (answers : Key → ℤ → Except Escaped (List Candle)) (requests : List Key) :
    Except Escaped CandleSupervisor :=
  requests.foldlM (fun supervisor key =>
    match intervalDuration key.2 with
    | none => .error (.raised (unsupportedInterval key.2))
    | some duration => do
      let candles ← answers key (recoveryLimit candleWarmupSize outage duration)
      return (supervisor.applyRecoveryCandles candles).1) supervisor

end CandleSupervisor

structure Reaching (duration : ℤ) (bars : List Candle) (newest : Instant) : Prop where
  spaced : Spaced duration (bars.map Candle.openTime)
  last : (bars.map Candle.openTime).getLast? = some newest

def isFresh (bars : List Candle) (candle : Candle) : Bool :=
  candle.isClosed && (bars.any fun bar => bar.openTime ≤ candle.openTime) &&
    !bars.any fun bar => isDuplicateClosedCandle bar candle

section

variable {maxSize : ℕ} {bars : List Candle} {candle later : Candle} {duration : ℤ}
  {newest : Instant}

theorem Reaching.le (h : Reaching duration bars newest) (hordered : Ordered bars) {bar : Candle}
    (hbar : bar ∈ bars) : bar.openTime ≤ newest := by
  have hnewest := h.last
  rw [List.getLast?_map] at hnewest
  obtain ⟨last, hlast, htime⟩ := Option.map_eq_some_iff.mp hnewest
  rw [← htime]
  exact le_getLast_of_ordered hordered hlast bar hbar

theorem Reaching.exists_newest (h : Reaching duration bars newest) :
    ∃ bar ∈ bars, bar.openTime = newest :=
  List.mem_map.mp (List.mem_of_getLast? h.last)

theorem Reaching.upsert (h : Reaching duration bars newest) (hordered : Ordered bars)
    (hduration : 0 < duration) (hsize : 0 < maxSize) (hgrid : duration ∣ newest - candle.openTime)
    (hnext : candle.openTime ≤ newest + duration) :
    Reaching duration (upsertBars maxSize bars candle).1 (max newest candle.openTime) := by
  rw [upsertBars_eq hordered]
  by_cases hnewer : ∀ bar ∈ bars, bar.openTime < candle.openTime
  · rw [if_pos hnewer]
    obtain ⟨bar, hbar, htime⟩ := h.exists_newest
    have hlt := htime ▸ hnewer bar hbar
    have heq : candle.openTime = newest + duration := by
      obtain ⟨k, hk⟩ := hgrid
      have hk' : k = -1 := by nlinarith
      rw [hk'] at hk
      linarith
    refine ⟨h.spaced.suffix_concat h.last ?_, ?_⟩
    · rw [← heq]
      have hsuffix : pushBack maxSize bars candle <:+ bars ++ [candle] := pushBack_suffix
      replace hsuffix := hsuffix.map Candle.openTime
      rwa [List.map_append] at hsuffix
    · rw [List.getLast?_map, getLast?_pushBack hsize, max_eq_right hlt.le]
      rfl
  · rw [if_neg hnewer]
    push Not at hnewer
    obtain ⟨bar, hbar, hle⟩ := hnewer
    rw [max_eq_left (hle.trans (h.le hordered hbar))]
    exact ⟨by rw [map_openTime_replaceBar]; exact h.spaced,
      by rw [map_openTime_replaceBar]; exact h.last⟩

theorem openTime_of_duplicate {bar : Candle} (h : isDuplicateClosedCandle bar candle = true) :
    bar.openTime = candle.openTime := by
  unfold isDuplicateClosedCandle at h
  simp only [Bool.and_eq_true, decide_eq_true_eq] at h
  exact congrArg CandleValues.openTime h.2

theorem not_accepts_of_duplicate (hordered : Ordered bars) (hclosed : candle.isClosed = true)
    {bar : Candle} (hbar : bar ∈ bars) (h : isDuplicateClosedCandle bar candle = true) :
    (upsertBars maxSize bars candle).2 = false := by
  have htime := openTime_of_duplicate h
  have hnot : ¬ ∀ bar ∈ bars, bar.openTime < candle.openTime :=
    fun hall => absurd (hall bar hbar) (htime ▸ lt_irrefl _)
  rw [upsertBars_eq hordered, if_neg hnot]
  obtain ⟨older, newer, rfl⟩ := List.append_of_mem hbar
  have hne : ∀ other ∈ older, other.openTime ≠ candle.openTime :=
    fun other hother => htime ▸ (hordered.split.1 other hother).ne
  rw [replaceBar_append hne, replaceBar, if_pos htime]
  simp [hclosed, h]

theorem Reaching.accepts_closed (h : Reaching duration bars newest) (hordered : Ordered bars)
    (hduration : 0 < duration) (hgrid : duration ∣ newest - candle.openTime) :
    ((upsertBars maxSize bars candle).2 && candle.isClosed) = isFresh bars candle := by
  unfold isFresh
  cases hclosed : candle.isClosed with
  | false => simp
  | true =>
    by_cases hduplicate : ∃ bar ∈ bars, isDuplicateClosedCandle bar candle = true
    · obtain ⟨bar, hbar, hsame⟩ := hduplicate
      rw [not_accepts_of_duplicate hordered hclosed hbar hsame]
      have hany : (bars.any fun bar => isDuplicateClosedCandle bar candle) = true :=
        List.any_eq_true.mpr ⟨bar, hbar, hsame⟩
      simp [hany]
    · have hfresh : ∀ bar ∈ bars, isDuplicateClosedCandle bar candle = false := by
        intro bar hbar
        by_contra hsame
        exact hduplicate ⟨bar, hbar, by simpa using hsame⟩
      have hnone : (bars.any fun bar => isDuplicateClosedCandle bar candle) = false :=
        List.any_eq_false.mpr fun bar hbar => by simp [hfresh bar hbar]
      rw [hnone, Bool.eq_iff_iff]
      simp only [Bool.and_true, Bool.true_and, Bool.not_false, List.any_eq_true,
        decide_eq_true_eq]
      rw [accepts_iff hordered hclosed hfresh]
      constructor
      · rintro (hnewer | ⟨bar, hbar, htime⟩)
        · obtain ⟨bar, hbar, -⟩ := h.exists_newest
          exact ⟨bar, hbar, (hnewer bar hbar).le⟩
        · exact ⟨bar, hbar, htime.le⟩
      · rintro ⟨bar, hbar, hle⟩
        rcases lt_or_ge newest candle.openTime with hlt | hge
        · exact .inl fun other hother => (h.le hordered hother).trans_lt hlt
        · have hmem := h.spaced.mem hduration h.last hgrid
            ⟨bar.openTime, List.mem_map_of_mem hbar, hle⟩ hge
          exact .inr (List.mem_map.mp hmem)

theorem isDuplicate_of_lt {bar : Candle} (h : bar.openTime < candle.openTime) :
    isDuplicateClosedCandle bar candle = false := by
  by_contra hsame
  exact h.ne (openTime_of_duplicate (by simpa using hsame))

theorem Reaching.isFresh_upsert (h : Reaching duration bars newest) (hordered : Ordered bars)
    (hsize : 0 < maxSize) (hlater : candle.openTime < later.openTime) :
    isFresh (upsertBars maxSize bars candle).1 later = isFresh bars later := by
  unfold isFresh
  rw [upsertBars_eq hordered]
  split_ifs with hnewer
  · obtain ⟨bar, hbar, -⟩ := h.exists_newest
    have hbefore : ∀ other ∈ bars, other.openTime < later.openTime :=
      fun other hother => (hnewer other hother).trans hlater
    have hstored : (pushBack maxSize bars candle).any (fun other =>
        isDuplicateClosedCandle other later) = false := by
      refine List.any_eq_false.mpr fun other hother => ?_
      rcases mem_of_mem_pushBack hother with hold | rfl
      · simp [isDuplicate_of_lt (hbefore other hold)]
      · simp [isDuplicate_of_lt hlater]
    have hbars : (bars.any fun other => isDuplicateClosedCandle other later) = false :=
      List.any_eq_false.mpr fun other hother => by simp [isDuplicate_of_lt (hbefore other hother)]
    have holder : (pushBack maxSize bars candle).any (fun other =>
        other.openTime ≤ later.openTime) = true :=
      List.any_eq_true.mpr ⟨candle, mem_pushBack_self hsize, by simpa using hlater.le⟩
    have holder' : (bars.any fun other => other.openTime ≤ later.openTime) = true :=
      List.any_eq_true.mpr ⟨bar, hbar, by simpa using (hbefore bar hbar).le⟩
    rw [hstored, hbars, holder, holder']
  · have htime : ∀ bar : Candle, (if bar.openTime = candle.openTime then keep bar candle
        else bar).openTime = bar.openTime := by
      intro bar
      split_ifs with hsame
      · rw [keep_openTime hsame, hsame]
      · rfl
    have hduplicate : ∀ bar : Candle, isDuplicateClosedCandle (if bar.openTime = candle.openTime
        then keep bar candle else bar) later = isDuplicateClosedCandle bar later := by
      intro bar
      split_ifs with hsame
      · rw [isDuplicate_of_lt (keep_openTime hsame ▸ hlater), isDuplicate_of_lt (hsame ▸ hlater)]
      · rfl
    rw [replaceBar_eq_map hordered, List.any_map, List.any_map]
    congr 2
    · congr 1
      funext bar
      exact congrArg (fun time => decide (time ≤ later.openTime)) (htime bar)
    · congr 1
      funext bar
      exact hduplicate bar

end

namespace CandleSupervisor

def barsAt (supervisor : CandleSupervisor) (key : Key) : List Candle :=
  (supervisor.candles.windows key).bars

variable {supervisor : CandleSupervisor} {key : Key} {candle : Candle} {candles : List Candle}
  {appliedCount : ℕ} {duration : ℤ} {newest : Instant}

theorem candles_recoverCandle (recovering : CandleSupervisor × ℕ) :
    (recoverCandle recovering candle).1.candles = (recovering.1.candles.upsert candle).1 := by
  unfold recoverCandle
  dsimp only
  cases (recovering.1.candles.upsert candle).2 <;> rfl

theorem barsAt_recoverCandle (recovering : CandleSupervisor × ℕ) (hkey : candle.key = key) :
    (recoverCandle recovering candle).1.barsAt key =
      (upsertBars recovering.1.candles.maxSize (recovering.1.barsAt key) candle).1 := by
  subst hkey
  unfold barsAt
  rw [candles_recoverCandle]
  change (Function.update recovering.1.candles.windows candle.key _ candle.key).bars = _
  rw [Function.update_self]
  rfl

theorem handled_recoverCandle (recovering : CandleSupervisor × ℕ) (hkey : candle.key = key) :
    (recoverCandle recovering candle).1.handled = recovering.1.handled ++
      if ((upsertBars recovering.1.candles.maxSize (recovering.1.barsAt key) candle).2 &&
        candle.isClosed) = true then [candle] else [] := by
  subst hkey
  have haccepts : (recovering.1.candles.upsert candle).2 =
      (upsertBars recovering.1.candles.maxSize (recovering.1.barsAt candle.key) candle).2 := rfl
  unfold recoverCandle
  dsimp only
  rw [haccepts]
  cases (upsertBars recovering.1.candles.maxSize (recovering.1.barsAt candle.key) candle).2 with
  | false => simp
  | true =>
    cases candle.isClosed with
    | false => simp
    | true => simp

theorem ordered_barsAt (supervisor : CandleSupervisor) (key : Key) :
    Ordered (supervisor.barsAt key) := (supervisor.candles.windows key).ordered

theorem dvd_max_sub {newest first later : ℤ} (hfirst : duration ∣ newest - first)
    (hlater : duration ∣ newest - later) : duration ∣ max newest first - later := by
  rcases max_choice newest first with hmax | hmax
  · rw [hmax]
    exact hlater
  · rw [hmax]
    have heq : first - later = (newest - later) - (newest - first) := by ring
    rw [heq]
    exact dvd_sub hlater hfirst

theorem head?_le_of_spaced (newest : Instant)
    (h : Spaced duration ((candle :: candles).map Candle.openTime)) :
    ∀ later ∈ candles.head?, later.openTime ≤ max newest candle.openTime + duration := by
  intro later hhead
  cases candles with
  | nil => cases hhead
  | cons second rest =>
    obtain rfl : second = later := Option.some.inj hhead
    have hstep : second.openTime - candle.openTime = duration := (List.isChain_cons_cons.mp h).1
    have hmax := le_max_right newest candle.openTime
    linarith

theorem recover_run (recovering : CandleSupervisor × ℕ)
    (h : Reaching duration (recovering.1.barsAt key) newest) (hduration : 0 < duration)
    (hkey : ∀ candle ∈ candles, candle.key = key)
    (hspaced : Spaced duration (candles.map Candle.openTime))
    (hgrid : ∀ candle ∈ candles, duration ∣ newest - candle.openTime)
    (hnext : ∀ candle ∈ candles.head?, candle.openTime ≤ newest + duration) :
    (∃ last, Reaching duration ((candles.foldl recoverCandle recovering).1.barsAt key) last ∧
        newest ≤ last ∧ ∀ candle ∈ candles, candle.openTime ≤ last) ∧
      (candles.foldl recoverCandle recovering).1.handled =
        recovering.1.handled ++ candles.filter (isFresh (recovering.1.barsAt key)) := by
  induction candles generalizing recovering newest with
  | nil =>
    refine ⟨⟨newest, h, le_rfl, ?_⟩, (List.append_nil _).symm⟩
    intro candle hmem
    cases hmem
  | cons candle candles ih =>
    have hordered := ordered_barsAt recovering.1 key
    have hsize := recovering.1.candles.size_pos
    have hcandle := hkey candle List.mem_cons_self
    have hgrid' := hgrid candle List.mem_cons_self
    have hbars := barsAt_recoverCandle recovering hcandle
    have hreaches := h.upsert hordered hduration hsize hgrid' (hnext candle rfl)
    rw [← hbars] at hreaches
    have hlater : ∀ later ∈ candles, candle.openTime < later.openTime := by
      have hpairwise := hspaced.pairwise hduration
      rw [List.map_cons, List.pairwise_cons] at hpairwise
      exact fun later hmem => hpairwise.1 _ (List.mem_map_of_mem hmem)
    have hgrid'' : ∀ later ∈ candles, duration ∣ max newest candle.openTime - later.openTime :=
      fun later hmem => dvd_max_sub hgrid' (hgrid later (List.mem_cons_of_mem candle hmem))
    have hnext' : ∀ later ∈ candles.head?,
        later.openTime ≤ max newest candle.openTime + duration :=
      head?_le_of_spaced newest hspaced
    obtain ⟨⟨last, hlast, hle, hall⟩, hhandled⟩ := ih (recoverCandle recovering candle) hreaches
      (fun later hmem => hkey later (List.mem_cons_of_mem candle hmem)) hspaced.tail hgrid'' hnext'
    rw [List.foldl_cons]
    refine ⟨⟨last, hlast, (le_max_left _ _).trans hle, ?_⟩, ?_⟩
    · intro later hmem
      rcases List.mem_cons.mp hmem with rfl | hmem
      · exact (le_max_right _ _).trans hle
      · exact hall later hmem
    · have hfresh : candles.filter (isFresh ((recoverCandle recovering candle).1.barsAt key)) =
          candles.filter (isFresh (recovering.1.barsAt key)) := by
        rw [hbars]
        exact List.filter_congr fun later hmem =>
          h.isFresh_upsert hordered hsize (hlater later hmem)
      rw [hhandled, hfresh, handled_recoverCandle recovering hcandle,
        h.accepts_closed hordered hduration hgrid', List.append_assoc, List.filter_cons]
      split_ifs
      · rfl
      · rfl

/-- The latest candles of a window at a time, on the grid of a known bar. -/
structure LatestCandles (key : Key) (duration : ℤ) (known : Instant) (count : ℤ) (time : ℚ)
    (candles : List Candle) : Prop where
  keys : ∀ candle ∈ candles, candle.key = key
  times : ∃ ahead : ℤ, (known : ℚ) + ahead * duration ≤ time ∧
    time < known + (ahead + 1) * duration ∧
    (candles.map Candle.openTime).Perm ((List.range count.toNat).map fun i : ℕ =>
      known + (ahead + 1 - count) * duration + i * duration)

/-- The window has no gap up to the newest returned bar, and each closed candle that is not older
than all stored bars and was not stored as it is is handed on once, in the order of time. -/
structure Backfilled (key : Key) (duration : ℤ) (before after : CandleSupervisor)
    (candles : List Candle) : Prop where
  contiguous : hasGap duration (after.barsAt key) = false
  through : ∃ last, (after.barsAt key).getLast? = some last ∧
    ∀ candle ∈ candles, candle.openTime ≤ last.openTime
  handled : after.handled = before.handled ++
    (byOpenTime candles).filter (isFresh (before.barsAt key))

theorem spaced_iff {bars : List Candle} :
    Spaced duration (bars.map Candle.openTime) ↔ hasGap duration bars = false := by
  rw [hasGap_eq_false_iff]
  exact List.isChain_map _

theorem mem_byOpenTime : candle ∈ byOpenTime candles ↔ candle ∈ candles :=
  (List.perm_insertionSort _ _).mem_iff

theorem map_byOpenTime_sorted (candles : List Candle) :
    ((byOpenTime candles).map Candle.openTime).Pairwise (· ≤ ·) := by
  have : Std.Total fun a b : Candle => a.openTime ≤ b.openTime := ⟨fun _ _ => le_total _ _⟩
  have : IsTrans Candle fun a b => a.openTime ≤ b.openTime := ⟨fun _ _ _ => le_trans⟩
  exact List.pairwise_map.mpr (List.pairwise_insertionSort _ _)

theorem outageSeconds_div {disconnectedSince measuredAt : ℚ} (hduration : 0 < duration) :
    outageSeconds disconnectedSince measuredAt / totalSeconds duration =
      max 0 (measuredAt - disconnectedSince) / duration := by
  have hne : (duration : ℚ) ≠ 0 := by exact_mod_cast hduration.ne'
  have hmax : outageSeconds disconnectedSince measuredAt =
      max 0 (measuredAt - disconnectedSince) / 1000000 := by
    have hdiv := max_div_div_right (c := (1000000 : ℚ)) (by norm_num) 0
      (measuredAt - disconnectedSince)
    rw [zero_div] at hdiv
    exact hdiv
  rw [hmax, totalSeconds]
  field_simp

theorem le_recoveryLimit {known : Instant} {disconnectedSince measuredAt answeredAt : ℚ}
    {candleWarmupSize : ℕ} (hduration : 0 < duration)
    (hopen : disconnectedSince < known + 2 * duration)
    (hanswered : answeredAt ≤ measuredAt + duration)
    (hwarmup : max 2 (⌈outageSeconds disconnectedSince measuredAt / totalSeconds duration⌉ + 2) ≤
      (candleWarmupSize : ℤ)) {ahead : ℤ} (hle : (known : ℚ) + ahead * duration ≤ answeredAt) :
    ahead ≤ recoveryLimit candleWarmupSize (outageSeconds disconnectedSince measuredAt) duration := by
  have hlater : answeredAt ≤
      disconnectedSince + max 0 (measuredAt - disconnectedSince) + duration := by
    have := le_max_right 0 (measuredAt - disconnectedSince)
    linarith
  have hceil := le_ceil_add_two hduration hopen hlater hle
  rw [← outageSeconds_div hduration] at hceil
  unfold recoveryLimit
  rw [min_eq_right hwarmup]
  exact hceil.trans (le_max_right _ _)

section

variable {known : Instant} {count : ℤ} {time : ℚ}

theorem LatestCandles.spaced (h : LatestCandles key duration known count time candles)
    (hduration : 0 < duration) : Spaced duration ((byOpenTime candles).map Candle.openTime) := by
  obtain ⟨ahead, -, -, hperm⟩ := h.times
  have hsorted := (List.perm_insertionSort (fun a b : Candle => a.openTime ≤ b.openTime)
    candles).map Candle.openTime
  exact spaced_of_perm hduration (spaced_range _ duration count.toNat) (hsorted.trans hperm)
    (map_byOpenTime_sorted candles)

theorem LatestCandles.grid (h : LatestCandles key duration known count time candles) :
    ∀ candle ∈ byOpenTime candles, duration ∣ known - candle.openTime := by
  obtain ⟨ahead, -, -, hperm⟩ := h.times
  intro candle hcandle
  have hmem := hperm.mem_iff.mp (List.mem_map_of_mem (mem_byOpenTime.mp hcandle))
  obtain ⟨i, -, htime⟩ := List.mem_map.mp hmem
  rw [← htime]
  exact ⟨-(ahead + 1 - count + i), by ring⟩

theorem LatestCandles.first_le
    (h : LatestCandles key duration known count time candles) (hduration : 0 < duration)
    (hcount : 0 < count)
    (hahead : ∀ ahead : ℤ, (known : ℚ) + ahead * duration ≤ time → ahead ≤ count) :
    ∀ candle ∈ (byOpenTime candles).head?, candle.openTime ≤ known + duration := by
  obtain ⟨ahead, hle, -, hperm⟩ := h.times
  intro first hfirst
  have hmem : known + (ahead + 1 - count) * duration + ((0 : ℕ) : ℤ) * duration ∈
      candles.map Candle.openTime :=
    hperm.mem_iff.mpr (List.mem_map_of_mem (List.mem_range.mpr (by omega)))
  obtain ⟨oldest, holdest, htime⟩ := List.mem_map.mp hmem
  have hfirst_le : first.openTime ≤ oldest.openTime := by
    obtain ⟨rest, hrest⟩ := List.head?_eq_some_iff.mp hfirst
    have hsorted := map_byOpenTime_sorted candles
    have hmem' := mem_byOpenTime.mpr holdest
    rw [hrest] at hsorted hmem'
    rcases List.mem_cons.mp hmem' with rfl | hmem'
    · exact le_rfl
    · exact (List.pairwise_cons.mp hsorted).1 _ (List.mem_map_of_mem hmem')
  have hcovers := hahead ahead hle
  have hbound : (ahead + 1 - count) * duration ≤ 1 * duration :=
    mul_le_mul_of_nonneg_right (by omega) hduration.le
  refine hfirst_le.trans ?_
  rw [htime]
  push_cast
  linarith

end

variable {after : CandleSupervisor}

theorem LatestCandles.backfilled (hinterval : intervalDuration key.2 = some duration) {newest : Candle}
    (hnewest : (supervisor.barsAt key).getLast? = some newest)
    (hcontiguous : hasGap duration (supervisor.barsAt key) = false)
    {disconnectedSince measuredAt answeredAt : ℚ}
    (hopen : disconnectedSince < newest.openTime + 2 * duration)
    (hanswered : answeredAt ≤ measuredAt + duration) {candleWarmupSize : ℕ}
    (hwarmup : max 2 (⌈outageSeconds disconnectedSince measuredAt / totalSeconds duration⌉ + 2) ≤
      (candleWarmupSize : ℤ))
    (hlatest : LatestCandles key duration newest.openTime
      (recoveryLimit candleWarmupSize (outageSeconds disconnectedSince measuredAt) duration)
      answeredAt candles) :
    Backfilled key duration supervisor (supervisor.applyRecoveryCandles candles).1 candles := by
  have hduration := intervalDuration_pos hinterval
  have hahead : ∀ ahead : ℤ, (newest.openTime : ℚ) + ahead * duration ≤ answeredAt →
      ahead ≤ recoveryLimit candleWarmupSize (outageSeconds disconnectedSince measuredAt) duration :=
    fun ahead hle => le_recoveryLimit hduration hopen hanswered hwarmup hle
  have hpos : 0 <
      recoveryLimit candleWarmupSize (outageSeconds disconnectedSince measuredAt) duration := by
    unfold recoveryLimit
    rw [min_eq_right hwarmup]
    exact lt_of_lt_of_le (by decide) (le_max_left _ _)
  have hreaching : Reaching duration (supervisor.barsAt key) newest.openTime := by
    refine ⟨spaced_iff.mpr hcontiguous, ?_⟩
    rw [List.getLast?_map, hnewest]
    rfl
  have hkeys : ∀ candle ∈ byOpenTime candles, candle.key = key :=
    fun candle hcandle => hlatest.keys candle (mem_byOpenTime.mp hcandle)
  obtain ⟨⟨last, hlast, -, hall⟩, hhandled⟩ := recover_run (supervisor, 0) hreaching
    hduration hkeys (hlatest.spaced hduration) hlatest.grid (hlatest.first_le hduration hpos hahead)
  refine ⟨spaced_iff.mp hlast.spaced, ?_, hhandled⟩
  have hend := hlast.last
  rw [List.getLast?_map] at hend
  obtain ⟨bar, hbar, rfl⟩ := Option.map_eq_some_iff.mp hend
  exact ⟨bar, hbar, fun candle hcandle => hall candle (mem_byOpenTime.mpr hcandle)⟩

theorem barsAt_applyRecoveryCandles_of_ne (h : ∀ candle ∈ candles, candle.key ≠ key) :
    (supervisor.applyRecoveryCandles candles).1.barsAt key = supervisor.barsAt key := by
  have hrun : ∀ (returned : List Candle) (recovering : CandleSupervisor × ℕ),
      (∀ candle ∈ returned, candle.key ≠ key) →
        (returned.foldl recoverCandle recovering).1.barsAt key = recovering.1.barsAt key := by
    intro returned
    induction returned with
    | nil => exact fun _ _ => rfl
    | cons candle returned ih =>
      intro recovering hne
      rw [List.foldl_cons, ih _ fun other hother => hne other (List.mem_cons_of_mem candle hother)]
      unfold barsAt
      rw [candles_recoverCandle]
      change (Function.update recovering.1.candles.windows candle.key _ key).bars = _
      rw [Function.update_of_ne (hne candle List.mem_cons_self).symm]
  exact hrun _ _ fun candle hcandle => h candle (mem_byOpenTime.mp hcandle)

structure Recoverable (supervisor : CandleSupervisor) (candleWarmupSize : ℕ)
    (disconnectedSince measuredAt : ℚ) (answers : Key → ℤ → Except Escaped (List Candle))
    (key : Key) (duration : ℤ) : Prop where
  interval : intervalDuration key.2 = some duration
  contiguous : hasGap duration (supervisor.barsAt key) = false
  warmup : max 2 (⌈outageSeconds disconnectedSince measuredAt / totalSeconds duration⌉ + 2) ≤
    (candleWarmupSize : ℤ)
  answered : ∃ newest, (supervisor.barsAt key).getLast? = some newest ∧
    disconnectedSince < newest.openTime + 2 * duration ∧
    ∀ candles, answers key (recoveryLimit candleWarmupSize (outageSeconds disconnectedSince measuredAt)
      duration) = .ok candles → ∃ answeredAt ≤ measuredAt + duration,
        LatestCandles key duration newest.openTime (recoveryLimit candleWarmupSize
          (outageSeconds disconnectedSince measuredAt) duration) answeredAt candles

theorem Recoverable.of_barsAt {candleWarmupSize : ℕ} {disconnectedSince measuredAt : ℚ}
    {answers : Key → ℤ → Except Escaped (List Candle)} {duration : ℤ}
    (h : Recoverable supervisor candleWarmupSize disconnectedSince measuredAt answers key duration)
    (hbars : after.barsAt key = supervisor.barsAt key) :
    Recoverable after candleWarmupSize disconnectedSince measuredAt answers key duration := by
  refine ⟨h.interval, ?_, h.warmup, ?_⟩
  · rw [hbars]
    exact h.contiguous
  · rw [hbars]
    exact h.answered

theorem backfillRecoveryCandles_contiguous {candleWarmupSize : ℕ} {disconnectedSince measuredAt : ℚ}
    {answers : Key → ℤ → Except Escaped (List Candle)} {requests : List Key}
    (hnodup : requests.Nodup)
    (hrecoverable : ∀ key ∈ requests, ∃ duration, Recoverable supervisor candleWarmupSize
      disconnectedSince measuredAt answers key duration)
    (hok : supervisor.backfillRecoveryCandles candleWarmupSize
      (outageSeconds disconnectedSince measuredAt) answers requests = .ok after) :
    (∀ key ∉ requests, after.barsAt key = supervisor.barsAt key) ∧
      ∀ key ∈ requests, ∀ duration, intervalDuration key.2 = some duration →
        hasGap duration (after.barsAt key) = false := by
  induction requests generalizing supervisor with
  | nil =>
    cases hok
    exact ⟨fun _ _ => rfl, fun key hkey => absurd hkey List.not_mem_nil⟩
  | cons request requests ih =>
    obtain ⟨hnot, hnodup⟩ := List.nodup_cons.mp hnodup
    obtain ⟨duration, hrequest⟩ := hrecoverable request List.mem_cons_self
    unfold backfillRecoveryCandles at hok
    rw [List.foldlM_cons] at hok
    obtain ⟨next, hnext, hrest⟩ := Columns.bind_eq_ok.mp hok
    rw [hrequest.interval] at hnext
    obtain ⟨candles, hcandles, hreturn⟩ := Columns.bind_eq_ok.mp hnext
    obtain ⟨newest, hnewest, hopen, hlatest⟩ := hrequest.answered
    obtain ⟨answeredAt, hanswered, hlatest⟩ := hlatest candles hcandles
    have hbackfilled := hlatest.backfilled hrequest.interval hnewest hrequest.contiguous hopen
      hanswered hrequest.warmup
    rw [Except.ok.inj hreturn] at hbackfilled
    have hsame : ∀ key, key ≠ request → next.barsAt key = supervisor.barsAt key := by
      intro key hne
      rw [← Except.ok.inj hreturn]
      refine barsAt_applyRecoveryCandles_of_ne fun candle hcandle => ?_
      rw [hlatest.keys candle hcandle]
      exact hne.symm
    obtain ⟨hothers, hdone⟩ := ih hnodup (fun key hkey => by
      obtain ⟨duration, hkey'⟩ := hrecoverable key (List.mem_cons_of_mem request hkey)
      exact ⟨duration, hkey'.of_barsAt (hsame key (ne_of_mem_of_not_mem hkey hnot))⟩) hrest
    refine ⟨fun key hkey => ?_, fun key hkey duration' hinterval => ?_⟩
    · rw [List.mem_cons, not_or] at hkey
      rw [hothers key hkey.2, hsame key hkey.1]
    · rcases List.mem_cons.mp hkey with rfl | hkey
      · obtain rfl : duration = duration' :=
          Option.some.inj (hrequest.interval.symm.trans hinterval)
        rw [hothers key hnot]
        exact hbackfilled.contiguous
      · exact hdone key hkey duration' hinterval

end CandleSupervisor

open CandleSupervisor in
/-- The count that a backfill requests is enough, wherever the disconnect, the measurement and the
answer lie between the bars. -/
theorem short_disconnect_backfilled (supervisor : CandleSupervisor) {key : Key} {duration : ℤ}
    (hinterval : intervalDuration key.2 = some duration) {newest : Candle}
    (hnewest : (supervisor.barsAt key).getLast? = some newest)
    (hcontiguous : hasGap duration (supervisor.barsAt key) = false)
    {disconnectedSince measuredAt answeredAt : ℚ}
    (hopen : disconnectedSince < newest.openTime + 2 * duration)
    (hanswered : answeredAt ≤ measuredAt + duration) {candleWarmupSize : ℕ}
    (hwarmup : max 2 (⌈outageSeconds disconnectedSince measuredAt / totalSeconds duration⌉ + 2) ≤
      (candleWarmupSize : ℤ)) {candles : List Candle}
    (hlatest : LatestCandles key duration newest.openTime
      (recoveryLimit candleWarmupSize (outageSeconds disconnectedSince measuredAt) duration)
      answeredAt candles) :
    Backfilled key duration supervisor (supervisor.applyRecoveryCandles candles).1 candles :=
  hlatest.backfilled hinterval hnewest hcontiguous hopen hanswered hwarmup

section

open CandleSupervisor

/-- A bar that is still open. -/
def openBar (place : ℤ) : Candle := { fiveMinuteBar place with isClosed := false }

def storing (candle : Candle) : CandleSupervisor :=
  { warmedSupervisor with candles := (warmedSupervisor.candles.upsert candle).1 }

/-- The stored bar ended five minutes before the disconnect, which lasts almost five minutes; the
answer takes the rest of the slack. -/
theorem short_disconnect_backfilled_late :
    Backfilled (fiveMinuteBar 0).key 300000000 (storing (fiveMinuteBar 0))
      ((storing (fiveMinuteBar 0)).applyRecoveryCandles
        [openBar 3, fiveMinuteBar 1, fiveMinuteBar 2]).1
      [openBar 3, fiveMinuteBar 1, fiveMinuteBar 2] := by
  have hlatest : LatestCandles (fiveMinuteBar 0).key 300000000 (fiveMinuteBar 0).openTime
      (recoveryLimit 500 (outageSeconds 599000000 898000000) 300000000) 1100000000
      [openBar 3, fiveMinuteBar 1, fiveMinuteBar 2] :=
    ⟨by decide +kernel, 3, by decide +kernel, by decide +kernel, by decide +kernel⟩
  have hopen : (599000000 : ℚ) < (fiveMinuteBar 0).openTime + 2 * (300000000 : ℤ) := by
    decide +kernel
  have hanswered : (1100000000 : ℚ) ≤ 898000000 + (300000000 : ℤ) := by decide +kernel
  exact short_disconnect_backfilled (storing (fiveMinuteBar 0)) (by decide +kernel)
    (by decide +kernel) (by decide +kernel) hopen hanswered (by decide +kernel) hlatest

/-- With one stored bar the closed candle before it is returned and not stored, and yet it is not
handed on. -/
theorem older_candle_not_handled :
    (storing (openBar 0)).barsAt (openBar 0).key = [openBar 0] ∧
    LatestCandles (openBar 0).key 300000000 (openBar 0).openTime
      (recoveryLimit 500 (outageSeconds 100000000 100000000) 300000000) 100000000
      [fiveMinuteBar (-1), openBar 0] ∧
    ((storing (openBar 0)).applyRecoveryCandles [fiveMinuteBar (-1), openBar 0]).1.handled ≠
      (storing (openBar 0)).handled ++ (byOpenTime [fiveMinuteBar (-1), openBar 0]).filter
        fun candle => candle.isClosed && !((storing (openBar 0)).barsAt (openBar 0).key).any
          fun bar => isDuplicateClosedCandle bar candle := by
  refine ⟨by decide +kernel, ⟨by decide +kernel, 0, ?_⟩, by decide +kernel⟩
  exact ⟨by decide +kernel, by decide +kernel, by decide +kernel⟩

end

end ChainQuantStudio.State.Candles
