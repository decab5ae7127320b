import ChainQuantStudio.State.BarAges

/-!
# Refreshing candidate baselines

Bars of the intervals that no stream delivers are refreshed by a pass that asks for the latest two
candles of each window whose newest closed bar is out of date. Two candles bridge one bar that closed
in the meantime. When more have closed, the window is left with a gap behind the answer, and no
window longer than the answer is contiguous until the stored bars have been given up.
-/

namespace ChainQuantStudio.State.Candles

open BoundedDeque Data OrderBook Supervisor

/-- `is_candle_fresh`, of the bars of the window. -/
def isCandleFresh (candleSeconds : ℚ) (bars : List Candle) (interval : String) (now : Instant) :
    Except Raised Bool :=
  match bars.reverse.find? Candle.isClosed with
  | none => .ok false
  | some candle =>
    match intervalDuration interval with
    | none => .error (unsupportedInterval interval)
    | some duration =>
      let expectedNextClose := candle.closeTime + duration
      .ok (totalSeconds (now - expectedNextClose) ≤ candleSeconds)

structure CandidateAdapter where
  instruments : List Instrument
  intervals : List String
  streamCandleIntervals : Option (List String)

structure CandidateSupervisor where
  adapters : List CandidateAdapter
  candleIntervals : List String
  candleSeconds : ℚ := 90

namespace CandidateSupervisor

variable (supervisor : CandidateSupervisor)

def baselineIntervals (adapter : CandidateAdapter) : List String :=
  let streamed := adapter.streamCandleIntervals.getD supervisor.candleIntervals
  adapter.intervals.filter fun interval => interval ∉ streamed

/-- The windows of a pass, in its order. -/
def baselineKeys : List Key :=
  supervisor.adapters.flatMap fun adapter =>
    adapter.instruments.flatMap fun instrument =>
      (supervisor.baselineIntervals adapter).map fun interval => (instrument, interval)

/-- `answer` is what `get_candles` returns for a number of candles, absent where it fails. -/
def refreshBaseline (now : Instant) (answer : Key → ℕ → Option (List Candle))
    (candles : CandleWindowStore) (key : Key) : Except Raised CandleWindowStore := do
  if ← isCandleFresh supervisor.candleSeconds (candles.windows key).bars key.2 now then
    return candles
  match answer key 2 with
  | none => return candles
  | some fetched => return candles.applyMany fetched

/-- One pass of `_maintain_candidate_baselines`. -/
def maintainCandidateBaselines (now : Instant) (answer : Key → ℕ → Option (List Candle))
    (candles : CandleWindowStore) : Except Raised CandleWindowStore :=
  supervisor.baselineKeys.foldlM (supervisor.refreshBaseline now answer) candles

end CandidateSupervisor

structure MarketCandles (key : Key) extends BarClock where
  candle : ℕ → Candle
  candle_key : ∀ age, (candle age).key = key
  candle_openTime : ∀ age, (candle age).openTime = toBarClock.time age
  candle_isClosed : ∀ age, 0 < age → (candle age).isClosed = true
  interval_duration : intervalDuration key.2 = some duration

namespace MarketCandles

variable {key : Key} (market : MarketCandles key) {bars : List Candle} {maxSize size : ℕ}

def latest (count : ℕ) : List Candle := ((List.range count).map market.candle).reverse

/-- A window of the market's bars; what is newer than the closed ones follows without a gap. -/
structure Stored (bars : List Candle) : Prop where
  interval : ∀ bar ∈ bars, bar.interval = key.2
  times : market.Times bars
  isClosed : market.HasClosed bars 0 → (market.candle 0).isClosed = true
  followed : ∀ newest, market.NewestClosed bars newest → ∀ age < newest, market.HasBar bars age →
    market.HasBar bars (age + 1)

/-- At most one bar has closed since, or no more bars are asked for than the answer has closed; and
the open bar of the answer does not take the place of the last one asked for. -/
def Bridges (maxSize : ℕ) (bars : List Candle) (size : ℕ) : Prop :=
  ((∃ newest ≤ 2, market.NewestClosed bars newest) ∨
      size ≤ ((market.latest 2).filter Candle.isClosed).length) ∧
    (size < maxSize ∨ (market.candle 0).isClosed = true)

def refreshed (maxSize : ℕ) (bars : List Candle) : List Candle :=
  upsertAll maxSize bars (market.latest 2)

theorem latest_two : market.latest 2 = [market.candle 1, market.candle 0] := rfl

variable {market}

theorem closed_latest :
    ((market.latest 2).filter Candle.isClosed).length =
      if (market.candle 0).isClosed = true then 2 else 1 := by
  rw [latest_two, List.filter_cons_of_pos (market.candle_isClosed 1 Nat.one_pos)]
  split_ifs with h
  · rw [List.filter_cons_of_pos h]
    rfl
  · rw [List.filter_cons_of_neg h]
    rfl

theorem ordered_refreshed (hordered : Ordered bars) : Ordered (market.refreshed maxSize bars) :=
  ordered_upsertAll hordered

theorem times_refreshed (hordered : Ordered bars) (htimes : market.Times bars) :
    market.Times (market.refreshed maxSize bars) :=
  (htimes.upsert hordered (market.candle_openTime 1)).upsert (ordered_upsertBars hordered)
    (market.candle_openTime 0)

theorem hasClosed_refreshed (hordered : Ordered bars) (htimes : market.Times bars) {age : ℕ}
    (hage : age < maxSize) (h : market.HasClosed bars age) :
    market.HasClosed (market.refreshed maxSize bars) age := by
  have hmiddle := BarClock.hasClosed_upsert htimes hordered (market.candle_openTime 1) hage h
  exact BarClock.hasClosed_upsert (htimes.upsert hordered (market.candle_openTime 1))
    (ordered_upsertBars hordered) (market.candle_openTime 0) hage hmiddle

theorem hasClosed_of_refreshed (hordered : Ordered bars) {age : ℕ}
    (h : market.HasClosed (market.refreshed maxSize bars) age) :
    market.HasClosed bars age ∨ age = 1 ∨ age = 0 ∧ (market.candle 0).isClosed = true := by
  rcases BarClock.hasClosed_of_upsert (ordered_upsertBars hordered) (market.candle_openTime 0) h
    with h | hnewest
  · rcases BarClock.hasClosed_of_upsert hordered (market.candle_openTime 1) h with h | hprevious
    · exact .inl h
    · exact .inr (.inl hprevious.1)
  · exact .inr (.inr hnewest)

theorem place_of_not_newer (htimes : market.Times bars) {n : ℕ}
    (hnewer : ∀ newer < n, market.HasBar bars newer → market.HasBar bars n) :
    market.HasBar bars n ∨ ∀ bar ∈ bars, bar.openTime < (market.candle n).openTime := by
  by_cases h : market.HasBar bars n
  · exact .inl h
  refine .inr fun bar hbar => ?_
  rw [htimes bar hbar, market.candle_openTime, BarClock.time_lt_iff]
  have hhas : market.HasBar bars (market.age bar) := ⟨bar, hbar, htimes bar hbar⟩
  rcases lt_trichotomy (market.age bar) n with hlt | heq | hlt
  · exact absurd (hnewer _ hlt hhas) h
  · exact absurd (heq ▸ hhas) h
  · exact hlt

theorem newest_refreshed (hordered : Ordered bars) (htimes : market.Times bars)
    (hsize : 0 < maxSize) :
    ∃ bar ∈ market.refreshed maxSize bars, bar.openTime = market.time 0 ∧
      ((market.candle 0).isClosed = true → bar.isClosed = true) := by
  apply BarClock.hasBar_upsert_self (ordered_upsertBars hordered) (market.candle_openTime 0) hsize
  exact place_of_not_newer (htimes.upsert hordered (market.candle_openTime 1))
    fun newer hlt => absurd hlt (Nat.not_lt_zero newer)

theorem previous_refreshed (hstored : market.Stored bars) (hordered : Ordered bars)
    (hsize : 1 < maxSize) {newest : ℕ} (hnewest : market.NewestClosed bars newest)
    (hpos : 0 < newest) : market.HasClosed (market.refreshed maxSize bars) 1 := by
  have hplace := @place_of_not_newer key market bars hstored.times 1 fun newer hlt hbar => by
    obtain rfl : newer = 0 := by omega
    exact hstored.followed newest hnewest 0 hpos hbar
  obtain ⟨bar, hbar, htime, hclosed⟩ := @BarClock.hasBar_upsert_self market.toBarClock maxSize 1 bars
    (market.candle 1) hordered (market.candle_openTime 1) (by omega) hplace
  have hmiddle : market.HasClosed (upsertBars maxSize bars (market.candle 1)).1 1 :=
    ⟨bar, hbar, htime, hclosed (market.candle_isClosed 1 Nat.one_pos)⟩
  exact BarClock.hasClosed_upsert (hstored.times.upsert hordered (market.candle_openTime 1))
    (ordered_upsertBars hordered) (market.candle_openTime 0) hsize hmiddle

theorem newestClosed_unique {bars : List Candle} {m n : ℕ} (hm : market.NewestClosed bars m)
    (hn : market.NewestClosed bars n) : m = n := by
  rcases lt_trichotomy m n with hlt | heq | hlt
  · exact absurd hm.1 (hn.2 m hlt)
  · exact heq
  · exact absurd hn.1 (hm.2 n hlt)

theorem interval_refreshed (hordered : Ordered bars) (h : ∀ bar ∈ bars, bar.interval = key.2) :
    ∀ bar ∈ market.refreshed maxSize bars, bar.interval = key.2 := by
  have hcandle : ∀ age, (market.candle age).interval = key.2 := fun age =>
    congrArg Prod.snd (market.candle_key age)
  intro bar hbar
  rcases mem_of_mem_upsertBars (ordered_upsertBars hordered) hbar with hbar | rfl
  · rcases mem_of_mem_upsertBars hordered hbar with hbar | rfl
    · exact h bar hbar
    · exact hcandle 1
  · exact hcandle 0

theorem lt_of_hasWindow_refreshed (hstored : market.Stored bars) (hordered : Ordered bars)
    (hbounded : bars.length ≤ maxSize) (hsize : 0 < maxSize)
    (hopen : ¬ (market.candle 0).isClosed = true)
    (h : HasWindow (market.refreshed maxSize bars) key.2 size) : size < maxSize := by
  have hordered' := @ordered_refreshed key market bars maxSize hordered
  have hinterval' := @interval_refreshed key market bars maxSize hordered hstored.interval
  have hcount := ((hasWindow_iff hordered' hinterval' market.interval_duration).mp h).2.1
  obtain ⟨bar, hbar, htime, -⟩ := @newest_refreshed key market bars maxSize hordered hstored.times hsize
  have hnot : ¬ bar.isClosed = true := by
    intro hclosed
    rcases hasClosed_of_refreshed hordered ⟨bar, hbar, htime, hclosed⟩ with h | h | h
    · exact hopen (hstored.isClosed h)
    · omega
    · exact hopen h.2
  have hlt := List.length_filter_lt_length_iff_exists.mpr ⟨bar, hbar, hnot⟩
  have hle : (market.refreshed maxSize bars).length ≤ maxSize := length_upsertAll_le hordered hbounded
  omega

theorem pos_newest_of_open (hstored : market.Stored bars) {newest : ℕ}
    (hnewest : market.NewestClosed bars newest) (hopen : ¬ (market.candle 0).isClosed = true) :
    0 < newest := by
  refine Nat.pos_of_ne_zero fun h => hopen (hstored.isClosed ?_)
  rw [← h]
  exact hnewest.1

theorem newestClosed_refreshed_of_closed (hordered : Ordered bars) (htimes : market.Times bars)
    (hsize : 0 < maxSize) (hclosed : (market.candle 0).isClosed = true) :
    market.NewestClosed (market.refreshed maxSize bars) 0 := by
  obtain ⟨last, hlast, htime, hlast_closed⟩ :=
    @newest_refreshed key market bars maxSize hordered htimes hsize
  exact ⟨⟨last, hlast, htime, hlast_closed hclosed⟩, fun newer h => absurd h (Nat.not_lt_zero newer)⟩

theorem newestClosed_refreshed_of_open (hstored : market.Stored bars) (hordered : Ordered bars)
    (hsize : 1 < maxSize) {newest : ℕ} (hnewest : market.NewestClosed bars newest)
    (hopen : ¬ (market.candle 0).isClosed = true) :
    market.NewestClosed (market.refreshed maxSize bars) 1 := by
  have hpos := pos_newest_of_open hstored hnewest hopen
  refine ⟨previous_refreshed hstored hordered hsize hnewest hpos, fun newer hlt h => ?_⟩
  obtain rfl : newer = 0 := by omega
  rcases hasClosed_of_refreshed hordered h with h | h | h
  · exact hopen (hstored.isClosed h)
  · omega
  · exact hopen h.2

theorem hasClosed_refreshed_of_run (hstored : market.Stored bars) (hordered : Ordered bars)
    {newest : ℕ} (hrun : ∀ age < size, market.HasClosed bars (newest + age)) {age : ℕ}
    (hage : age < maxSize) (hle : newest ≤ age) (hlt : age < newest + size) :
    market.HasClosed (market.refreshed maxSize bars) age := by
  apply hasClosed_refreshed hordered hstored.times hage
  have h := hrun (age - newest) (by omega)
  rwa [Nat.add_sub_cancel' hle] at h

theorem bridged_of_hasWindow_refreshed (hstored : market.Stored bars) (hordered : Ordered bars)
    (hlength : size ≤ maxSize) {newest : ℕ} (hnewest : market.NewestClosed bars newest)
    (hafter : HasWindow (market.refreshed maxSize bars) key.2 size) :
    (∃ newest ≤ 2, market.NewestClosed bars newest) ∨
      size ≤ if (market.candle 0).isClosed = true then 2 else 1 := by
  obtain ⟨-, newest', hnewest', hrun'⟩ := (BarClock.hasWindow_iff_ages
    (@ordered_refreshed key market bars maxSize hordered)
    (@times_refreshed key market bars maxSize hordered hstored.times)
    (@interval_refreshed key market bars maxSize hordered hstored.interval)
    market.interval_duration).mp hafter
  by_contra hlost
  rw [not_or] at hlost
  have hfar : 2 < newest := by
    by_contra hle
    exact hlost.1 ⟨newest, by omega, hnewest⟩
  have hgone : ¬ market.HasClosed (market.refreshed maxSize bars) 2 := by
    intro h
    rcases hasClosed_of_refreshed hordered h with h | h | h
    · exact hnewest.2 2 hfar h
    · omega
    · omega
  split_ifs at hlost with hclosed
  · obtain rfl := newestClosed_unique hnewest'
      (newestClosed_refreshed_of_closed hordered hstored.times (by omega) hclosed)
    exact hgone (by simpa using hrun' 2 (by omega))
  · obtain rfl := newestClosed_unique hnewest'
      (newestClosed_refreshed_of_open hstored hordered (by omega) hnewest hclosed)
    exact hgone (by simpa using hrun' 1 (by omega))

theorem hasWindow_refreshed_iff (hstored : market.Stored bars) (hordered : Ordered bars)
    (hbounded : bars.length ≤ maxSize) (hbefore : HasWindow bars key.2 size) :
    HasWindow (market.refreshed maxSize bars) key.2 size ↔ market.Bridges maxSize bars size := by
  have hlength : size ≤ maxSize := by
    have h := ((hasWindow_iff hordered hstored.interval market.interval_duration).mp hbefore).2.1
    exact (h.trans (List.length_filter_le _ _)).trans hbounded
  obtain ⟨hpos, newest, hnewest, hrun⟩ := (BarClock.hasWindow_iff_ages hordered hstored.times
    hstored.interval market.interval_duration).mp hbefore
  unfold Bridges
  rw [closed_latest]
  constructor
  · intro hafter
    refine ⟨bridged_of_hasWindow_refreshed hstored hordered hlength hnewest hafter, ?_⟩
    by_cases hclosed : (market.candle 0).isClosed = true
    · exact .inr hclosed
    · exact .inl (lt_of_hasWindow_refreshed hstored hordered hbounded (by omega) hclosed hafter)
  · rintro ⟨hbridged, hroom⟩
    have hnear : ∀ age, 1 < age → age < size + 1 →
        newest ≤ age ∨ (market.candle 0).isClosed = true ∧ size ≤ 2 := by
      intro age hage hlt
      rcases hbridged with ⟨newest', hle, hnewest'⟩ | hshort
      · rw [newestClosed_unique hnewest hnewest']
        omega
      · split_ifs at hshort with hclosed
        · exact .inr ⟨hclosed, hshort⟩
        · omega
    rw [BarClock.hasWindow_iff_ages (@ordered_refreshed key market bars maxSize hordered)
      (@times_refreshed key market bars maxSize hordered hstored.times)
      (@interval_refreshed key market bars maxSize hordered hstored.interval)
      market.interval_duration]
    refine ⟨hpos, ?_⟩
    by_cases hclosed : (market.candle 0).isClosed = true
    · have hzero := @newestClosed_refreshed_of_closed key market bars maxSize hordered
        hstored.times (by omega) hclosed
      refine ⟨0, hzero, fun age hage => ?_⟩
      rw [Nat.zero_add]
      by_cases hle : newest ≤ age
      · exact hasClosed_refreshed_of_run hstored hordered hrun (by omega) hle (by omega)
      · rcases Nat.lt_trichotomy age 1 with hlt | rfl | hlt
        · obtain rfl : age = 0 := by omega
          exact hzero.1
        · exact previous_refreshed hstored hordered (by omega) hnewest (by omega)
        · rcases hnear age hlt (by omega) with h | ⟨-, h⟩ <;> omega
    · have hsize : size < maxSize := hroom.resolve_right hclosed
      have hnewer := pos_newest_of_open hstored hnewest hclosed
      have hone := @newestClosed_refreshed_of_open key market bars maxSize hstored hordered
        (by omega) newest hnewest hclosed
      refine ⟨1, hone, fun age hage => ?_⟩
      rcases Nat.eq_zero_or_pos age with rfl | hpos'
      · exact hone.1
      · have hle := (hnear (1 + age) (by omega) (by omega)).resolve_right fun h => hclosed h.1
        exact hasClosed_refreshed_of_run hstored hordered hrun (by omega) hle (by omega)

theorem refreshed_again (hordered : Ordered bars) (htimes : market.Times bars) (hsize : 0 < maxSize) :
    market.refreshed maxSize (market.refreshed maxSize bars) = market.refreshed maxSize bars := by
  have hordered' := @ordered_refreshed key market bars maxSize hordered
  obtain ⟨last, hlast, htime, -⟩ := @newest_refreshed key market bars maxSize hordered htimes hsize
  have hlater : ∀ age, ∃ bar ∈ market.refreshed maxSize bars,
      (market.candle age).openTime ≤ bar.openTime := by
    intro age
    refine ⟨last, hlast, ?_⟩
    rw [htime, market.candle_openTime]
    exact not_lt.mp fun h => Nat.not_lt_zero age (BarClock.time_lt_iff.mp h)
  have hprevious : (upsertBars maxSize (market.refreshed maxSize bars) (market.candle 1)).1 =
      market.refreshed maxSize bars := by
    apply BarClock.upsert_again hordered' (hlater 1)
    intro bar hbar hsame
    rcases mem_of_mem_upsertBars (ordered_upsertBars hordered) hbar with hbar | rfl
    · exact BarClock.keep_of_upsert hordered hbar hsame
    · rw [market.candle_openTime, market.candle_openTime] at hsame
      exact absurd (BarClock.time_inj.mp hsame) Nat.zero_ne_one
  have hnewest : (upsertBars maxSize (market.refreshed maxSize bars) (market.candle 0)).1 =
      market.refreshed maxSize bars := by
    apply BarClock.upsert_again hordered' (hlater 0)
    intro bar hbar hsame
    exact BarClock.keep_of_upsert (ordered_upsertBars hordered) hbar hsame
  change (upsertBars maxSize (upsertBars maxSize (market.refreshed maxSize bars)
    (market.candle 1)).1 (market.candle 0)).1 = _
  rw [hprevious, hnewest]

end MarketCandles

namespace CandidateSupervisor

section Pass

variable {supervisor : CandidateSupervisor} {now : Instant} {answer : Key → ℕ → Option (List Candle)}
  {candles : CandleWindowStore} {key : Key}

def settled (supervisor : CandidateSupervisor) (now : Instant) {key : Key}
    (market : MarketCandles key) (maxSize : ℕ) (bars : List Candle) : List Candle :=
  if isCandleFresh supervisor.candleSeconds bars key.2 now = .ok true then bars
  else market.refreshed maxSize bars

theorem isCandleFresh_ok {duration : ℤ} {interval : String} (now : Instant) (candleSeconds : ℚ)
    (bars : List Candle) (h : intervalDuration interval = some duration) :
    ∃ fresh, isCandleFresh candleSeconds bars interval now = .ok fresh := by
  unfold isCandleFresh
  cases bars.reverse.find? Candle.isClosed with
  | none => exact ⟨_, rfl⟩
  | some candle => rw [h]; exact ⟨_, rfl⟩

theorem refreshBaseline_of_stale {fetched : List Candle}
    (hstale : isCandleFresh supervisor.candleSeconds (candles.windows key).bars key.2 now = .ok false)
    (hanswer : answer key 2 = some fetched) :
    supervisor.refreshBaseline now answer candles key = .ok (candles.applyMany fetched) := by
  unfold refreshBaseline
  rw [hstale, hanswer]
  rfl

theorem refreshBaseline_spec (market : MarketCandles key)
    (hanswer : answer key 2 = some (market.latest 2)) (candles : CandleWindowStore) :
    ∃ candles', supervisor.refreshBaseline now answer candles key = .ok candles' ∧
      candles'.maxSize = candles.maxSize ∧
      (candles'.windows key).bars =
        supervisor.settled now market candles.maxSize (candles.windows key).bars ∧
      ∀ other, other ≠ key → (candles'.windows other).bars = (candles.windows other).bars := by
  obtain ⟨fresh, hfresh⟩ := isCandleFresh_ok now supervisor.candleSeconds
    (candles.windows key).bars market.interval_duration
  cases fresh with
  | true =>
    refine ⟨candles, ?_, rfl, (if_pos hfresh).symm, fun _ _ => rfl⟩
    unfold refreshBaseline
    rw [hfresh]
    rfl
  | false =>
    refine ⟨_, refreshBaseline_of_stale hfresh hanswer, maxSize_applyMany _ _, ?_, fun other hne => ?_⟩
    · rw [bars_applyMany, settled, hfresh, if_neg (by simp)]
      have hall : ((market.latest 2).filter fun c => c.key = key) = market.latest 2 := by
        simp [MarketCandles.latest_two, market.candle_key]
      rw [hall]
      rfl
    · rw [bars_applyMany]
      have hnone : ((market.latest 2).filter fun c => c.key = other) = [] := by
        simp [MarketCandles.latest_two, market.candle_key, hne.symm]
      rw [hnone]
      rfl

theorem settled_again (market : MarketCandles key) {maxSize : ℕ} {bars : List Candle}
    (hordered : Ordered bars) (htimes : market.Times bars) (hsize : 0 < maxSize) :
    supervisor.settled now market maxSize (supervisor.settled now market maxSize bars) =
      supervisor.settled now market maxSize bars := by
  unfold settled
  by_cases hfresh : isCandleFresh supervisor.candleSeconds bars key.2 now = .ok true
  · simp only [if_pos hfresh]
  · simp only [if_neg hfresh]
    rw [MarketCandles.refreshed_again hordered htimes hsize, ite_self]

variable (markets : ∀ key ∈ supervisor.baselineKeys, MarketCandles key)

theorem foldlM_refreshBaseline
    (hanswer : ∀ key hkey, answer key 2 = some ((markets key hkey).latest 2))
    {keys : List Key} (hkeys : keys ⊆ supervisor.baselineKeys)
    (candles : CandleWindowStore) {maxSize : ℕ} (hmaxSize : candles.maxSize = maxSize)
    {key : Key} (hkey : key ∈ supervisor.baselineKeys)
    {bars : List Candle} (hordered : Ordered bars) (htimes : (markets key hkey).Times bars) :
    ∃ candles', keys.foldlM (supervisor.refreshBaseline now answer) candles = .ok candles' ∧
      ((candles.windows key).bars = supervisor.settled now (markets key hkey) maxSize bars ∨
        (candles.windows key).bars = bars ∧ key ∈ keys →
        (candles'.windows key).bars =
          supervisor.settled now (markets key hkey) maxSize bars) := by
  induction keys generalizing candles with
  | nil =>
    refine ⟨candles, rfl, ?_⟩
    rintro (h | ⟨-, h⟩)
    · exact h
    · exact absurd h List.not_mem_nil
  | cons visited keys ih =>
    have hvisited : visited ∈ supervisor.baselineKeys := hkeys List.mem_cons_self
    obtain ⟨middle, hstep, hkept, hown, hothers⟩ := @refreshBaseline_spec supervisor now answer
      visited (markets visited hvisited) (hanswer visited hvisited) candles
    obtain ⟨candles', hrest, hsettled⟩ := ih (fun k hk => hkeys (List.mem_cons_of_mem visited hk))
      middle (hkept.trans hmaxSize)
    refine ⟨candles', ?_, fun h => hsettled ?_⟩
    · rw [List.foldlM_cons, hstep]
      exact hrest
    · by_cases hsame : key = visited
      · subst hsame
        subst hmaxSize
        left
        rw [hown]
        rcases h with h | ⟨h, -⟩
        · rw [h, settled_again (markets key hkey) hordered htimes candles.size_pos]
        · rw [h]
      · rw [hothers key hsame]
        rcases h with h | ⟨h, hmem⟩
        · exact .inl h
        · exact .inr ⟨h, (List.mem_cons.mp hmem).resolve_left hsame⟩

/-- After a pass whose requests are answered with the latest candles, a stored window has every size
it had before exactly when it was fresh or the answer bridges what has closed since, for each size
it had. -/
theorem maintained_baseline_keeps_windows_iff
    (hanswer : ∀ key hkey count, answer key count = some ((markets key hkey).latest count))
    (candles : CandleWindowStore) {key : Key} (hkey : key ∈ supervisor.baselineKeys)
    (hstored : (markets key hkey).Stored (candles.windows key).bars) :
    ∃ candles', supervisor.maintainCandidateBaselines now answer candles = .ok candles' ∧
      ((∀ size, HasWindow (candles.windows key).bars key.2 size →
          HasWindow (candles'.windows key).bars key.2 size) ↔
        isCandleFresh supervisor.candleSeconds (candles.windows key).bars key.2 now = .ok true ∨
          ∀ size, HasWindow (candles.windows key).bars key.2 size →
            (markets key hkey).Bridges candles.maxSize (candles.windows key).bars size) := by
  have hordered := (candles.windows key).ordered
  have hbounded := (candles.windows key).bounded
  obtain ⟨candles', hpass, hsettled⟩ := @foldlM_refreshBaseline supervisor now answer markets
    (fun key hkey => hanswer key hkey 2) _ (List.Subset.refl _) candles _ rfl key hkey _ hordered
    hstored.times
  refine ⟨candles', hpass, ?_⟩
  rw [hsettled (.inr ⟨rfl, hkey⟩), settled]
  by_cases hfresh :
      isCandleFresh supervisor.candleSeconds (candles.windows key).bars key.2 now = .ok true
  · rw [if_pos hfresh]
    exact iff_of_true (fun _ h => h) (.inl hfresh)
  · rw [if_neg hfresh, or_iff_right hfresh]
    constructor
    · intro h size hbefore
      exact (MarketCandles.hasWindow_refreshed_iff hstored hordered hbounded hbefore).mp
        (h size hbefore)
    · intro h size hbefore
      exact (MarketCandles.hasWindow_refreshed_iff hstored hordered hbounded hbefore).mpr
        (h size hbefore)

end Pass

/-! Hourly bars of one instrument, stored up to a place; the pass finds the bar of place five open. -/

def hour : ℤ := 3600000000

def hourlySupervisor : CandidateSupervisor where
  adapters :=
    [{ instruments := [btcUsdt .binance .linearPerpetual]
       intervals := ["5m", "1h"]
       streamCandleIntervals := some ["5m"] }]
  candleIntervals := ["5m", "1h"]

def hourlyKey : Key := (btcUsdt .binance .linearPerpetual, "1h")

def hourlyBar (key : Key) (place : ℤ) (isClosed : Bool) : Candle where
  metadata :=
    { instrument := key.1
      exchangeTimestamp := place * hour
      receivedAt := place * hour }
  interval := key.2
  openTime := place * hour
  closeTime := place * hour + hour - 1000
  openPrice := 100
  high := 110
  low := 90
  closePrice := 105
  baseVolume := 10
  quoteVolume := some 1000
  isClosed := isClosed
  range := CandleSupervisor.bar_range
  taker_nonneg := CandleSupervisor.bar_taker_nonneg

theorem interval_of_hourly {key : Key} (hkey : key ∈ hourlySupervisor.baselineKeys) :
    key.2 = "1h" := by
  have hkeys : hourlySupervisor.baselineKeys = [hourlyKey] := by decide +kernel
  rw [hkeys, List.mem_singleton] at hkey
  rw [hkey]
  rfl

def hourlyMarkets (key : Key) (hkey : key ∈ hourlySupervisor.baselineKeys) : MarketCandles key where
  current := 5 * hour
  duration := hour
  duration_pos := by decide
  candle := fun age => hourlyBar key (5 - age) (0 < age)
  candle_key := fun _ => rfl
  candle_openTime := fun _ => Int.sub_mul ..
  candle_isClosed := fun _ hage => decide_eq_true hage
  interval_duration := by rw [interval_of_hourly hkey]; rfl

def hourlyAnswer (key : Key) (count : ℕ) : Option (List Candle) :=
  some ((List.range count).map fun age : ℕ => hourlyBar key (5 - age) (0 < age)).reverse

def hourlyCandles (stored : ℕ) : CandleWindowStore :=
  CandleWindowStore.applyMany
    { maxSize := 500, windows := fun _ => .empty 500, size_pos := by decide }
    ((List.range stored).map fun place => hourlyBar hourlyKey place true)

def hourlyBars (candles : CandleWindowStore) : List Candle := (candles.windows hourlyKey).bars

theorem hourlyKey_mem : hourlyKey ∈ hourlySupervisor.baselineKeys := by decide +kernel

def hourlyMarket : MarketCandles hourlyKey := hourlyMarkets hourlyKey hourlyKey_mem

theorem hourlyBars_stored : hourlyMarket.Stored (hourlyBars (hourlyCandles 4)) ∧
    hourlyMarket.NewestClosed (hourlyBars (hourlyCandles 4)) 2 := by
  have hclosed : ∀ bar ∈ hourlyBars (hourlyCandles 4), bar.isClosed = true := by decide +kernel
  have hpast : ∀ bar ∈ hourlyBars (hourlyCandles 4), bar.openTime < hourlyMarket.time 1 := by
    decide +kernel
  have hold : ∀ age < 2, ¬ hourlyMarket.HasClosed (hourlyBars (hourlyCandles 4)) age := by
    rintro age hage ⟨bar, hbar, htime, -⟩
    have h := hpast bar hbar
    rw [htime, BarClock.time_lt_iff] at h
    omega
  refine ⟨⟨by decide +kernel, ?_, fun h => absurd h (hold 0 (by omega)), ?_⟩, ?_, hold⟩
  · unfold BarClock.Times
    decide +kernel
  · rintro newest hnewest age hage ⟨bar, hbar, htime⟩
    exact absurd ⟨bar, hbar, htime, hclosed bar hbar⟩ (hnewest.2 age hage)
  · exact ⟨hourlyBar hourlyKey 3 true, by decide +kernel, by decide, rfl⟩

theorem maintained_baseline_keeps_windows_iff_hourly :
    ∃ candles', hourlySupervisor.maintainCandidateBaselines (6 * hour) hourlyAnswer
        (hourlyCandles 4) = .ok candles' ∧
      ∀ size, HasWindow (hourlyBars (hourlyCandles 4)) "1h" size →
        HasWindow (hourlyBars candles') "1h" size := by
  obtain ⟨hstored, hnewest⟩ := hourlyBars_stored
  obtain ⟨candles', hpass, hkeeps⟩ := @maintained_baseline_keeps_windows_iff hourlySupervisor
    (6 * hour) hourlyAnswer hourlyMarkets (fun _ _ _ => rfl) (hourlyCandles 4) hourlyKey
    hourlyKey_mem hstored
  refine ⟨candles', hpass, hkeeps.mpr (.inr fun size hsize => ⟨.inl ⟨2, le_rfl, hnewest⟩, .inl ?_⟩)⟩
  have hlength := ((hasWindow_iff (hourlyCandles 4 |>.windows hourlyKey).ordered hstored.interval
    hourlyMarket.interval_duration).mp hsize).2.1
  have hfour : ((hourlyBars (hourlyCandles 4)).filter Candle.isClosed).length = 4 := by decide +kernel
  have hmaxSize : (hourlyCandles 4).maxSize = 500 := rfl
  rw [hmaxSize]
  exact (hlength.trans hfour.le).trans_lt (by decide)

theorem stale_baseline_left_gapped :
    ∃ candles', hourlySupervisor.maintainCandidateBaselines (6 * hour) hourlyAnswer
        (hourlyCandles 3) = .ok candles' ∧
      HasWindow (hourlyBars (hourlyCandles 3)) "1h" 2 ∧ ¬ HasWindow (hourlyBars candles') "1h" 2 := by
  refine ⟨(hourlyCandles 3).applyMany [hourlyBar hourlyKey 4 true, hourlyBar hourlyKey 5 false],
    ?_, ?_, ?_⟩
  · have hkeys : hourlySupervisor.baselineKeys = [hourlyKey] := by decide +kernel
    have hfresh : isCandleFresh hourlySupervisor.candleSeconds (hourlyBars (hourlyCandles 3)) "1h"
        (6 * hour) = .ok false := by decide +kernel
    unfold maintainCandidateBaselines
    rw [hkeys, List.foldlM_cons, refreshBaseline_of_stale hfresh rfl]
    rfl
  · decide +kernel
  · decide +kernel

end CandidateSupervisor

end ChainQuantStudio.State.Candles
