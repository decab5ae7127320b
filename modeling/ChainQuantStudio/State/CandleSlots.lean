import ChainQuantStudio.State.Candles

/-!
# What a backfill leaves at one open time

A window that lies before an open time takes candles one after another. The lemmas follow the bar
at that time: no bar yet, a bar with a number of newer ones behind it, or a window that has moved
past the time without one or has given it up.
-/

namespace ChainQuantStudio.State.Candles

open BoundedDeque Data

variable {maxSize : ℕ} {bars candles : List Candle} {candle event kept : Candle} {time : Instant}

def closedValues (bar : Candle) : Option CandleValues :=
  if bar.isClosed then some bar.values else none

theorem closedValues_keep (existing candle : Candle) :
    closedValues (keep existing candle) =
      if candle.isClosed then some candle.values else closedValues existing := by
  unfold keep isDuplicateClosedCandle closedValues
  cases hold : existing.isClosed with
  | false => cases hnew : candle.isClosed <;> simp [hnew]
  | true =>
    cases hnew : candle.isClosed with
    | false => simp [hold]
    | true =>
      by_cases heq : existing.values = candle.values
      · simp [hold, heq]
      · simp [hnew, heq]

theorem replaceBar_accepts (hclosed : candle.isClosed = true)
    (h : kept.openTime = candle.openTime) {newer : List Candle} :
    (replaceBar candle (kept :: newer)).2 = true ↔ closedValues kept ≠ some candle.values := by
  rw [replaceBar, if_pos h]
  unfold isDuplicateClosedCandle closedValues
  cases hold : kept.isClosed with
  | false => simp [hclosed]
  | true =>
    by_cases heq : kept.values = candle.values
    · simp [hclosed, heq]
    · simp [hclosed, heq]

/-- The window holds a bar at the time and `newer` bars after it, the last one at `top`. -/
structure HoldsAt (bars : List Candle) (kept : Candle) (newer : ℕ) (top : Instant) : Prop where
  split : ∃ older later, bars = older ++ kept :: later ∧ later.length = newer
  le_top : ∀ bar ∈ bars, bar.openTime ≤ top
  top_mem : ∃ bar ∈ bars, bar.openTime = top

structure Past (bars : List Candle) (time : Instant) : Prop where
  later : ∃ bar ∈ bars, time < bar.openTime
  absent : ∀ bar ∈ bars, bar.openTime ≠ time

/-- How often the candles, one after another, get newer than everything up to `top`. -/
def advances (top : Instant) : List Candle → ℕ
  | [] => 0
  | candle :: candles =>
    if top < candle.openTime then advances candle.openTime candles + 1 else advances top candles

theorem mem_openTime_replaceBar {bar : Candle} (h : bar ∈ (replaceBar candle bars).1) :
    ∃ old ∈ bars, old.openTime = bar.openTime := by
  have hmem : bar.openTime ∈ (replaceBar candle bars).1.map Candle.openTime :=
    List.mem_map_of_mem h
  rw [map_openTime_replaceBar] at hmem
  obtain ⟨old, hold, heq⟩ := List.mem_map.mp hmem
  exact ⟨old, hold, heq⟩

theorem exists_openTime_replaceBar (candle : Candle) {bar : Candle} (h : bar ∈ bars) :
    ∃ new ∈ (replaceBar candle bars).1, new.openTime = bar.openTime := by
  have hmem : bar.openTime ∈ bars.map Candle.openTime := List.mem_map_of_mem h
  rw [← map_openTime_replaceBar candle] at hmem
  obtain ⟨new, hnew, heq⟩ := List.mem_map.mp hmem
  exact ⟨new, hnew, heq⟩

theorem mem_pushBack_self (hsize : 0 < maxSize) : candle ∈ pushBack maxSize bars candle :=
  List.mem_of_getLast? (getLast?_pushBack hsize)

theorem before_upsert (hordered : Ordered bars) (h : ∀ bar ∈ bars, bar.openTime < time)
    (hc : candle.openTime < time) :
    ∀ bar ∈ (upsertBars maxSize bars candle).1, bar.openTime < time := by
  rw [upsertBars_eq hordered]
  split_ifs
  · intro bar hbar
    rcases mem_of_mem_pushBack hbar with hold | rfl
    · exact h bar hold
    · exact hc
  · intro bar hbar
    obtain ⟨old, hold, heq⟩ := mem_openTime_replaceBar hbar
    rw [← heq]
    exact h old hold

theorem holdsAt_of_before (hordered : Ordered bars) (hsize : 0 < maxSize)
    (h : ∀ bar ∈ bars, bar.openTime < candle.openTime) :
    HoldsAt (upsertBars maxSize bars candle).1 candle 0 candle.openTime := by
  rw [upsertBars_eq hordered, if_pos h]
  refine ⟨?_, ?_, candle, mem_pushBack_self hsize, rfl⟩
  · have hlast : (pushBack maxSize bars candle).getLast? = some candle := getLast?_pushBack hsize
    obtain ⟨older, heq⟩ := List.getLast?_eq_some_iff.mp hlast
    exact ⟨older, [], heq, rfl⟩
  · intro bar hbar
    rcases mem_of_mem_pushBack hbar with hold | rfl
    · exact (h bar hold).le
    · exact le_rfl

theorem past_of_before (hordered : Ordered bars) (hsize : 0 < maxSize)
    (h : ∀ bar ∈ bars, bar.openTime < time) (hc : time < candle.openTime) :
    Past (upsertBars maxSize bars candle).1 time := by
  rw [upsertBars_eq hordered, if_pos fun bar hbar => (h bar hbar).trans hc]
  refine ⟨⟨candle, mem_pushBack_self hsize, hc⟩, fun bar hbar => ?_⟩
  rcases mem_of_mem_pushBack hbar with hold | rfl
  · exact (h bar hold).ne
  · exact hc.ne'

theorem Past.upsert (h : Past bars time) (hordered : Ordered bars) (hsize : 0 < maxSize) :
    Past (upsertBars maxSize bars candle).1 time := by
  obtain ⟨later, hlater, hlt⟩ := h.later
  rw [upsertBars_eq hordered]
  split_ifs with hnewer
  · have hc : time < candle.openTime := hlt.trans (hnewer later hlater)
    refine ⟨⟨candle, mem_pushBack_self hsize, hc⟩, fun bar hbar => ?_⟩
    rcases mem_of_mem_pushBack hbar with hold | rfl
    · exact h.absent bar hold
    · exact hc.ne'
  · obtain ⟨new, hnew, heq⟩ := exists_openTime_replaceBar candle hlater
    refine ⟨⟨new, hnew, heq ▸ hlt⟩, fun bar hbar => ?_⟩
    obtain ⟨old, hold, heq⟩ := mem_openTime_replaceBar hbar
    rw [← heq]
    exact h.absent old hold

theorem Ordered.split {older later : List Candle} (h : Ordered (older ++ kept :: later)) :
    (∀ bar ∈ older, bar.openTime < kept.openTime) ∧ ∀ bar ∈ later, kept.openTime < bar.openTime := by
  obtain ⟨-, hlater, hcross⟩ := List.pairwise_append.mp h
  refine ⟨fun bar hbar => hcross bar hbar kept List.mem_cons_self, ?_⟩
  exact (List.pairwise_cons.mp hlater).1

theorem HoldsAt.replace {newer : ℕ} {top : Instant} (h : HoldsAt bars kept newer top)
    (hordered : Ordered bars) (hc : candle.openTime ≤ top) :
    HoldsAt (upsertBars maxSize bars candle).1
      (if candle.openTime = kept.openTime then keep kept candle else kept) newer top := by
  obtain ⟨older, later, rfl, hlength⟩ := h.split
  obtain ⟨last, hlast, rfl⟩ := h.top_mem
  have hnot : ¬ ∀ bar ∈ older ++ kept :: later, bar.openTime < candle.openTime :=
    fun hall => absurd (hall last hlast) hc.not_gt
  obtain ⟨holder, hlater⟩ := hordered.split
  have hsplit : ∃ older' later', (replaceBar candle (older ++ kept :: later)).1 =
      older' ++ (if candle.openTime = kept.openTime then keep kept candle else kept) :: later' ∧
        later'.length = newer := by
    rcases lt_trichotomy candle.openTime kept.openTime with hlt | heq | hgt
    · have hne : ∀ bar ∈ kept :: later, bar.openTime ≠ candle.openTime := by
        intro bar hbar
        rcases List.mem_cons.mp hbar with rfl | hbar
        · exact hlt.ne'
        · exact (hlt.trans (hlater bar hbar)).ne'
      rw [replaceBar_append_of_forall_ne hne, if_neg hlt.ne]
      exact ⟨_, later, rfl, hlength⟩
    · have hne : ∀ bar ∈ older, bar.openTime ≠ candle.openTime :=
        fun bar hbar => heq ▸ (holder bar hbar).ne
      rw [replaceBar_append hne, if_pos heq, replaceBar_cons_self heq.symm]
      exact ⟨older, later, rfl, hlength⟩
    · have hne : ∀ bar ∈ older ++ [kept], bar.openTime ≠ candle.openTime := by
        intro bar hbar
        rcases List.mem_append.mp hbar with hbar | hbar
        · exact ((holder bar hbar).trans hgt).ne
        · rw [List.mem_singleton.mp hbar]
          exact hgt.ne
      rw [List.append_cons, replaceBar_append hne, if_neg hgt.ne', List.append_assoc]
      exact ⟨older, (replaceBar candle later).1, rfl, by rw [length_replaceBar, hlength]⟩
  rw [upsertBars_eq hordered, if_neg hnot]
  refine ⟨hsplit, fun bar hbar => ?_, ?_⟩
  · obtain ⟨old, hold, heq⟩ := mem_openTime_replaceBar hbar
    rw [← heq]
    exact h.le_top old hold
  · obtain ⟨new, hnew, heq⟩ := exists_openTime_replaceBar candle hlast
    exact ⟨new, hnew, heq⟩

theorem HoldsAt.advance {newer : ℕ} {top : Instant} (h : HoldsAt bars kept newer top)
    (hordered : Ordered bars) (hbounded : bars.length ≤ maxSize) (hc : top < candle.openTime) :
    (newer + 1 < maxSize →
      HoldsAt (upsertBars maxSize bars candle).1 kept (newer + 1) candle.openTime) ∧
    (maxSize ≤ newer + 1 → Past (upsertBars maxSize bars candle).1 kept.openTime) := by
  obtain ⟨older, later, rfl, hlength⟩ := h.split
  have hnewer : ∀ bar ∈ older ++ kept :: later, bar.openTime < candle.openTime :=
    fun bar hbar => (h.le_top bar hbar).trans_lt hc
  obtain ⟨holder, hlater⟩ := hordered.split
  have hsize : 0 < maxSize := by
    rw [List.length_append, List.length_cons] at hbounded
    omega
  rw [upsertBars_eq hordered, if_pos hnewer]
  constructor
  · intro hroom
    refine ⟨?_, fun bar hbar => ?_, candle, mem_pushBack_self hsize, rfl⟩
    · by_cases hfull : (older ++ kept :: later).length < maxSize
      · rw [pushBack_of_lt hfull, List.append_assoc]
        exact ⟨older, later ++ [candle], rfl, by simp [hlength]⟩
      · have hlen : (older ++ kept :: later).length = maxSize := by omega
        cases older with
        | nil =>
          rw [List.nil_append, List.length_cons] at hlen
          omega
        | cons first older =>
          rw [List.cons_append] at hlen ⊢
          rw [pushBack_cons_of_length_eq hlen, List.append_assoc]
          exact ⟨older, later ++ [candle], rfl, by simp [hlength]⟩
    · rcases mem_of_mem_pushBack hbar with hold | rfl
      · exact (hnewer bar hold).le
      · exact le_rfl
  · intro hfull
    rw [List.length_append, List.length_cons] at hbounded
    obtain rfl : older = [] := List.length_eq_zero_iff.mp (by omega)
    have hlen : (kept :: later).length = maxSize := by
      rw [List.length_cons]
      rw [List.length_nil] at hbounded
      omega
    have hkept : kept.openTime < candle.openTime :=
      hnewer kept (List.mem_append_right [] List.mem_cons_self)
    rw [List.nil_append, pushBack_cons_of_length_eq hlen]
    refine ⟨⟨candle, by simp, hkept⟩, fun bar hbar => ?_⟩
    rcases List.mem_append.mp hbar with hbar | hbar
    · exact (hlater bar hbar).ne'
    · rw [List.mem_singleton.mp hbar]
      exact hkept.ne'

def upsertAll (maxSize : ℕ) (bars candles : List Candle) : List Candle :=
  candles.foldl (fun bars candle => (upsertBars maxSize bars candle).1) bars

def settled (time : Instant) (candles : List Candle) : Option CandleValues :=
  (candles.filter fun candle => candle.openTime = time && candle.isClosed).getLast?.map
    Candle.values

theorem settled_cons (time : Instant) (candle : Candle) (candles : List Candle) :
    settled time (candle :: candles) =
      (settled time candles).or
        (if candle.openTime = time then closedValues candle else none) := by
  unfold settled closedValues
  by_cases htime : candle.openTime = time
  · cases hclosed : candle.isClosed with
    | false => simp [htime, hclosed]
    | true =>
      rw [List.filter_cons_of_pos (by simp [htime, hclosed]), List.getLast?_cons]
      cases (candles.filter fun candle => candle.openTime = time && candle.isClosed).getLast? <;>
        simp [htime]
  · simp [htime]

theorem ordered_upsertAll (h : Ordered bars) : Ordered (upsertAll maxSize bars candles) := by
  induction candles generalizing bars with
  | nil => exact h
  | cons candle candles ih => exact ih (ordered_upsertBars h)

theorem length_upsertAll_le (h : Ordered bars) (hlength : bars.length ≤ maxSize) :
    (upsertAll maxSize bars candles).length ≤ maxSize := by
  induction candles generalizing bars with
  | nil => exact hlength
  | cons candle candles ih => exact ih (ordered_upsertBars h) (length_upsertBars_le h hlength)

theorem upsertAll_append (candles newer : List Candle) :
    upsertAll maxSize bars (candles ++ newer) =
      upsertAll maxSize (upsertAll maxSize bars candles) newer :=
  List.foldl_append ..

theorem before_upsertAll (hordered : Ordered bars) (h : ∀ bar ∈ bars, bar.openTime < time)
    (hc : ∀ candle ∈ candles, candle.openTime < time) :
    ∀ bar ∈ upsertAll maxSize bars candles, bar.openTime < time := by
  induction candles generalizing bars with
  | nil => exact h
  | cons candle candles ih =>
    have hnext : ∀ bar ∈ (upsertBars maxSize bars candle).1, bar.openTime < time :=
      before_upsert hordered h (hc candle List.mem_cons_self)
    exact ih (ordered_upsertBars hordered) hnext fun c hmem => hc c (List.mem_cons_of_mem _ hmem)

theorem Past.upsertAll (h : Past bars time) (hordered : Ordered bars) (hsize : 0 < maxSize) :
    Past (upsertAll maxSize bars candles) time := by
  induction candles generalizing bars with
  | nil => exact h
  | cons candle candles ih => exact ih (h.upsert hordered hsize) (ordered_upsertBars hordered)

/-- The bar at the time survives while fewer candles advance past it than the window has places,
and it says what the last closed candle of the time says. -/
theorem HoldsAt.upsertAll (candles : List Candle) {newer : ℕ} {top : Instant}
    (h : HoldsAt bars kept newer top)
    (hordered : Ordered bars) (hbounded : bars.length ≤ maxSize) :
    (newer + advances top candles < maxSize →
      ∃ kept' top', HoldsAt (upsertAll maxSize bars candles) kept' (newer + advances top candles)
        top' ∧ kept'.openTime = kept.openTime ∧
        closedValues kept' = (settled kept.openTime candles).or (closedValues kept)) ∧
    (newer < maxSize → maxSize ≤ newer + advances top candles →
      Past (Candles.upsertAll maxSize bars candles) kept.openTime) := by
  induction candles generalizing bars kept newer top with
  | nil =>
    refine ⟨fun _ => ⟨kept, top, h, rfl, rfl⟩, fun hlt hle => ?_⟩
    exact absurd hle (by simpa [advances] using hlt)
  | cons candle candles ih =>
    have hordered' : Ordered (upsertBars maxSize bars candle).1 := ordered_upsertBars hordered
    have hbounded' : (upsertBars maxSize bars candle).1.length ≤ maxSize :=
      length_upsertBars_le hordered hbounded
    obtain ⟨older, later, hsplit, hlength⟩ := h.split
    have hkept_le : kept.openTime ≤ top := h.le_top kept (by simp [hsplit])
    by_cases hc : top < candle.openTime
    · have hne : candle.openTime ≠ kept.openTime := (hkept_le.trans_lt hc).ne'
      have hsettled : settled kept.openTime (candle :: candles) = settled kept.openTime candles := by
        rw [settled_cons, if_neg hne, Option.or_none]
      obtain ⟨hroom, hfull⟩ := h.advance hordered hbounded hc
      rw [hsettled, advances, if_pos hc, Nat.add_comm _ 1, ← Nat.add_assoc]
      constructor
      · intro hlt
        exact (ih (hroom (by omega)) hordered' hbounded').1 hlt
      · intro _ hle
        by_cases hlt : newer + 1 < maxSize
        · exact (ih (hroom hlt) hordered' hbounded').2 hlt hle
        · exact (hfull (by omega)).upsertAll hordered' (by omega)
    · have hreplace : HoldsAt (upsertBars maxSize bars candle).1 _ _ _ :=
        h.replace hordered (not_lt.mp hc)
      have hnext := ih hreplace hordered' hbounded'
      rw [advances, if_neg hc]
      have htime : (if candle.openTime = kept.openTime then keep kept candle else kept).openTime =
          kept.openTime := by
        split
        case isTrue heq => rw [keep_openTime heq.symm, heq]
        case isFalse => rfl
      have hsettled : (settled kept.openTime (candle :: candles)).or (closedValues kept) =
          (settled kept.openTime candles).or (closedValues
            (if candle.openTime = kept.openTime then keep kept candle else kept)) := by
        rw [settled_cons, Option.or_assoc]
        congr 1
        split
        · rw [closedValues_keep]
          unfold closedValues
          split <;> rfl
        · rfl
      rw [htime] at hnext
      rw [hsettled]
      exact hnext

end ChainQuantStudio.State.Candles
