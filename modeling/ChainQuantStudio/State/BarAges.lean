import ChainQuantStudio.State.ClosedWindows

/-!
# Upserts seen by the ages of bars

A window takes a candle of some age. What was closed stays closed while fewer bars than the window
has places are as new, nothing else gets closed but the bar of the candle's age, and that one does
when the candle is closed and finds its place.
-/

namespace ChainQuantStudio.State.Candles.BarClock

open BoundedDeque Consecutive Data

variable {clock : BarClock} {maxSize n : ℕ} {bars : List Candle} {bar candle : Candle}

theorem Times.upsert (htimes : clock.Times bars) (hordered : Ordered bars)
    (hcandle : candle.openTime = clock.time n) :
    clock.Times (upsertBars maxSize bars candle).1 := by
  rw [times_iff] at htimes ⊢
  rw [upsertBars_eq hordered]
  split_ifs
  · intro bar hbar
    rcases mem_of_mem_pushBack hbar with hbar | rfl
    · exact htimes bar hbar
    · exact ⟨n, hcandle⟩
  · intro bar hbar
    obtain ⟨old, hold, heq⟩ := mem_openTime_replaceBar hbar
    rw [← heq]
    exact htimes old hold

theorem mem_pushBack_of_age (htimes : clock.Times bars) (hordered : Ordered bars)
    (hcandle : candle.openTime = clock.time n) (hnewer : ∀ bar ∈ bars, bar.openTime < candle.openTime)
    (hbar : bar ∈ bars) (hage : clock.age bar < maxSize) : bar ∈ pushBack maxSize bars candle := by
  have hall : Ordered (bars ++ [candle]) := by
    refine List.pairwise_append.mpr ⟨hordered, List.pairwise_singleton _ _, fun old hold new hnew => ?_⟩
    rw [List.mem_singleton.mp hnew]
    exact hnewer old hold
  have htimes' : clock.Times (bars ++ [candle]) := by
    intro old hold
    rcases List.mem_append.mp hold with hold | hold
    · exact htimes old hold
    · rw [List.mem_singleton.mp hold, age_of_openTime hcandle, hcandle]
  have hmem : bar ∈ bars ++ [candle] := List.mem_append_left _ hbar
  have hsplit := List.take_append_drop (bars.length + 1 - maxSize) (bars ++ [candle])
  rw [← hsplit] at hmem
  refine (List.mem_append.mp hmem).resolve_left fun htake => ?_
  have hsub : (bar :: pushBack maxSize bars candle).Sublist (bars ++ [candle]) := by
    have h := (List.singleton_sublist.mpr htake).append
      (List.Sublist.refl ((bars ++ [candle]).drop (bars.length + 1 - maxSize)))
    rwa [hsplit] at h
  have hlength : (bar :: pushBack maxSize bars candle).length ≤ clock.age bar + 1 := by
    have hincreasing := ages_increasing (fun b hb => htimes' b (hsub.subset hb)) (hall.sublist hsub)
    have hleast : ∀ age ∈ ((bar :: pushBack maxSize bars candle).map clock.age).reverse,
        age ≤ clock.age bar := by
      intro age hage
      obtain ⟨b, hb, rfl⟩ := List.mem_map.mp (List.mem_reverse.mp hage)
      rcases List.mem_cons.mp hb with rfl | hb
      · exact le_rfl
      · have hlt := (List.pairwise_cons.mp (hall.sublist hsub)).1 b hb
        rw [htimes' bar (hsub.subset List.mem_cons_self),
          htimes' b (hsub.subset (List.mem_cons_of_mem _ hb)), time_lt_iff] at hlt
        exact hlt.le
    have hle := length_le_of_forall_le hincreasing hleast
    rwa [List.length_reverse, List.length_map] at hle
  have hpos := List.length_pos_of_mem htake
  rw [List.length_take] at hpos
  rw [List.length_cons, pushBack, List.length_drop, List.length_append, List.length_singleton]
    at hlength
  omega

theorem hasClosed_upsert (htimes : clock.Times bars) (hordered : Ordered bars)
    (hcandle : candle.openTime = clock.time n) {age : ℕ} (hage : age < maxSize)
    (h : clock.HasClosed bars age) : clock.HasClosed (upsertBars maxSize bars candle).1 age := by
  obtain ⟨bar, hbar, htime, hclosed⟩ := h
  rw [upsertBars_eq hordered]
  split_ifs with hnewer
  · rw [← age_of_openTime htime] at hage
    exact ⟨bar, mem_pushBack_of_age htimes hordered hcandle hnewer hbar hage, htime, hclosed⟩
  · rw [replaceBar_eq_map hordered]
    refine ⟨_, List.mem_map_of_mem hbar, ?_⟩
    split_ifs with hsame
    · rw [keep_openTime hsame, ← hsame, keep_isClosed, hclosed]
      exact ⟨htime, rfl⟩
    · exact ⟨htime, hclosed⟩

theorem hasClosed_of_upsert (hordered : Ordered bars) (hcandle : candle.openTime = clock.time n)
    {age : ℕ} (h : clock.HasClosed (upsertBars maxSize bars candle).1 age) :
    clock.HasClosed bars age ∨ age = n ∧ candle.isClosed = true := by
  obtain ⟨bar, hbar, htime, hclosed⟩ := h
  rw [upsertBars_eq hordered] at hbar
  split_ifs at hbar with hnewer
  · rcases mem_of_mem_pushBack hbar with hbar | rfl
    · exact .inl ⟨bar, hbar, htime, hclosed⟩
    · exact .inr ⟨time_inj.mp (htime.symm.trans hcandle), hclosed⟩
  · rw [replaceBar_eq_map hordered] at hbar
    obtain ⟨old, hold, rfl⟩ := List.mem_map.mp hbar
    split_ifs at htime hclosed with hsame
    · rw [keep_openTime hsame] at htime
      rw [keep_isClosed, Bool.or_eq_true] at hclosed
      rcases hclosed with hclosed | hclosed
      · exact .inl ⟨old, hold, hsame.trans htime, hclosed⟩
      · exact .inr ⟨time_inj.mp (htime.symm.trans hcandle), hclosed⟩
    · exact .inl ⟨old, hold, htime, hclosed⟩

theorem hasBar_upsert_self (hordered : Ordered bars) (hcandle : candle.openTime = clock.time n)
    (hsize : 0 < maxSize)
    (hplace : clock.HasBar bars n ∨ ∀ bar ∈ bars, bar.openTime < candle.openTime) :
    ∃ bar ∈ (upsertBars maxSize bars candle).1, bar.openTime = clock.time n ∧
      (candle.isClosed = true → bar.isClosed = true) := by
  rw [upsertBars_eq hordered]
  split_ifs with hnewer
  · exact ⟨candle, mem_pushBack_self hsize, hcandle, id⟩
  · obtain ⟨bar, hbar, htime⟩ := hplace.resolve_right hnewer
    rw [replaceBar_eq_map hordered]
    refine ⟨_, List.mem_map_of_mem hbar, ?_⟩
    have hsame : bar.openTime = candle.openTime := htime.trans hcandle.symm
    rw [if_pos hsame, keep_openTime hsame, keep_isClosed]
    exact ⟨hcandle, fun hclosed => by rw [hclosed, Bool.or_true]⟩

theorem upsert_again (hordered : Ordered bars) (hlater : ∃ bar ∈ bars, candle.openTime ≤ bar.openTime)
    (hkept : ∀ bar ∈ bars, bar.openTime = candle.openTime → keep bar candle = bar) :
    (upsertBars maxSize bars candle).1 = bars := by
  obtain ⟨later, hmem, hle⟩ := hlater
  rw [upsertBars_eq hordered, if_neg fun hall => absurd (hall later hmem) (not_lt.mpr hle),
    replaceBar_eq_map hordered]
  refine (List.map_congr_left fun bar hbar => ?_).trans (List.map_id bars)
  split_ifs with hsame
  · exact hkept bar hbar hsame
  · rfl

theorem keep_of_upsert (hordered : Ordered bars) (hbar : bar ∈ (upsertBars maxSize bars candle).1)
    (hsame : bar.openTime = candle.openTime) : keep bar candle = bar := by
  rw [upsertBars_eq hordered] at hbar
  split_ifs at hbar with hnewer
  · rcases mem_of_mem_pushBack hbar with hbar | rfl
    · exact absurd hsame (hnewer bar hbar).ne
    · exact ite_self _
  · rw [replaceBar_eq_map hordered] at hbar
    obtain ⟨old, hold, rfl⟩ := List.mem_map.mp hbar
    split_ifs at hsame ⊢ with htime
    · exact keep_keep old candle
    · exact absurd hsame htime

end ChainQuantStudio.State.Candles.BarClock
