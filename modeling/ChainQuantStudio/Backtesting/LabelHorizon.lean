import ChainQuantStudio.Backtesting.HoldoutExposure
import Mathlib.Tactic.Linarith
import Mathlib.Tactic.FieldSimp

/-!
# What a label says about the horizon

The engine counts rows where the specification counts hours. The two agree over evenly spaced rows
no longer than the horizon, and otherwise exactly where the first move after each labelled row is
among the counted rows if and only if it is within the horizon.
-/

namespace ChainQuantStudio.Backtesting

open Columns Dsl FloatArith

variable {spec : GenericBacktestSpec ℚ} {dataset : Dataset ℚ} {candleSeconds : ℤ}

namespace Dataset

/-- Row `j` comes after row `i` by at most the horizon. -/
def WithinHorizon (spec : GenericBacktestSpec ℚ) (dataset : Dataset ℚ) (i j : ℕ) : Prop :=
  ∃ t ∈ dataset.timestamps[i]?, ∃ u ∈ dataset.timestamps[j]?,
    t < u ∧ u ≤ t + spec.label.horizonHours * 3600000000

/-- Row `j` has a high at least the threshold above the close, or a low at least that far below. -/
def Moves (spec : GenericBacktestSpec ℚ) (dataset : Dataset ℚ) (close : ℚ) (j : ℕ) : Prop :=
  (∃ x ∈ (dataset.column spec.label.highColumn)[j]?, close * (1 + spec.label.threshold) ≤ x) ∨
    ∃ x ∈ (dataset.column spec.label.lowColumn)[j]?, x ≤ close * (1 - spec.label.threshold)

def FirstMove (spec : GenericBacktestSpec ℚ) (dataset : Dataset ℚ) (close : ℚ) (i j : ℕ) : Prop :=
  i < j ∧ dataset.Moves spec close j ∧ ∀ k, i < k → k < j → ¬ dataset.Moves spec close k

/-- There is a label for each row, and one that is not absent tells whether some row within the
horizon moves far enough. -/
def LabelsMeanHorizon (spec : GenericBacktestSpec ℚ) (candleSeconds : ℤ) (dataset : Dataset ℚ) :
    Prop :=
  ∃ labels, futureAbsoluteMoveLabels spec dataset candleSeconds = .ok labels ∧
    labels.length = dataset.timestamps.length ∧
    ∀ i label close, labels[i]? = some (some label) →
      (dataset.column spec.label.closeColumn)[i]? = some close →
      (label = true ↔ ∃ j, dataset.WithinHorizon spec i j ∧ dataset.Moves spec close j)

/-- Where counting rows and counting hours come to the same. -/
structure HorizonFits (spec : GenericBacktestSpec ℚ) (candleSeconds : ℤ) (dataset : Dataset ℚ) :
    Prop where
  columns : spec.label.highColumn ∈ spec.data.sourceColumns ∧
    spec.label.lowColumn ∈ spec.data.sourceColumns ∧
    spec.label.closeColumn ∈ spec.data.sourceColumns
  bars : spec.label.horizonHours * 3600 < candleSeconds →
    ∀ close ∈ dataset.column spec.label.closeColumn, close ≤ 0
  windows : ∀ i close, (dataset.column spec.label.closeColumn)[i]? = some close → 0 < close →
    i + horizonBars spec candleSeconds < dataset.timestamps.length →
    ∀ j, dataset.FirstMove spec close i j →
      (j ≤ i + horizonBars spec candleSeconds ↔ dataset.WithinHorizon spec i j)

end Dataset

open Dataset

theorem intervalSeconds_pos {timeframe : String} (h : intervalSeconds timeframe = .ok candleSeconds) :
    0 < candleSeconds := by
  unfold intervalSeconds at h
  split at h <;> first | cases h; norm_num | cases h

theorem horizonBars_eq_zero (hpos : 0 < candleSeconds) :
    horizonBars spec candleSeconds = 0 ↔ spec.label.horizonHours * 3600 < candleSeconds := by
  have hhours : 0 ≤ spec.label.horizonHours * 3600 := by
    have := spec.label_checked.1
    omega
  unfold horizonBars
  rw [Int.toNat_eq_zero]
  constructor
  · intro h
    by_contra hnot
    have hone : 1 ≤ spec.label.horizonHours * 3600 / candleSeconds :=
      (Int.le_ediv_iff_mul_le hpos).mpr (by omega)
    omega
  · intro h
    rw [Int.ediv_eq_zero_of_lt hhours h]

theorem rose_iff {threshold close x : ℚ} (hclose : 0 < close) :
    rose threshold close x = true ↔ close * (1 + threshold) ≤ x := by
  simp only [rose, le, sub, div, ofRat, decide_eq_true_eq]
  rw [le_sub_iff_add_le, le_div_iff₀ hclose, add_comm, mul_comm]

theorem fell_iff {threshold close x : ℚ} (hclose : 0 < close) :
    fell threshold close x = true ↔ x ≤ close * (1 - threshold) := by
  simp only [fell, le, sub, div, ofRat, decide_eq_true_eq]
  rw [le_sub_comm, div_le_iff₀ hclose, mul_comm]

theorem movesWithin_iff {close : ℚ} (hclose : 0 < close) {bars i : ℕ} :
    MovesWithin spec.label.threshold bars (dataset.column spec.label.highColumn)
        (dataset.column spec.label.lowColumn) close i ↔
      ∃ j, i < j ∧ j ≤ i + bars ∧ dataset.Moves spec close j := by
  simp only [MovesWithin, Dataset.Moves, rose_iff hclose, fell_iff hclose]

theorem exists_firstMove {close : ℚ} {i j : ℕ} (hij : i < j) (hmoves : dataset.Moves spec close j) :
    ∃ first, first ≤ j ∧ dataset.FirstMove spec close i first := by
  classical
  have hexists : ∃ k, i < k ∧ dataset.Moves spec close k := ⟨j, hij, hmoves⟩
  refine ⟨Nat.find hexists, Nat.find_le ⟨hij, hmoves⟩, (Nat.find_spec hexists).1,
    (Nat.find_spec hexists).2, fun k hik hk hk' => ?_⟩
  exact Nat.find_min hexists hk ⟨hik, hk'⟩

theorem Dataset.Aligned.lt_of_withinHorizon (h : dataset.Aligned spec) {i j : ℕ}
    (hwithin : dataset.WithinHorizon spec i j) : i < j := by
  obtain ⟨t, ht, u, hu, htu, -⟩ := hwithin
  obtain ⟨hi, rfl⟩ := List.getElem?_eq_some_iff.mp ht
  obtain ⟨hj, rfl⟩ := List.getElem?_eq_some_iff.mp hu
  by_contra hnot
  rcases Nat.lt_or_ge j i with hlt | hge
  · have := List.pairwise_iff_getElem.mp h.increasing j i hj hi hlt
    omega
  · obtain rfl : i = j := by omega
    omega

theorem Dataset.Aligned.withinHorizon_of_le (h : dataset.Aligned spec) {i j k : ℕ}
    (hwithin : dataset.WithinHorizon spec i j) (hik : i < k) (hkj : k ≤ j) :
    dataset.WithinHorizon spec i k := by
  obtain ⟨t, ht, u, hu, htu, hlast⟩ := hwithin
  obtain ⟨hi, rfl⟩ := List.getElem?_eq_some_iff.mp ht
  obtain ⟨hj, rfl⟩ := List.getElem?_eq_some_iff.mp hu
  have hk : k < dataset.timestamps.length := by omega
  have hafter := List.pairwise_iff_getElem.mp h.increasing i k hi hk hik
  have hbefore : dataset.timestamps[k] ≤ dataset.timestamps[j] := by
    rcases Nat.lt_or_ge k j with hlt | hge
    · exact (List.pairwise_iff_getElem.mp h.increasing k j hk hj hlt).le
    · obtain rfl : k = j := by omega
      exact le_refl _
  exact ⟨_, ht, _, List.getElem?_eq_getElem hk, hafter, by omega⟩

theorem Dataset.Aligned.moves_agree_iff (h : dataset.Aligned spec) {close : ℚ} {bars i : ℕ} :
    ((∃ j, i < j ∧ j ≤ i + bars ∧ dataset.Moves spec close j) ↔
        ∃ j, dataset.WithinHorizon spec i j ∧ dataset.Moves spec close j) ↔
      ∀ j, dataset.FirstMove spec close i j →
        (j ≤ i + bars ↔ dataset.WithinHorizon spec i j) := by
  constructor
  · rintro hagree j ⟨hij, hmoves, hfirst⟩
    constructor
    · intro hj
      obtain ⟨k, hwithin, hk⟩ := hagree.mp ⟨j, hij, hj, hmoves⟩
      have hjk : j ≤ k := by
        by_contra hlt
        exact hfirst k (h.lt_of_withinHorizon hwithin) (by omega) hk
      exact h.withinHorizon_of_le hwithin hij hjk
    · intro hwithin
      obtain ⟨k, hik, hkbars, hk⟩ := hagree.mpr ⟨j, hwithin, hmoves⟩
      have hjk : j ≤ k := by
        by_contra hlt
        exact hfirst k hik (by omega) hk
      omega
  · intro hfirst
    constructor
    · rintro ⟨j, hij, hj, hmoves⟩
      obtain ⟨k, hkj, hk⟩ := exists_firstMove hij hmoves
      exact ⟨k, (hfirst k hk).mp (by omega), hk.2.1⟩
    · rintro ⟨j, hwithin, hmoves⟩
      obtain ⟨k, hkj, hk⟩ := exists_firstMove (h.lt_of_withinHorizon hwithin) hmoves
      have hwithin' := h.withinHorizon_of_le hwithin hk.1 hkj
      exact ⟨k, hk.1, (hfirst k hk).mpr hwithin', hk.2.1⟩

theorem columns_of_labels (h : dataset.Aligned spec) {labels : List (Option Bool)}
    (hlabels : futureAbsoluteMoveLabels spec dataset candleSeconds = .ok labels) :
    spec.label.highColumn ∈ spec.data.sourceColumns ∧
      spec.label.lowColumn ∈ spec.data.sourceColumns ∧
      spec.label.closeColumn ∈ spec.data.sourceColumns := by
  have hmem : ∀ {name column}, find dataset.columns name = .ok column →
      name ∈ spec.data.sourceColumns := by
    intro name column hfind
    rw [← h.names]
    exact List.mem_map.mpr ⟨(name, column), mem_of_lookup_eq_some (find_eq_ok.mp hfind), rfl⟩
  simp only [futureAbsoluteMoveLabels, bind_eq_ok] at hlabels
  obtain ⟨high, hhigh, low, hlow, close, hclose, -⟩ := hlabels
  exact ⟨hmem hhigh, hmem hlow, hmem hclose⟩

theorem labelAt_no_bars {threshold : ℚ} {high low : List ℚ} {row : ℚ × ℕ} :
    labelAt threshold 0 high low row = .ok none ↔ row.1 ≤ 0 := by
  obtain ⟨close, index⟩ := row
  have hempty : ∀ column : List ℚ, slice column (index + 1) (index + 1 + 0) = [] := by
    intro column
    rw [← List.length_eq_zero_iff, length_slice]
    omega
  simp only [labelAt, hempty, le, ofRat]
  split_ifs with hnone
  · simpa using hnone
  · refine iff_of_false (fun h => ?_) (by simpa using hnone)
    cases h

theorem getElem?_labels {i : ℕ} {close : ℚ}
    (hclose : (dataset.column spec.label.closeColumn)[i]? = some close) :
    (dataset.moveLabels spec candleSeconds)[i]? =
      some (moveLabel spec.label.threshold (horizonBars spec candleSeconds)
        (dataset.column spec.label.highColumn) (dataset.column spec.label.lowColumn) (close, i)) := by
  rw [getElem?_moveLabels, hclose, Option.map_some]

theorem exists_labels_of_no_bars (hcolumns : spec.label.highColumn ∈ spec.data.sourceColumns ∧
      spec.label.lowColumn ∈ spec.data.sourceColumns ∧
      spec.label.closeColumn ∈ spec.data.sourceColumns)
    (h : dataset.Aligned spec) (hzero : horizonBars spec candleSeconds = 0) :
    (∃ labels, futureAbsoluteMoveLabels spec dataset candleSeconds = .ok labels) ↔
      ∀ close ∈ dataset.column spec.label.closeColumn, close ≤ 0 := by
  obtain ⟨hhigh, hlow, hclose⟩ := hcolumns
  simp only [futureAbsoluteMoveLabels, (h.find_column hhigh).1, (h.find_column hlow).1,
    (h.find_column hclose).1, ok_bind, hzero]
  constructor
  · rintro ⟨labels, hlabels⟩ close hmem
    obtain ⟨i, hi, rfl⟩ := List.mem_iff_getElem.mp hmem
    have hrow : ((dataset.column spec.label.closeColumn)[i], i) ∈
        (dataset.column spec.label.closeColumn).zipIdx := by
      rw [List.mem_zipIdx_iff_getElem?]
      exact List.getElem?_eq_getElem hi
    obtain ⟨label, -, hlabel⟩ := exists_of_forall₂_left (mapM_eq_ok_iff.mp hlabels) hrow
    obtain rfl := labelAt_zero hlabel
    exact labelAt_no_bars.mp hlabel
  · intro hcloses
    refine ⟨_, mapM_eq_ok_map (g := fun _ => none) fun row hrow => ?_⟩
    exact labelAt_no_bars.mpr (hcloses _ (List.fst_mem_of_mem_zipIdx hrow))

theorem label_eq_true_iff (h : dataset.Aligned spec)
    (hhigh : spec.label.highColumn ∈ spec.data.sourceColumns)
    (hlow : spec.label.lowColumn ∈ spec.data.sourceColumns)
    (hbars : 1 ≤ horizonBars spec candleSeconds) {i : ℕ} {close : ℚ} {label : Bool}
    (hlabel : moveLabel spec.label.threshold (horizonBars spec candleSeconds)
      (dataset.column spec.label.highColumn) (dataset.column spec.label.lowColumn) (close, i) =
        some label) :
    (0 < close ∧ i + horizonBars spec candleSeconds < dataset.timestamps.length) ∧
      (label = true ↔ ∃ j, i < j ∧ j ≤ i + horizonBars spec candleSeconds ∧
        dataset.Moves spec close j) := by
  have hpresent : ¬ moveLabel spec.label.threshold (horizonBars spec candleSeconds)
      (dataset.column spec.label.highColumn) (dataset.column spec.label.lowColumn) (close, i) =
        none := by
    rw [hlabel]
    exact Option.some_ne_none label
  rw [moveLabel_eq_none hbars, (h.find_column hhigh).2, not_or] at hpresent
  obtain ⟨hwhole, hpositive⟩ := hpresent
  have hclose : 0 < close := by simpa [le, ofRat] using hpositive
  have hle : le close (ofRat 0) = false := by simpa using hpositive
  refine ⟨⟨hclose, by omega⟩, ?_⟩
  rw [← movesWithin_iff hclose]
  have htrue : moveLabel spec.label.threshold (horizonBars spec candleSeconds)
      (dataset.column spec.label.highColumn) (dataset.column spec.label.lowColumn) (close, i) =
        some true ↔ _ := moveLabel_eq_some_true hbars
  rw [hlabel, Option.some.injEq, (h.find_column hhigh).2] at htrue
  have hrows : i + horizonBars spec candleSeconds <
      (dataset.column spec.label.highColumn).length := by
    rw [(h.find_column hhigh).2]
    omega
  have hrows' : i + horizonBars spec candleSeconds <
      (dataset.column spec.label.lowColumn).length := by
    rw [(h.find_column hlow).2]
    omega
  rw [htrue, ← moved_iff_movesWithin hbars hclose hrows hrows']
  exact ⟨fun hall => hall.2.2, fun hmoves => ⟨by omega, hle, hmoves⟩⟩

theorem Dataset.Aligned.labelsMeanHorizon_of_fits (h : dataset.Aligned spec)
    (hpos : 0 < candleSeconds) (hfits : dataset.HorizonFits spec candleSeconds) :
    dataset.LabelsMeanHorizon spec candleSeconds := by
  have hlength : (dataset.column spec.label.closeColumn).length = dataset.timestamps.length :=
    (h.find_column hfits.columns.2.2).2
  by_cases hzero : horizonBars spec candleSeconds = 0
  · have hcloses := hfits.bars ((horizonBars_eq_zero hpos).mp hzero)
    obtain ⟨labels, hlabels⟩ :=
      (exists_labels_of_no_bars hfits.columns h hzero).mpr hcloses
    refine ⟨labels, hlabels, ?_, fun i label close hlabel _ => ?_⟩
    · simp only [futureAbsoluteMoveLabels, bind_eq_ok] at hlabels
      obtain ⟨high, -, low, -, close, hclose, hrows⟩ := hlabels
      rw [(h.find_column hfits.columns.2.2).1] at hclose
      obtain rfl := Except.ok.inj hclose
      rw [← (mapM_eq_ok_iff.mp hrows).length_eq, List.length_zipIdx, hlength]
    · have hnone := labels_eq_none hzero hlabels _ (List.mem_of_getElem? hlabel)
      cases hnone
  · have hbars : 1 ≤ horizonBars spec candleSeconds := by omega
    refine ⟨_, labels_eq_moveLabels hfits.columns h hbars, ?_, fun i label close hlabel hclose => ?_⟩
    · rw [Dataset.moveLabels, List.length_map, List.length_zipIdx, hlength]
    · rw [getElem?_labels hclose, Option.some.injEq] at hlabel
      obtain ⟨⟨hpositive, hwhole⟩, htrue⟩ :=
        label_eq_true_iff h hfits.columns.1 hfits.columns.2.1 hbars hlabel
      rw [htrue, h.moves_agree_iff]
      exact hfits.windows i close hclose hpositive hwhole

theorem Dataset.Aligned.fits_of_labelsMeanHorizon (h : dataset.Aligned spec)
    (hpos : 0 < candleSeconds) (hmean : dataset.LabelsMeanHorizon spec candleSeconds) :
    dataset.HorizonFits spec candleSeconds := by
  obtain ⟨labels, hlabels, -, htrue⟩ := hmean
  have hcolumns := columns_of_labels h hlabels
  refine ⟨hcolumns, fun hshort => ?_, fun i close hclose hpositive hwhole => ?_⟩
  · have hzero : horizonBars spec candleSeconds = 0 := (horizonBars_eq_zero hpos).mpr hshort
    exact (exists_labels_of_no_bars hcolumns h hzero).mp ⟨labels, hlabels⟩
  · have hbars : 1 ≤ horizonBars spec candleSeconds := by
      by_contra hnot
      have hzero : horizonBars spec candleSeconds = 0 := by omega
      have hcloses := (exists_labels_of_no_bars hcolumns h hzero).mp ⟨labels, hlabels⟩
      exact absurd (hcloses close (List.mem_of_getElem? hclose)) (not_le.mpr hpositive)
    rw [labels_eq_moveLabels hcolumns h hbars] at hlabels
    obtain rfl := Except.ok.inj hlabels
    -- the whole window and the positive close leave no absent label
    have hpresent : moveLabel spec.label.threshold (horizonBars spec candleSeconds)
        (dataset.column spec.label.highColumn) (dataset.column spec.label.lowColumn) (close, i) ≠
          none := by
      rw [Ne, moveLabel_eq_none hbars, (h.find_column hcolumns.1).2, not_or]
      exact ⟨by omega, by simpa [le, ofRat] using hpositive⟩
    obtain ⟨label, hlabel⟩ := Option.ne_none_iff_exists'.mp hpresent
    have hagree := htrue i label close (by rw [getElem?_labels hclose, hlabel]) hclose
    rw [← h.moves_agree_iff, ← hagree, (label_eq_true_iff h hcolumns.1 hcolumns.2.1 hbars hlabel).2]

def Dataset.EvenlySpaced (candleSeconds : ℤ) (dataset : Dataset ℚ) : Prop :=
  ∀ i t u, dataset.timestamps[i]? = some t → dataset.timestamps[i + 1]? = some u →
    u = t + candleSeconds * 1000000

theorem Dataset.EvenlySpaced.timestamp (h : dataset.EvenlySpaced candleSeconds) {i : ℕ} {t : ℤ}
    (ht : dataset.timestamps[i]? = some t) (k : ℕ) {u : ℤ}
    (hu : dataset.timestamps[i + k]? = some u) : u = t + k * (candleSeconds * 1000000) := by
  induction k generalizing u with
  | zero =>
    rw [Nat.add_zero, ht, Option.some.injEq] at hu
    simp [hu]
  | succ k ih =>
    obtain ⟨hlast, -⟩ := List.getElem?_eq_some_iff.mp hu
    have hbefore : dataset.timestamps[i + k]? = some dataset.timestamps[i + k] :=
      List.getElem?_eq_getElem (by omega)
    rw [h (i + k) _ _ hbefore hu, ih hbefore]
    push_cast
    ring

theorem le_horizonBars_iff (hpos : 0 < candleSeconds) {k : ℕ} :
    k ≤ horizonBars spec candleSeconds ↔ k * candleSeconds ≤ spec.label.horizonHours * 3600 := by
  have hhours : 0 ≤ spec.label.horizonHours * 3600 := by
    have := spec.label_checked.1
    omega
  rw [← Int.le_ediv_iff_mul_le hpos, horizonBars, Int.le_toNat (Int.ediv_nonneg hhours hpos.le)]

theorem Dataset.Aligned.fits_of_evenlySpaced (h : dataset.Aligned spec)
    (hcolumns : spec.label.highColumn ∈ spec.data.sourceColumns ∧
      spec.label.lowColumn ∈ spec.data.sourceColumns ∧
      spec.label.closeColumn ∈ spec.data.sourceColumns)
    (hpos : 0 < candleSeconds) (hlong : candleSeconds ≤ spec.label.horizonHours * 3600)
    (hspaced : dataset.EvenlySpaced candleSeconds) : dataset.HorizonFits spec candleSeconds := by
  refine ⟨hcolumns, fun hshort => absurd hlong (not_le.mpr hshort),
    fun i close hclose hpositive hwhole j hfirst => ?_⟩
  obtain ⟨k, rfl⟩ := Nat.exists_eq_add_of_le hfirst.1.le
  have hrow : i + k < dataset.timestamps.length := by
    rcases hfirst.2.1 with ⟨x, hx, -⟩ | ⟨x, hx, -⟩
    · rw [← (h.find_column hcolumns.1).2]
      exact (List.getElem?_eq_some_iff.mp hx).1
    · rw [← (h.find_column hcolumns.2.1).2]
      exact (List.getElem?_eq_some_iff.mp hx).1
  have hi : dataset.timestamps[i]? = some dataset.timestamps[i] :=
    List.getElem?_eq_getElem (by omega)
  have hj : dataset.timestamps[i + k]? = some dataset.timestamps[i + k] :=
    List.getElem?_eq_getElem hrow
  have hlater := hspaced.timestamp hi k hj
  have hafter := List.pairwise_iff_getElem.mp h.increasing i (i + k) (by omega) hrow hfirst.1
  rw [Nat.add_le_add_iff_left, le_horizonBars_iff hpos]
  simp only [Dataset.WithinHorizon, hi, hj, Option.mem_def, Option.some.injEq, exists_eq_left']
  constructor
  · intro hk
    exact ⟨hafter, by linarith⟩
  · rintro ⟨-, hlast⟩
    linarith

/-- The labels mean what the horizon says exactly where counting rows and hours come to the same. -/
theorem labels_mean_horizon_iff {catalog : Catalog ℚ} {symbol timeframe : String}
    (hseconds : intervalSeconds timeframe = .ok candleSeconds)
    (hload : loadDataset spec catalog symbol timeframe = .ok dataset) :
    dataset.LabelsMeanHorizon spec candleSeconds ↔ dataset.HorizonFits spec candleSeconds := by
  have haligned := (loadDataset_wellFormed hload).toAligned
  have hpos := intervalSeconds_pos hseconds
  exact ⟨haligned.fits_of_labelsMeanHorizon hpos, haligned.labelsMeanHorizon_of_fits hpos⟩

theorem labels_mean_horizon_iff_level :
    (levelDataset 200).LabelsMeanHorizon levelSpec 3600 ↔
      (levelDataset 200).HorizonFits levelSpec 3600 := by
  have hseconds : intervalSeconds "1h" = .ok 3600 := rfl
  have hload : loadDataset levelSpec (levelCatalog 200) "BTC" "1h" = .ok (levelDataset 200) := by
    decide +kernel
  exact labels_mean_horizon_iff hseconds hload

def gapFile : SeriesFile ℚ where
  name := "1h.csv"
  fieldnames := some ["timestamp", "volume", "price"]
  rows :=
    [⟨some 0, [("volume", some 1), ("price", some 100)]⟩,
     ⟨some 7200000000, [("volume", some 1), ("price", some 200)]⟩]

def gapCatalog : Catalog ℚ := { levelCatalog 100 with csv := fun _ _ => some gapFile }

def gapDataset : Dataset ℚ where
  timestamps := [0, 7200000000]
  columns := [("volume", [1, 1]), ("price", [100, 200])]

/-- The row after the gap decides the label of an hour. -/
theorem gap_decides_label :
    intervalSeconds "1h" = .ok 3600 ∧
      loadDataset levelSpec gapCatalog "BTC" "1h" = .ok gapDataset ∧
      futureAbsoluteMoveLabels levelSpec gapDataset 3600 = .ok [some true, none] ∧
      ¬ gapDataset.LabelsMeanHorizon levelSpec 3600 := by
  have hlabels : futureAbsoluteMoveLabels levelSpec gapDataset 3600 = .ok [some true, none] := by
    decide +kernel
  refine ⟨rfl, by decide +kernel, hlabels, ?_⟩
  rintro ⟨labels, hlabels', -, htrue⟩
  rw [hlabels] at hlabels'
  obtain rfl := Except.ok.inj hlabels'
  obtain ⟨j, ⟨t, ht, u, hu, hlater, hwithin⟩, -⟩ := (htrue 0 true 100 rfl rfl).mp rfl
  obtain rfl : 0 = t := Option.some.inj ht
  have hwithin' : u ≤ 3600000000 := hwithin
  match j with
  | 0 =>
    obtain rfl : 0 = u := Option.some.inj hu
    omega
  | 1 =>
    obtain rfl : 7200000000 = u := Option.some.inj hu
    omega
  | j + 2 => cases hu

end ChainQuantStudio.Backtesting
