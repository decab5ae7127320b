import ChainQuantStudio.Backtesting.Holdout
import ChainQuantStudio.Backtesting.OpenMoves
import Mathlib.Algebra.Order.BigOperators.Group.List

/-!
# Labels that look past the split

A label reads the bars after its row, and the last labels before the split read the holdout. The
selection is the same over every holdout exactly when no such label is left open by the rows before
the split.
-/

namespace ChainQuantStudio.Backtesting

open Columns Dsl FloatArith

variable {F : Type} [FloatArith F] {spec : GenericBacktestSpec F}

namespace Dataset

def column (dataset : Dataset F) (name : String) : List F := (dataset.columns.lookup name).getD []

omit [FloatArith F] in
theorem AgreeBefore.take_column {split : ℕ} {one other : Dataset F}
    (h : AgreeBefore split one other) (name : String) :
    (other.column name).take split = (one.column name).take split := by
  have hlookup : (other.columns.lookup name).map (List.take split) =
      (one.columns.lookup name).map (List.take split) := by
    rw [← lookup_truncate, ← lookup_truncate, h.columns]
  rw [column, column]
  cases hone : one.columns.lookup name <;> cases hother : other.columns.lookup name <;>
    simp_all

omit [FloatArith F] in
theorem AgreeBefore.getElem?_column {split : ℕ} {one other : Dataset F}
    (h : AgreeBefore split one other) (name : String) {j : ℕ} (hj : j < split) :
    (other.column name)[j]? = (one.column name)[j]? := by
  rw [← List.getElem?_take_of_lt hj, h.take_column, List.getElem?_take_of_lt hj]

omit [FloatArith F] in
theorem AgreeBefore.slice_column {split : ℕ} {one other : Dataset F}
    (h : AgreeBefore split one other) (name : String) {first last : ℕ} (hlast : last ≤ split) :
    slice (other.column name) first last = slice (one.column name) first last := by
  rw [← slice_take hlast, h.take_column, slice_take hlast]

theorem Aligned.find_column {dataset : Dataset F} (h : dataset.Aligned spec) {name : String}
    (hname : name ∈ spec.data.sourceColumns) :
    find dataset.columns name = .ok (dataset.column name) ∧
      (dataset.column name).length = dataset.timestamps.length := by
  rw [← h.names] at hname
  obtain ⟨entry, hentry, rfl⟩ := List.mem_map.mp hname
  have hlookup := lookup_eq_some_of_mem h.names_nodup hentry
  rw [find_eq_ok, column, hlookup]
  exact ⟨rfl, h.sizes entry hentry⟩

def moveLabels (spec : GenericBacktestSpec F) (candleSeconds : ℤ) (dataset : Dataset F) :
    List (Option Bool) :=
  (dataset.column spec.label.closeColumn).zipIdx.map
    (moveLabel spec.label.threshold (horizonBars spec candleSeconds)
      (dataset.column spec.label.highColumn) (dataset.column spec.label.lowColumn))

/-- A row before the split with a whole window that reaches the holdout, whose move the highs and
lows before the split leave open. -/
def Exposed (spec : GenericBacktestSpec F) (candleSeconds : ℤ) (split : ℕ) (dataset : Dataset F)
    (index : ℕ) : Prop :=
  index < split ∧ split ≤ index + horizonBars spec candleSeconds ∧
    index + horizonBars spec candleSeconds < dataset.timestamps.length ∧
    ∃ close ∈ (dataset.column spec.label.closeColumn)[index]?, le close (ofRat 0) = false ∧
      MoveOpen spec.label.threshold close
        (slice (dataset.column spec.label.highColumn) (index + 1) split)
        (slice (dataset.column spec.label.lowColumn) (index + 1) split)

end Dataset

theorem label_columns_of_validate (h : validate spec = .ok ()) :
    spec.label.highColumn ∈ spec.data.sourceColumns ∧
      spec.label.lowColumn ∈ spec.data.sourceColumns ∧
      spec.label.closeColumn ∈ spec.data.sourceColumns := by
  unfold validate at h
  split_ifs at h with _ _ hsub
  simpa using hsub

theorem foldl_row_positives (rows : List (Bool × Option Bool)) (tally : Tally) :
    (rows.foldl Tally.row tally).positives =
      tally.positives + (rows.map Prod.snd).count (some true) := by
  induction rows generalizing tally with
  | nil => simp
  | cons row rows ih =>
    obtain ⟨triggered, label⟩ := row
    rw [List.foldl_cons, ih, List.map_cons, List.count_cons]
    cases label with
    | none => simp [Tally.row]
    | some label => cases label <;> simp [Tally.row]; omega

theorem foldlM_part_positives {parts : List Part} {tally after : Tally}
    (h : parts.foldlM Tally.part tally = .ok after) :
    after.positives =
      tally.positives + (parts.map fun part => part.2.count (some true)).sum := by
  induction parts generalizing tally with
  | nil =>
    obtain rfl : tally = after := Except.ok.inj h
    simp
  | cons part parts ih =>
    rw [List.foldlM_cons] at h
    obtain ⟨next, hnext, hrest⟩ := bind_eq_ok.mp h
    unfold Tally.part at hnext
    split_ifs at hnext with hlength
    have hsnd : (part.1.zip part.2).map Prod.snd = part.2 :=
      List.map_snd_zip (by omega)
    rw [ih hrest, ← Except.ok.inj hnext, foldl_row_positives, hsnd]
    simp only [List.map_cons, List.sum_cons]
    omega

theorem positives_metrics {parts : List Part} {candleSeconds : ℤ} {m : MetricSet F}
    (h : metrics parts candleSeconds = .ok m) :
    m.positives = (parts.map fun part => part.2.count (some true)).sum := by
  obtain ⟨tally, htally, hm⟩ := bind_eq_ok.mp h
  have hpositives := foldlM_part_positives htally
  rw [← Except.ok.inj hm]
  simpa [Tally.metrics] using hpositives

theorem foldlM_part_signals {parts : List Part} {tally after : Tally}
    (hnone : ∀ part ∈ parts, ∀ label ∈ part.2, label = none)
    (h : parts.foldlM Tally.part tally = .ok after) : after.signals = tally.signals := by
  induction parts generalizing tally with
  | nil =>
    obtain rfl : tally = after := Except.ok.inj h
    rfl
  | cons part parts ih =>
    rw [List.foldlM_cons] at h
    obtain ⟨next, hnext, hrest⟩ := bind_eq_ok.mp h
    unfold Tally.part at hnext
    split_ifs at hnext with hlength
    rw [ih (fun other hother => hnone other (by simp [hother])) hrest, ← Except.ok.inj hnext]
    have hrows : ∀ row ∈ part.1.zip part.2, row.2 = none :=
      fun row hrow => hnone part (by simp) row.2 (List.of_mem_zip hrow).2
    generalize part.1.zip part.2 = rows at hrows
    generalize hstart : ({ tally with bars := tally.bars + part.1.length } : Tally) = start
    have hsignals : tally.signals = start.signals := by rw [← hstart]
    rw [hsignals]
    clear hstart hsignals
    induction rows with
    | nil => rfl
    | cons row rows ihrows =>
      obtain ⟨triggered, label⟩ := row
      obtain rfl : label = none := hrows (triggered, label) (by simp)
      exact ihrows fun other hother => hrows other (by simp [hother])

theorem labels_eq_none {dataset : Dataset F} {candleSeconds : ℤ} {labels : List (Option Bool)}
    (hzero : horizonBars spec candleSeconds = 0)
    (h : futureAbsoluteMoveLabels spec dataset candleSeconds = .ok labels) :
    ∀ label ∈ labels, label = none := by
  simp only [futureAbsoluteMoveLabels, bind_eq_ok, hzero] at h
  obtain ⟨high, -, low, -, close, -, hlabels⟩ := h
  exact forall_of_mapM hlabels fun row _ label hlabel => labelAt_zero hlabel

theorem one_le_horizonBars {catalog : Catalog F} {symbols : List String} {timeframe : String}
    {result : TimeframeResult F} {candleSeconds : ℤ}
    (hseconds : intervalSeconds timeframe = .ok candleSeconds)
    (h : runTimeframe spec catalog symbols timeframe = .ok result) :
    1 ≤ horizonBars spec candleSeconds := by
  by_contra hbars
  have hzero : horizonBars spec candleSeconds = 0 := by omega
  obtain ⟨seconds, datasets, candidates, best, hseconds', -, hcandidates, hbest, -⟩ :=
    runTimeframe_eq_ok.mp h
  obtain rfl : candleSeconds = seconds := Except.ok.inj (hseconds.symm.trans hseconds')
  have hnone : ∀ candidate ∈ candidates, candidate = none := by
    refine forall_of_mapM hcandidates fun parameters _ candidate hcandidate => ?_
    obtain ⟨parts, selection, holdout, hparts, hselection, -, rfl⟩ :=
      candidateOf_eq_ok.mp hcandidate
    obtain ⟨tally, htally, hmetrics⟩ := bind_eq_ok.mp hselection
    have hlabels : ∀ part ∈ parts, ∀ label ∈ part.1.2, label = none := by
      refine forall_of_mapM hparts fun dataset _ part hpart => ?_
      obtain ⟨-, -, -, labels, split, -, -, -, hlabels, -, rfl⟩ := partsOf_eq_ok.mp hpart
      have hall := labels_eq_none hzero hlabels
      exact fun label hlabel => hall label (List.mem_of_mem_take hlabel)
    have hsignals := foldlM_part_signals (fun part hpart label hlabel => by
      obtain ⟨pair, hpair, rfl⟩ := List.mem_map.mp hpart
      exact hlabels pair hpair label hlabel) htally
    have hselected : selection.signals = 0 := by
      rw [← Except.ok.inj hmetrics]
      simpa [Tally.metrics] using hsignals
    exact if_pos (Or.inl hselected)
  have hempty : candidates.filterMap id = [] :=
    List.filterMap_eq_nil_iff.mpr fun candidate hcandidate => hnone candidate hcandidate
  rw [hempty] at hbest
  cases hbest

theorem option_bool_ext {a b : Option Bool} (hnone : a = none ↔ b = none)
    (htrue : a = some true ↔ b = some true) : a = b := by
  rcases a with _ | _ | _ <;> rcases b with _ | _ | _ <;> simp_all

theorem labels_eq_moveLabels {dataset : Dataset F} {candleSeconds : ℤ}
    (hcolumns : spec.label.highColumn ∈ spec.data.sourceColumns ∧
      spec.label.lowColumn ∈ spec.data.sourceColumns ∧
      spec.label.closeColumn ∈ spec.data.sourceColumns)
    (hdataset : dataset.Aligned spec) (hbars : 1 ≤ horizonBars spec candleSeconds) :
    futureAbsoluteMoveLabels spec dataset candleSeconds =
      .ok (dataset.moveLabels spec candleSeconds) := by
  obtain ⟨hhigh, hlow, hclose⟩ := hcolumns
  obtain ⟨hfindHigh, hlengthHigh⟩ := hdataset.find_column hhigh
  obtain ⟨hfindLow, hlengthLow⟩ := hdataset.find_column hlow
  simp only [futureAbsoluteMoveLabels, hfindHigh, hfindLow, (hdataset.find_column hclose).1,
    ok_bind, Dataset.moveLabels]
  apply mapM_eq_ok_map
  intro row _
  exact labelAt_eq hbars (hlengthLow.trans hlengthHigh.symm) row

theorem futureAbsoluteMoveLabels_eq {dataset : Dataset F} {candleSeconds : ℤ}
    (hvalid : validate spec = .ok ()) (hdataset : dataset.Aligned spec)
    (hbars : 1 ≤ horizonBars spec candleSeconds) :
    futureAbsoluteMoveLabels spec dataset candleSeconds =
      .ok (dataset.moveLabels spec candleSeconds) :=
  labels_eq_moveLabels (label_columns_of_validate hvalid) hdataset hbars

theorem getElem?_moveLabels (spec : GenericBacktestSpec F) (candleSeconds : ℤ)
    (dataset : Dataset F) (index : ℕ) :
    (dataset.moveLabels spec candleSeconds)[index]? =
      (dataset.column spec.label.closeColumn)[index]?.map fun close =>
        moveLabel spec.label.threshold (horizonBars spec candleSeconds)
          (dataset.column spec.label.highColumn) (dataset.column spec.label.lowColumn)
          (close, index) := by
  simp [Dataset.moveLabels, Function.comp_def]

theorem moved_window [RoundedFloatArith F] {dataset : Dataset F} (hdataset : dataset.Aligned spec)
    {split index bars : ℕ} {threshold close : F} (hindex : index < split)
    (hreach : split ≤ index + bars) {high low : String} (hhigh : high ∈ spec.data.sourceColumns)
    (hlow : low ∈ spec.data.sourceColumns) (hwhole : index + bars < (dataset.column high).length)
    (hclosed : ¬ MoveOpen threshold close (slice (dataset.column high) (index + 1) split)
      (slice (dataset.column low) (index + 1) split)) :
    moved threshold close (slice (dataset.column high) (index + 1) (index + 1 + bars))
        (slice (dataset.column low) (index + 1) (index + 1 + bars)) =
      moved threshold close (slice (dataset.column high) (index + 1) split)
        (slice (dataset.column low) (index + 1) split) := by
  have hlength : (dataset.column low).length = (dataset.column high).length := by
    rw [(hdataset.find_column hlow).2, (hdataset.find_column hhigh).2]
  have hne : ∀ {column : List F}, index + bars < column.length →
      slice column split (index + 1 + bars) ≠ [] := by
    intro column hcolumn hnil
    have hslice := length_slice column split (index + 1 + bars)
    rw [hnil, List.length_nil] at hslice
    omega
  rw [slice_append (dataset.column high) hindex (by omega : split ≤ index + 1 + bars),
    slice_append (dataset.column low) hindex (by omega : split ≤ index + 1 + bars)]
  exact moved_append hclosed (hne hwhole) (hne (hlength ▸ hwhole))

/-- The rows before the split decide whether the window of an unexposed row moves. -/
theorem moved_agree [RoundedFloatArith F] {one other : Dataset F} {split index bars : ℕ}
    {threshold close : F} (hone : one.Aligned spec) (hother : other.Aligned spec)
    (hagree : Dataset.AgreeBefore split one other) (hindex : index < split) {high low : String}
    (hhigh : high ∈ spec.data.sourceColumns) (hlow : low ∈ spec.data.sourceColumns)
    (hwhole : index + bars < (one.column high).length)
    (hclosed : split ≤ index + bars →
      ¬ MoveOpen threshold close (slice (one.column high) (index + 1) split)
        (slice (one.column low) (index + 1) split)) :
    moved threshold close (slice (other.column high) (index + 1) (index + 1 + bars))
        (slice (other.column low) (index + 1) (index + 1 + bars)) =
      moved threshold close (slice (one.column high) (index + 1) (index + 1 + bars))
        (slice (one.column low) (index + 1) (index + 1 + bars)) := by
  have hlength : (other.column high).length = (one.column high).length := by
    rw [(hother.find_column hhigh).2, (hone.find_column hhigh).2, hagree.timestamps]
  by_cases hreach : split ≤ index + bars
  · have hone_closed := hclosed hreach
    have hother_closed := hone_closed
    rw [← hagree.slice_column _ le_rfl, ← hagree.slice_column _ le_rfl] at hother_closed
    rw [moved_window hone hindex hreach hhigh hlow hwhole hone_closed,
      moved_window hother hindex hreach hhigh hlow (hlength ▸ hwhole) hother_closed,
      hagree.slice_column _ le_rfl, hagree.slice_column _ le_rfl]
  · rw [hagree.slice_column _ (by omega), hagree.slice_column _ (by omega)]

theorem moveLabels_agree [RoundedFloatArith F] {one other : Dataset F} {split index : ℕ}
    {candleSeconds : ℤ} (hvalid : validate spec = .ok ()) (hone : one.Aligned spec)
    (hother : other.Aligned spec) (hbars : 1 ≤ horizonBars spec candleSeconds)
    (hagree : Dataset.AgreeBefore split one other)
    (hindex : index < split) (hexposed : ¬ one.Exposed spec candleSeconds split index) :
    (other.moveLabels spec candleSeconds)[index]? =
      (one.moveLabels spec candleSeconds)[index]? := by
  rw [getElem?_moveLabels, getElem?_moveLabels, hagree.getElem?_column _ hindex]
  cases hclose : (one.column spec.label.closeColumn)[index]? with
  | none => rfl
  | some close =>
    simp only [Option.map_some, Option.some.injEq]
    obtain ⟨hhigh, hlow, -⟩ := label_columns_of_validate hvalid
    have hlength : (other.column spec.label.highColumn).length =
        (one.column spec.label.highColumn).length := by
      rw [(hother.find_column hhigh).2, (hone.find_column hhigh).2, hagree.timestamps]
    have hnone : moveLabel spec.label.threshold (horizonBars spec candleSeconds)
          (other.column spec.label.highColumn) (other.column spec.label.lowColumn) (close, index) =
          none ↔
        moveLabel spec.label.threshold (horizonBars spec candleSeconds)
          (one.column spec.label.highColumn) (one.column spec.label.lowColumn) (close, index) =
          none := by
      rw [moveLabel_eq_none hbars, moveLabel_eq_none hbars, hlength]
    have htrue : moveLabel spec.label.threshold (horizonBars spec candleSeconds)
          (other.column spec.label.highColumn) (other.column spec.label.lowColumn) (close, index) =
          some true ↔
        moveLabel spec.label.threshold (horizonBars spec candleSeconds)
          (one.column spec.label.highColumn) (one.column spec.label.lowColumn) (close, index) =
          some true := by
      rw [moveLabel_eq_some_true hbars, moveLabel_eq_some_true hbars, hlength]
      refine and_congr_right fun hwhole => and_congr_right fun hpositive => ?_
      rw [moved_agree hone hother hagree hindex hhigh hlow hwhole fun hreach hopen => ?_]
      rw [(hone.find_column hhigh).2] at hwhole
      exact hexposed ⟨hindex, hreach, hwhole, close, hclose, hpositive, hopen⟩
    exact option_bool_ext hnone htrue

theorem labelsAgree_of_not_exposed [RoundedFloatArith F] {one other : Dataset F} {split : ℕ}
    {candleSeconds : ℤ} (hvalid : validate spec = .ok ()) (hone : one.Aligned spec)
    (hother : other.Aligned spec) (hbars : 1 ≤ horizonBars spec candleSeconds)
    (hagree : Dataset.AgreeBefore split one other)
    (hexposed : ∀ index, ¬ one.Exposed spec candleSeconds split index) :
    LabelsAgree spec candleSeconds split one other := by
  intro labels hlabels
  rw [futureAbsoluteMoveLabels_eq hvalid hone hbars] at hlabels
  obtain rfl := Except.ok.inj hlabels
  refine ⟨_, futureAbsoluteMoveLabels_eq hvalid hother hbars, ?_, ?_⟩
  · apply List.ext_getElem?
    intro index
    rw [List.getElem?_take, List.getElem?_take]
    split_ifs with hindex
    · exact moveLabels_agree hvalid hone hother hbars hagree hindex (hexposed index)
    · rfl
  · obtain ⟨-, -, hclose⟩ := label_columns_of_validate hvalid
    rw [Dataset.moveLabels, List.length_map, List.length_zipIdx, (hother.find_column hclose).2]

theorem selection_of_not_exposed [RoundedFloatArith F] {one other : Catalog F} {payload : Payload F}
    (hrun : run spec one = .ok payload) (hagree : one.AgreeBeforeSplit spec other)
    (hexposed : ∀ timeframe ∈ spec.data.timeframes, ∀ candleSeconds,
      intervalSeconds timeframe = .ok candleSeconds → ∀ symbol ∈ payload.symbols,
      ∀ dataset split, loadDataset spec one symbol timeframe = .ok dataset →
        splitIndex spec dataset.timestamps.length = .ok split →
        ∀ index, ¬ dataset.Exposed spec candleSeconds split index) :
    ∃ payload', run spec other = .ok payload' ∧
      payload'.results.map TimeframeResult.selectionReport =
        payload.results.map TimeframeResult.selectionReport := by
  refine run_transfer hagree ?_ hrun
  intro timeframe htimeframe candleSeconds hseconds symbol hsymbol a b split ha hb hab hsplit
  obtain ⟨hvalid, -, symbols, results, -, hresults, rfl⟩ := run_eq_ok.mp hrun
  obtain ⟨result, -, hresult⟩ := exists_of_forall₂_left (mapM_eq_ok_iff.mp hresults) htimeframe
  exact labelsAgree_of_not_exposed hvalid (loadDataset_wellFormed ha).toAligned
    (loadDataset_wellFormed hb).toAligned (one_le_horizonBars hseconds hresult) hab
    (hexposed timeframe htimeframe candleSeconds hseconds symbol hsymbol a split ha hsplit)

namespace Dataset

def fill (split : ℕ) (value : F) (dataset : Dataset F) : Dataset F where
  timestamps := dataset.timestamps
  columns := dataset.columns.map fun entry =>
    (entry.1, entry.2.take split ++ List.replicate (dataset.timestamps.length - split) value)

theorem WellFormed.fill {dataset : Dataset F} (h : dataset.WellFormed spec) (split : ℕ)
    (value : F) : (dataset.fill split value).WellFormed spec where
  names := by
    rw [← h.names]
    simp [Dataset.fill, Function.comp_def]
  sizes := by
    intro entry hentry
    obtain ⟨whole, hwhole, rfl⟩ := List.mem_map.mp hentry
    have hlength := h.sizes whole hwhole
    simp only [Dataset.fill, List.length_append, List.length_take, List.length_replicate, hlength]
    omega
  increasing := h.increasing
  inRange := h.inRange
  nonempty := h.nonempty

theorem Aligned.agreeBefore_fill {dataset : Dataset F} (h : dataset.Aligned spec) (split : ℕ)
    (value : F) : AgreeBefore split dataset (dataset.fill split value) where
  timestamps := rfl
  columns := by
    simp only [truncate, Dataset.fill, List.map_map]
    apply List.map_congr_left
    intro entry hentry
    have hlength := h.sizes entry hentry
    simp only [Function.comp_apply, Prod.mk.injEq, true_and]
    rcases Nat.lt_or_ge split dataset.timestamps.length with hsplit | hsplit
    · rw [List.take_append_of_le_length (by simp; omega), List.take_take, Nat.min_self]
    · rw [Nat.sub_eq_zero_of_le hsplit, List.replicate_zero, List.append_nil, List.take_take,
        Nat.min_self]

theorem Aligned.slice_fill {dataset : Dataset F} (h : dataset.Aligned spec) (value : F)
    {name : String} (hname : name ∈ spec.data.sourceColumns) {first split n : ℕ}
    (hfirst : first ≤ split) (hn : split + n ≤ dataset.timestamps.length) :
    slice ((dataset.fill split value).column name) first (split + n) =
      slice (dataset.column name) first split ++ List.replicate n value := by
  obtain ⟨hfind, hlength⟩ := h.find_column hname
  have hlookup : dataset.columns.lookup name = some (dataset.column name) := find_eq_ok.mp hfind
  have hcolumn : (dataset.fill split value).column name =
      (dataset.column name).take split ++
        List.replicate (dataset.timestamps.length - split) value := by
    have hfill := lookup_map_value (fun cells : List F => cells.take split ++
      List.replicate (dataset.timestamps.length - split) value) dataset.columns name
    rw [hlookup, Option.map_some] at hfill
    simp only [column, fill, hfill]
    rfl
  have htake : ((dataset.column name).take split).length = split := by
    rw [List.length_take, hlength]
    omega
  rw [slice_append _ hfirst (Nat.le_add_right split n),
    (h.agreeBefore_fill split value).slice_column name le_rfl, hcolumn]
  congr 1
  rw [slice, List.take_append, htake, List.take_of_length_le (by omega),
    List.drop_append_of_le_length (by omega), List.drop_of_length_le (by omega), List.nil_append,
    List.take_replicate]
  congr 1
  omega

end Dataset

def Catalog.fill (spec : GenericBacktestSpec F) (value : F) (catalog : Catalog F) : Catalog F :=
  { catalog with
    csv := fun slug timeframe => do
      let file ← (catalog.csv slug timeframe).or (catalog.compressed slug timeframe)
      let dataset ← (loadFile spec file).toOption
      let split ← (splitIndex spec dataset.timestamps.length).toOption
      return (dataset.fill split value).toFile spec
    compressed := fun _ _ => none }

theorem loadDataset_fill {catalog : Catalog F} {symbol timeframe : String} {dataset : Dataset F}
    {split : ℕ} (h : loadDataset spec catalog symbol timeframe = .ok dataset)
    (hsplit : splitIndex spec dataset.timestamps.length = .ok split) (value : F) :
    loadDataset spec (catalog.fill spec value) symbol timeframe =
      .ok (dataset.fill split value) := by
  have hformed := loadDataset_wellFormed h
  unfold loadDataset at h ⊢
  simp only at h ⊢
  split_ifs at h ⊢ with hslug
  split at h
  · cases h
  · rename_i file hfile
    simp only [Catalog.fill, hfile, h, hsplit, Except.toOption, Option.bind_eq_bind,
      Option.bind_some]
    exact loadFile_toFile (hformed.fill split value)

theorem loaded_of_runTimeframe {catalog : Catalog F} {symbols : List String} {timeframe : String}
    {result : TimeframeResult F} (h : runTimeframe spec catalog symbols timeframe = .ok result)
    {symbol : String} (hsymbol : symbol ∈ symbols) :
    ∃ dataset split, loadDataset spec catalog symbol timeframe = .ok dataset ∧
      splitIndex spec dataset.timestamps.length = .ok split := by
  obtain ⟨candleSeconds, datasets, candidates, best, -, hdatasets, hcandidates, hbest, -⟩ :=
    runTimeframe_eq_ok.mp h
  obtain ⟨dataset, hmem, hdataset⟩ := exists_of_forall₂_left (mapM_eq_ok_iff.mp hdatasets)
    (List.mem_eraseDups.mpr hsymbol)
  have hne : candidates ≠ [] := by
    rintro rfl
    cases hbest
  obtain ⟨candidate, hcandidate⟩ := List.exists_mem_of_ne_nil _ hne
  obtain ⟨parameters, -, hcandidate⟩ :=
    exists_of_forall₂_right (mapM_eq_ok_iff.mp hcandidates) hcandidate
  obtain ⟨parts, -, -, hparts, -, -, -⟩ := candidateOf_eq_ok.mp hcandidate
  obtain ⟨part, -, hpart⟩ := exists_of_forall₂_left (mapM_eq_ok_iff.mp hparts) hmem
  obtain ⟨values, condition, signal, labels, split, hvalues, hcondition, hsignal, -, hsplit, -⟩ :=
    partsOf_eq_ok.mp hpart
  have hrows : signal.length = dataset.timestamps.length := by
    rw [applyCooldown_length hsignal, length_onset,
      length_of_evaluate (loadDataset_wellFormed hdataset).toAligned hvalues hcondition]
  exact ⟨dataset, split, hdataset, hrows ▸ hsplit⟩

theorem agreeBeforeSplit_fill {catalog : Catalog F} {payload : Payload F}
    (hrun : run spec catalog = .ok payload) (value : F) :
    catalog.AgreeBeforeSplit spec (catalog.fill spec value) where
  underDataRoot := rfl
  universeManifest := rfl
  datasets := by
    intro symbols hsymbols symbol hsymbol timeframe htimeframe
    obtain ⟨-, -, symbols', results, hsymbols', hresults, -⟩ := run_eq_ok.mp hrun
    obtain rfl : symbols = symbols' := Except.ok.inj (hsymbols.symm.trans hsymbols')
    obtain ⟨result, -, hresult⟩ := exists_of_forall₂_left (mapM_eq_ok_iff.mp hresults) htimeframe
    obtain ⟨dataset, split, hdataset, hsplit⟩ := loaded_of_runTimeframe hresult hsymbol
    exact ⟨dataset, dataset.fill split value, split, hdataset, loadDataset_fill hdataset hsplit value,
      hsplit, (loadDataset_wellFormed hdataset).toAligned.agreeBefore_fill split value⟩

def countBefore (spec : GenericBacktestSpec F) (candleSeconds : ℤ) (dataset : Dataset F) : ℕ :=
  match splitIndex spec dataset.timestamps.length with
  | .error _ => 0
  | .ok split => ((dataset.moveLabels spec candleSeconds).take split).count (some true)

def positivesBefore (spec : GenericBacktestSpec F) (catalog : Catalog F) (candleSeconds : ℤ)
    (timeframe symbol : String) : ℕ :=
  match loadDataset spec catalog symbol timeframe with
  | .error _ => 0
  | .ok dataset => countBefore spec candleSeconds dataset

theorem firstMax_mem {α : Type} {greater : α → α → Bool} {entries : List α} {best : α}
    (h : firstMax greater entries = some best) : best ∈ entries := by
  cases entries with
  | nil => cases h
  | cons first rest =>
    simp only [firstMax, Option.some.injEq] at h
    induction rest generalizing first with
    | nil => simp [← h]
    | cons entry rest ih =>
      rw [List.foldl_cons] at h
      have hmem := ih _ h
      split_ifs at hmem
      · exact List.mem_cons_of_mem _ hmem
      · rcases List.mem_cons.mp hmem with rfl | hmem
        · simp
        · simp [hmem]

theorem positives_of_runTimeframe {catalog : Catalog F}
    {symbols : List String} {timeframe : String} {candleSeconds : ℤ} {result : TimeframeResult F}
    (hvalid : validate spec = .ok ()) (hseconds : intervalSeconds timeframe = .ok candleSeconds)
    (h : runTimeframe spec catalog symbols timeframe = .ok result) :
    result.selection.positives =
      (symbols.eraseDups.map (positivesBefore spec catalog candleSeconds timeframe)).sum := by
  have hbars := one_le_horizonBars hseconds h
  obtain ⟨seconds, datasets, candidates, best, hseconds', hdatasets, hcandidates, hbest, rfl⟩ :=
    runTimeframe_eq_ok.mp h
  obtain rfl : candleSeconds = seconds := Except.ok.inj (hseconds.symm.trans hseconds')
  obtain ⟨candidate, hmem, hcandidate⟩ := List.mem_filterMap.mp (firstMax_mem hbest)
  obtain rfl : candidate = some best := hcandidate
  obtain ⟨parameters, -, hcandidate⟩ := exists_of_forall₂_right (mapM_eq_ok_iff.mp hcandidates) hmem
  obtain ⟨parts, selection, holdout, hparts, hselection, -, hsome⟩ :=
    candidateOf_eq_ok.mp hcandidate
  split_ifs at hsome
  obtain rfl := Option.some.inj hsome
  simp only
  rw [positives_metrics hselection, List.map_map]
  congr 1
  rw [map_of_mapM (k := countBefore spec candleSeconds) hparts, ← map_of_mapM hdatasets]
  · intro symbol _ dataset hdataset
    rw [positivesBefore, hdataset]
  · intro dataset hmem part hpart
    have hdataset : dataset.Aligned spec :=
      forall_of_mapM hdatasets (fun symbol _ dataset hload =>
        (loadDataset_wellFormed hload).toAligned) dataset hmem
    obtain ⟨values, condition, signal, labels, split, hvalues, hcondition, hsignal, hlabels, hsplit,
      rfl⟩ := partsOf_eq_ok.mp hpart
    rw [futureAbsoluteMoveLabels_eq hvalid hdataset hbars] at hlabels
    rw [applyCooldown_length hsignal, length_onset,
      length_of_evaluate hdataset hvalues hcondition] at hsplit
    simp only [countBefore, hsplit, Function.comp_apply, ← Except.ok.inj hlabels]

theorem getElem?_moveLabels_fill {dataset : Dataset F} {candleSeconds : ℤ} {split index : ℕ}
    {value : F} (hvalid : validate spec = .ok ()) (hdataset : dataset.WellFormed spec)
    (hindex : index < split) (hreach : split ≤ index + horizonBars spec candleSeconds) :
    ((dataset.fill split value).moveLabels spec candleSeconds)[index]? = some (some true) ↔
      ∃ close, (dataset.column spec.label.closeColumn)[index]? = some close ∧
        index + horizonBars spec candleSeconds < dataset.timestamps.length ∧
        le close (ofRat 0) = false ∧
        movesWith spec.label.threshold close
          (highest (slice (dataset.column spec.label.highColumn) (index + 1) split))
          (lowest (slice (dataset.column spec.label.lowColumn) (index + 1) split)) value =
            true := by
  obtain ⟨hhigh, hlow, -⟩ := label_columns_of_validate hvalid
  have hagree := hdataset.toAligned.agreeBefore_fill split value
  have hfilled := (hdataset.fill split value).toAligned
  rw [getElem?_moveLabels, Option.map_eq_some_iff, hagree.getElem?_column _ hindex]
  refine exists_congr fun close => and_congr_right fun _ => ?_
  rw [moveLabel_eq_some_true (by omega), (hfilled.find_column hhigh).2]
  refine and_congr_right fun hwhole => and_congr_right fun _ => ?_
  have hwhole' : index + horizonBars spec candleSeconds < dataset.timestamps.length := hwhole
  obtain ⟨n, hn⟩ : ∃ n, index + 1 + horizonBars spec candleSeconds = split + (n + 1) :=
    ⟨index + horizonBars spec candleSeconds - split, by omega⟩
  rw [hn, hdataset.toAligned.slice_fill value hhigh hindex (by omega),
    hdataset.toAligned.slice_fill value hlow hindex (by omega), moved_replicate]

section Rounded

variable [RoundedFloatArith F]

theorem moveLabels_fill_raises {dataset : Dataset F} {candleSeconds : ℤ} {split index : ℕ}
    {u v : F} (hvalid : validate spec = .ok ()) (hdataset : dataset.WellFormed spec)
    (hbars : 1 ≤ horizonBars spec candleSeconds) (hindex : index < split)
    (hraises : Raises spec.label.threshold u v)
    (h : ((dataset.fill split u).moveLabels spec candleSeconds)[index]? = some (some true)) :
    ((dataset.fill split v).moveLabels spec candleSeconds)[index]? = some (some true) := by
  by_cases hreach : split ≤ index + horizonBars spec candleSeconds
  · rw [getElem?_moveLabels_fill hvalid hdataset hindex hreach] at h ⊢
    obtain ⟨close, hclose, hwhole, hpositive, hmoves⟩ := h
    exact ⟨close, hclose, hwhole, hpositive, hraises _ _ _ hpositive hmoves⟩
  · -- the window ends before the split, so the label is that of the dataset
    have hexposed : ¬ dataset.Exposed spec candleSeconds split index :=
      fun hexposed => hreach hexposed.2.1
    have hsame : ∀ value, ((dataset.fill split value).moveLabels spec candleSeconds)[index]? =
        (dataset.moveLabels spec candleSeconds)[index]? := fun value =>
      moveLabels_agree hvalid hdataset.toAligned (hdataset.fill split value).toAligned hbars
        (hdataset.toAligned.agreeBefore_fill split value) hindex hexposed
    rwa [hsame] at h ⊢

theorem moveLabels_of_exposed {dataset : Dataset F} {candleSeconds : ℤ} {split index : ℕ}
    (hvalid : validate spec = .ok ()) (hdataset : dataset.WellFormed spec)
    (h : dataset.Exposed spec candleSeconds split index) :
    ∃ u v, Raises spec.label.threshold u v ∧
      ((dataset.fill split u).moveLabels spec candleSeconds)[index]? ≠ some (some true) ∧
      ((dataset.fill split v).moveLabels spec candleSeconds)[index]? = some (some true) := by
  obtain ⟨hindex, hreach, hwhole, close, hclose, hpositive, hopen⟩ := h
  obtain ⟨-, hthreshold, hbelow⟩ := spec.label_checked
  obtain ⟨u, v, hu, hv, hraises⟩ := exists_fills hthreshold hbelow hpositive hopen
  refine ⟨u, v, hraises, ?_, ?_⟩
  · rw [Ne, getElem?_moveLabels_fill hvalid hdataset hindex hreach]
    rintro ⟨other, hother, -, -, hmoves⟩
    rw [hclose] at hother
    obtain rfl := Option.some.inj hother
    rw [hu] at hmoves
    cases hmoves
  · rw [getElem?_moveLabels_fill hvalid hdataset hindex hreach]
    exact ⟨close, hclose, hwhole, hpositive, hv⟩

end Rounded

theorem timeframe_of_runTimeframe {catalog : Catalog F} {symbols : List String}
    {timeframe : String} {result : TimeframeResult F}
    (h : runTimeframe spec catalog symbols timeframe = .ok result) :
    result.timeframe = timeframe := by
  obtain ⟨_, _, _, _, -, -, -, -, rfl⟩ := runTimeframe_eq_ok.mp h
  rfl

theorem runTimeframe_of_report {catalog : Catalog F} {payload : Payload F}
    (hrun : run spec catalog = .ok payload) {report : SelectionReport F}
    (h : report ∈ payload.results.map TimeframeResult.selectionReport) :
    ∃ result, runTimeframe spec catalog payload.symbols report.timeframe = .ok result ∧
      result.selectionReport = report := by
  obtain ⟨-, -, symbols, results, -, hresults, rfl⟩ := run_eq_ok.mp hrun
  obtain ⟨result, hresult, rfl⟩ := List.mem_map.mp h
  obtain ⟨timeframe, -, htimeframe⟩ := exists_of_forall₂_right (mapM_eq_ok_iff.mp hresults) hresult
  refine ⟨result, ?_, rfl⟩
  simpa [TimeframeResult.selectionReport, timeframe_of_runTimeframe htimeframe] using htimeframe

theorem positivesBefore_fill {catalog : Catalog F} {symbol timeframe : String}
    {candleSeconds : ℤ} {dataset : Dataset F} {split : ℕ}
    (h : loadDataset spec catalog symbol timeframe = .ok dataset)
    (hsplit : splitIndex spec dataset.timestamps.length = .ok split) (value : F) :
    positivesBefore spec (catalog.fill spec value) candleSeconds timeframe symbol =
      (((dataset.fill split value).moveLabels spec candleSeconds).take split).count (some true) := by
  have hlength : (dataset.fill split value).timestamps.length = dataset.timestamps.length := rfl
  rw [positivesBefore, loadDataset_fill h hsplit value]
  simp only [countBefore, hlength, hsplit]

section Rounded

variable [RoundedFloatArith F]

theorem take_moveLabels_fill_raises {dataset : Dataset F} {candleSeconds : ℤ} {split : ℕ}
    {u v : F} (hvalid : validate spec = .ok ()) (hdataset : dataset.WellFormed spec)
    (hbars : 1 ≤ horizonBars spec candleSeconds) (hraises : Raises spec.label.threshold u v)
    (index : ℕ)
    (h : (((dataset.fill split u).moveLabels spec candleSeconds).take split)[index]? =
      some (some true)) :
    (((dataset.fill split v).moveLabels spec candleSeconds).take split)[index]? =
      some (some true) := by
  rw [List.getElem?_take] at h ⊢
  split_ifs at h ⊢ with hindex
  exact moveLabels_fill_raises hvalid hdataset hbars hindex hraises h

theorem not_exposed_of_selection {catalog : Catalog F} {payload : Payload F}
    (hrun : run spec catalog = .ok payload)
    (hsame : ∀ other, catalog.AgreeBeforeSplit spec other →
      ∃ payload', run spec other = .ok payload' ∧
        payload'.results.map TimeframeResult.selectionReport =
          payload.results.map TimeframeResult.selectionReport)
    {timeframe : String} (htimeframe : timeframe ∈ spec.data.timeframes) {candleSeconds : ℤ}
    (hseconds : intervalSeconds timeframe = .ok candleSeconds) {symbol : String}
    (hsymbol : symbol ∈ payload.symbols) {dataset : Dataset F} {split : ℕ}
    (hdataset : loadDataset spec catalog symbol timeframe = .ok dataset)
    (hsplit : splitIndex spec dataset.timestamps.length = .ok split) (index : ℕ) :
    ¬ dataset.Exposed spec candleSeconds split index := by
  intro hexposed
  obtain ⟨hvalid, -, symbols, results, hsymbols, hresults, rfl⟩ := run_eq_ok.mp hrun
  obtain ⟨result, hresult, htimeframe'⟩ :=
    exists_of_forall₂_left (mapM_eq_ok_iff.mp hresults) htimeframe
  have hname := timeframe_of_runTimeframe htimeframe'
  have hbars := one_le_horizonBars hseconds htimeframe'
  -- every holdout of one value gives the same report, with the same positives
  have hfilled : ∀ value, result.selection.positives = (symbols.eraseDups.map
      (positivesBefore spec (catalog.fill spec value) candleSeconds timeframe)).sum := by
    intro value
    obtain ⟨payload', hrun', hreports⟩ := hsame _ (agreeBeforeSplit_fill hrun value)
    have hreport : result.selectionReport ∈ payload'.results.map _ :=
      hreports ▸ List.mem_map_of_mem hresult
    obtain ⟨result', hresult', hsameReport⟩ := runTimeframe_of_report hrun' hreport
    obtain ⟨-, -, symbols', results', hsymbols', -, rfl⟩ := run_eq_ok.mp hrun'
    have hresolve : resolveSymbols spec (catalog.fill spec value) = resolveSymbols spec catalog :=
      resolveSymbols_transfer rfl
    rw [hresolve, hsymbols] at hsymbols'
    obtain rfl := Except.ok.inj hsymbols'
    have hselection : result'.selection = result.selection :=
      congrArg SelectionReport.selection hsameReport
    rw [← hselection]
    refine positives_of_runTimeframe hvalid hseconds ?_
    rw [← hname]
    exact hresult'
  obtain ⟨u, v, hraises, hfalse, htrue⟩ :=
    moveLabels_of_exposed hvalid (loadDataset_wellFormed hdataset) hexposed
  have hlt := List.sum_lt_sum (l := symbols.eraseDups)
    (positivesBefore spec (catalog.fill spec u) candleSeconds timeframe)
    (positivesBefore spec (catalog.fill spec v) candleSeconds timeframe)
    (by
      intro other hother
      obtain ⟨loaded, cut, hloaded, hcut⟩ :=
        loaded_of_runTimeframe htimeframe' (List.mem_eraseDups.mp hother)
      rw [positivesBefore_fill hloaded hcut, positivesBefore_fill hloaded hcut]
      exact count_le_count
        (take_moveLabels_fill_raises hvalid (loadDataset_wellFormed hloaded) hbars hraises))
    (by
      refine ⟨symbol, List.mem_eraseDups.mpr hsymbol, ?_⟩
      rw [positivesBefore_fill hdataset hsplit, positivesBefore_fill hdataset hsplit]
      refine count_lt_count
        (take_moveLabels_fill_raises hvalid (loadDataset_wellFormed hdataset) hbars hraises)
        index ?_ ?_
      · rw [List.getElem?_take_of_lt hexposed.1]
        exact hfalse
      · rw [List.getElem?_take_of_lt hexposed.1]
        exact htrue)
  rw [← hfilled, ← hfilled] at hlt
  exact lt_irrefl _ hlt

/-- The holdout has no influence on the selection exactly when no row is exposed to it. -/
theorem selection_ignores_holdout_iff {catalog : Catalog F} {payload : Payload F}
    (hrun : run spec catalog = .ok payload) :
    (∀ other, catalog.AgreeBeforeSplit spec other →
      ∃ payload', run spec other = .ok payload' ∧
        payload'.results.map TimeframeResult.selectionReport =
          payload.results.map TimeframeResult.selectionReport) ↔
    ∀ timeframe ∈ spec.data.timeframes, ∀ candleSeconds,
      intervalSeconds timeframe = .ok candleSeconds → ∀ symbol ∈ payload.symbols,
      ∀ dataset split, loadDataset spec catalog symbol timeframe = .ok dataset →
        splitIndex spec dataset.timestamps.length = .ok split →
        ∀ index, ¬ dataset.Exposed spec candleSeconds split index := by
  constructor
  · intro hsame timeframe htimeframe candleSeconds hseconds symbol hsymbol dataset split hdataset
      hsplit index
    exact not_exposed_of_selection hrun hsame htimeframe hseconds hsymbol hdataset hsplit index
  · intro hexposed other hagree
    exact selection_of_not_exposed hrun hagree hexposed

end Rounded

def levelFields : GenericFields ℚ where
  schemaVersion := 2
  engine := "vectorized-feature-dsl-v1"
  strategy := { strategyId := "volume-level", horizon := .shortTerm, direction := "neutral" }
  data :=
    { provider := "normalized_csv", catalogPath := "data/backtest/normalized",
      start := ⟨0, some 0⟩, «end» := ⟨14400000000, some 0⟩, timezone := "UTC",
      timeframes := ["1h"], sourceColumns := ["volume", "price"], triggerInputs := ["candles"],
      supplementalInputs := [], closedCandlesOnly := true, publicOnly := true }
  «universe» :=
    { kind := "fixed", symbols := ["BTC"], rankingDays := 1, topVolume := 1, topGainers := 1,
      excludeBases := [] }
  parameters := [{ parameterId := "level", values := [1, 2] }]
  features :=
    [{ featureId := "signal", operator := .greaterEqual, inputs := ["volume"],
       thresholdParameter := some "level" }]
  signal := { condition := "signal", eventPolicy := "onset", cooldownSeconds := 0 }
  label :=
    { operator := "future_absolute_move", highColumn := "price", lowColumn := "price",
      closeColumn := "price", horizonHours := 1, threshold := 1 / 10 }
  validation :=
    { method := "chronological_holdout", selectionFraction := 1 / 2, holdoutFraction := 1 / 2,
      primaryMetric := "precision", maxSignalsPerSymbolDay := 100 }
  safety :=
    { signalOnly := true, allowExecution := false, allowAuthenticatedExchangeApi := false,
      autoPromoteParameters := false }

def levelSpec : GenericBacktestSpec ℚ where
  toGenericFields := levelFields
  graph :=
    { sourceColumns := ["volume", "price"], nodes := levelFields.features,
      signalCondition := "signal" }
  accepted := by decide +kernel

def levelFile (lastPrice : ℚ) : SeriesFile ℚ where
  name := "1h.csv"
  fieldnames := some ["timestamp", "volume", "price"]
  rows :=
    [⟨some 0, [("volume", some 1), ("price", some 100)]⟩,
     ⟨some 3600000000, [("volume", some 2), ("price", some 100)]⟩,
     ⟨some 7200000000, [("volume", some 0), ("price", some lastPrice)]⟩,
     ⟨some 10800000000, [("volume", some 0), ("price", some lastPrice)]⟩]

def levelCatalog (lastPrice : ℚ) : Catalog ℚ where
  underDataRoot := true
  universeManifest := none
  csv := fun slug timeframe =>
    if slug = "BTC" ∧ timeframe = "1h" then some (levelFile lastPrice) else none
  compressed := fun _ _ => none

def levelDataset (lastPrice : ℚ) : Dataset ℚ where
  timestamps := [0, 3600000000, 7200000000, 10800000000]
  columns := [("volume", [1, 2, 0, 0]), ("price", [100, 100, lastPrice, lastPrice])]

theorem levelCatalog_agree : (levelCatalog 100).AgreeBeforeSplit levelSpec (levelCatalog 200) where
  underDataRoot := rfl
  universeManifest := rfl
  datasets := by
    intro symbols hsymbols symbol hsymbol timeframe htimeframe
    obtain rfl : ["BTC"] = symbols := Except.ok.inj hsymbols
    obtain rfl : symbol = "BTC" := by simpa using hsymbol
    obtain rfl : timeframe = "1h" := by simpa [levelSpec, levelFields] using htimeframe
    exact ⟨levelDataset 100, levelDataset 200, 2, by decide +kernel, by decide +kernel,
      by decide +kernel, rfl, by decide +kernel⟩

theorem selection_ignores_holdout_iff_level :
    ∃ payload, run levelSpec (levelCatalog 100) = .ok payload ∧
      ((∀ other, (levelCatalog 100).AgreeBeforeSplit levelSpec other →
        ∃ payload', run levelSpec other = .ok payload' ∧
          payload'.results.map TimeframeResult.selectionReport =
            payload.results.map TimeframeResult.selectionReport) ↔
      ∀ timeframe ∈ levelSpec.data.timeframes, ∀ candleSeconds,
        intervalSeconds timeframe = .ok candleSeconds → ∀ symbol ∈ payload.symbols,
        ∀ dataset split, loadDataset levelSpec (levelCatalog 100) symbol timeframe = .ok dataset →
          splitIndex levelSpec dataset.timestamps.length = .ok split →
          ∀ index, ¬ dataset.Exposed levelSpec candleSeconds split index) := by
  have hok : (run levelSpec (levelCatalog 100)).toOption.isSome = true := by decide +kernel
  cases hrun : run levelSpec (levelCatalog 100) with
  | error error => simp [hrun, Except.toOption] at hok
  | ok payload => exact ⟨payload, rfl, selection_ignores_holdout_iff hrun⟩

/-- The price after the split decides which level is chosen. -/
theorem holdout_chooses_level :
    (levelCatalog 100).AgreeBeforeSplit levelSpec (levelCatalog 200) ∧
      ((run levelSpec (levelCatalog 100)).toOption.map fun payload =>
        payload.results.map TimeframeResult.parameters) = some [[("level", 1)]] ∧
      ((run levelSpec (levelCatalog 200)).toOption.map fun payload =>
        payload.results.map TimeframeResult.parameters) = some [[("level", 2)]] :=
  ⟨levelCatalog_agree, by decide +kernel, by decide +kernel⟩

end ChainQuantStudio.Backtesting
