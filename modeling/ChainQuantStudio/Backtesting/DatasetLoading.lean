import ChainQuantStudio.Backtesting.GenericEngine

/-!
# What the loader accepts

A dataset comes out of the loader exactly when it is well formed: a column for each source column,
all as long as the strictly increasing timestamps, which lie in the range of the specification.
-/

namespace ChainQuantStudio.Backtesting

open Columns Dsl FloatArith

variable {F : Type} [FloatArith F] {spec : GenericBacktestSpec F}

namespace Dataset

structure Aligned (spec : GenericBacktestSpec F) (dataset : Dataset F) : Prop where
  names : dataset.columns.map Prod.fst = spec.data.sourceColumns
  sizes : ∀ entry ∈ dataset.columns, entry.2.length = dataset.timestamps.length
  increasing : dataset.timestamps.Pairwise (· < ·)
  inRange : ∀ timestamp ∈ dataset.timestamps,
    spec.data.start.wall ≤ timestamp ∧ timestamp < spec.data.end.wall

structure WellFormed (spec : GenericBacktestSpec F) (dataset : Dataset F) : Prop
    extends Aligned spec dataset where
  nonempty : dataset.timestamps ≠ []

def take (n : ℕ) (dataset : Dataset F) : Dataset F where
  timestamps := dataset.timestamps.take n
  columns := truncate n dataset.columns

def rowAt (dataset : Dataset F) (row : ℤ × ℕ) : CsvRow F where
  timestamp := some row.1
  cells := dataset.columns.map fun entry => (entry.1, entry.2[row.2]?)

def toFile (spec : GenericBacktestSpec F) (dataset : Dataset F) : SeriesFile F where
  name := "series"
  fieldnames := some ("timestamp" :: spec.data.sourceColumns)
  rows := dataset.timestamps.zipIdx.map dataset.rowAt

theorem aligned_empty : Aligned spec (empty spec) where
  names := by
    rw [empty, List.map_map]
    exact List.map_id _
  sizes := by simp [empty]
  increasing := List.Pairwise.nil
  inRange := by simp [empty]

theorem sourceColumns_nodup : spec.data.sourceColumns.Nodup :=
  (compileFeatureGraph_eq_ok spec.compileGraph_eq).2.1.2

theorem Aligned.names_nodup {dataset : Dataset F} (h : Aligned spec dataset) :
    (dataset.columns.map Prod.fst).Nodup := by
  rw [h.names]
  exact sourceColumns_nodup

end Dataset

open Dataset

theorem lt_of_getLast? {times : List ℤ} (hincreasing : times.Pairwise (· < ·)) {next : ℤ}
    (hlast : ∀ previous ∈ times.getLast?, previous < next) : ∀ time ∈ times, time < next := by
  intro time htime
  rcases List.eq_nil_or_concat' times with rfl | ⟨init, last, rfl⟩
  · simp at htime
  · have hlt : last < next := hlast last (by simp)
    rcases List.mem_append.mp htime with hinit | hsame
    · have := (List.pairwise_append.mp hincreasing).2.2 time hinit last (by simp)
      omega
    · rwa [List.mem_singleton.mp hsame]

theorem loadRow_aligned {dataset after : Dataset F} {row : CsvRow F}
    (hdataset : Aligned spec dataset) (h : loadRow spec dataset row = .ok after) :
    Aligned spec after := by
  unfold loadRow at h
  cases htime : row.timestamp with
  | none => simp [htime] at h
  | some timestamp =>
    simp only [htime] at h
    split_ifs at h with hrange hlate
    · obtain ⟨columns, hcolumns, hafter⟩ := bind_eq_ok.mp h
      obtain rfl := Except.ok.inj hafter
      have hrows : List.Forall₂ (fun entry next : String × List F =>
          next.1 = entry.1 ∧ next.2.length = entry.2.length + 1) dataset.columns columns := by
        refine (mapM_eq_ok_iff.mp hcolumns).imp fun entry next hnext => ?_
        obtain ⟨value, -, hvalue⟩ := bind_eq_ok.mp hnext
        obtain rfl := Except.ok.inj hvalue
        simp
      refine ⟨?_, ?_, ?_, ?_⟩
      · rw [← hdataset.names]
        symm
        rw [← List.forall₂_eq_eq_eq, List.forall₂_map_left_iff, List.forall₂_map_right_iff]
        exact hrows.imp fun _ _ hnext => hnext.1.symm
      · intro next hnext
        obtain ⟨entry, hentry, -, hlength⟩ := exists_of_forall₂_right hrows hnext
        rw [hlength, hdataset.sizes entry hentry, List.length_append, List.length_singleton]
      · refine List.pairwise_append.mpr ⟨hdataset.increasing, List.pairwise_singleton _ _, ?_⟩
        simp only [List.mem_singleton, forall_eq]
        exact lt_of_getLast? hdataset.increasing fun previous hprevious =>
          not_le.mp fun hle => hlate ⟨previous, hprevious, hle⟩
      · intro time htime
        rcases List.mem_append.mp htime with htime | htime
        · exact hdataset.inRange time htime
        · rw [List.mem_singleton.mp htime]
          exact hrange
    · exact Except.ok.inj h ▸ hdataset

theorem foldlM_loadRow_aligned {rows : List (CsvRow F)} {dataset after : Dataset F}
    (hdataset : Aligned spec dataset) (h : rows.foldlM (loadRow spec) dataset = .ok after) :
    Aligned spec after := by
  induction rows generalizing dataset with
  | nil => exact Except.ok.inj h ▸ hdataset
  | cons row rows ih =>
    rw [List.foldlM_cons] at h
    obtain ⟨next, hnext, hrest⟩ := bind_eq_ok.mp h
    exact ih (loadRow_aligned hdataset hnext) hrest

theorem loadFile_wellFormed {file : SeriesFile F} {dataset : Dataset F}
    (h : loadFile spec file = .ok dataset) : WellFormed spec dataset := by
  unfold loadFile at h
  split_ifs at h
  obtain ⟨loaded, hloaded, hrest⟩ := bind_eq_ok.mp h
  split_ifs at hrest with hempty
  obtain rfl := Except.ok.inj hrest
  exact ⟨foldlM_loadRow_aligned aligned_empty hloaded, hempty⟩

theorem cell_rowAt {dataset : Dataset F} (hdataset : Aligned spec dataset) {entry : String × List F}
    (hentry : entry ∈ dataset.columns) {timestamp : ℤ} {k : ℕ} (hk : k < entry.2.length) :
    cell (dataset.rowAt (timestamp, k)) entry.1 = .ok entry.2[k] := by
  have hlookup : dataset.columns.lookup entry.1 = some entry.2 :=
    lookup_eq_some_of_mem hdataset.names_nodup hentry
  simp only [cell, rowAt]
  rw [lookup_map_value (fun column => column[k]?), hlookup, Option.map_some,
    List.getElem?_eq_getElem hk]

theorem loadRow_take {dataset : Dataset F} (hdataset : Aligned spec dataset) {k : ℕ}
    (hk : k < dataset.timestamps.length) :
    loadRow spec (dataset.take k) (dataset.rowAt (dataset.timestamps[k], k)) =
      .ok (dataset.take (k + 1)) := by
  have hrange := hdataset.inRange _ (List.getElem_mem hk)
  have hlate : ¬ ∃ previous ∈ (dataset.take k).timestamps.getLast?,
      dataset.timestamps[k] ≤ previous := by
    rintro ⟨previous, hprevious, hle⟩
    obtain ⟨i, hi, rfl⟩ := List.getElem_of_mem (List.mem_of_getLast? hprevious)
    simp only [Dataset.take, List.length_take, List.getElem_take] at hi hle
    have hlt := List.pairwise_iff_getElem.mp hdataset.increasing i k (by omega) hk (by omega)
    omega
  have hcolumns : (dataset.take k).columns.mapM (fun entry => do
      let value ← cell (dataset.rowAt (dataset.timestamps[k], k)) entry.1
      return (entry.1, entry.2 ++ [value])) = .ok (dataset.take (k + 1)).columns := by
    simp only [Dataset.take, truncate]
    rw [List.mapM_map]
    apply mapM_eq_ok_map
    intro entry hentry
    have hlength : k < entry.2.length := by rw [hdataset.sizes entry hentry]; exact hk
    simp only [Function.comp_apply, cell_rowAt hdataset hentry hlength]
    rw [List.take_add_one, List.getElem?_eq_getElem hlength]
    rfl
  have htimes : (dataset.take k).timestamps ++ [dataset.timestamps[k]] =
      (dataset.take (k + 1)).timestamps := by
    simp only [Dataset.take]
    rw [List.take_add_one, List.getElem?_eq_getElem hk]
    rfl
  unfold loadRow
  simp only [rowAt] at hcolumns ⊢
  rw [if_neg (not_not.mpr hrange), if_neg hlate, hcolumns, htimes]
  rfl

theorem foldlM_loadRow_take {dataset : Dataset F} (hdataset : Aligned spec dataset) (k : ℕ)
    (hk : k ≤ dataset.timestamps.length) :
    ((dataset.timestamps.zipIdx.map dataset.rowAt).take k).foldlM (loadRow spec) (empty spec) =
      .ok (dataset.take k) := by
  induction k with
  | zero =>
    have hempty : empty spec = dataset.take 0 := by
      simp only [empty, Dataset.take, truncate, List.take_zero, ← hdataset.names, List.map_map]
      rfl
    rw [List.take_zero, hempty]
    rfl
  | succ k ih =>
    have hrow : (dataset.timestamps.zipIdx.map dataset.rowAt)[k]? =
        some (dataset.rowAt (dataset.timestamps[k], k)) := by
      simp [List.getElem?_eq_getElem (by omega : k < dataset.timestamps.length)]
    rw [List.take_add_one, hrow, List.foldlM_append, ih (by omega)]
    simp only [Option.toList_some, List.foldlM_cons, List.foldlM_nil]
    exact bind_eq_ok.mpr ⟨_, rfl, bind_eq_ok.mpr ⟨_, loadRow_take hdataset (by omega), rfl⟩⟩

theorem loadFile_toFile {dataset : Dataset F} (h : WellFormed spec dataset) :
    loadFile spec (dataset.toFile spec) = .ok dataset := by
  have hall : dataset.take dataset.timestamps.length = dataset := by
    obtain ⟨timestamps, columns⟩ := dataset
    have hcolumns : truncate timestamps.length columns = columns := by
      refine (List.map_congr_left fun entry hentry => ?_).trans (List.map_id _)
      rw [← h.sizes entry hentry, List.take_length]
      rfl
    simp only [Dataset.take, List.take_length, hcolumns]
  have hfold := foldlM_loadRow_take h.toAligned _ le_rfl
  rw [List.take_of_length_le (by simp), hall] at hfold
  unfold loadFile
  rw [if_neg (by simp [toFile])]
  exact bind_eq_ok.mpr ⟨dataset, hfold, if_neg h.nonempty⟩

end ChainQuantStudio.Backtesting
