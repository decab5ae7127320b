import ChainQuantStudio.Backtesting.Dsl

/-!
# The evaluator does not look ahead

Each node's column on the first `n` rows is the first `n` entries of its column on all rows. The
proof goes through the operators once and then along the list of nodes; replaying the prefixes one
by one gives the signal column itself.
-/

namespace ChainQuantStudio.Backtesting.Dsl

open Columns FloatArith

variable {F : Type} [FloatArith F]

theorem item_take {α : Type} {l : List α} {i n : ℕ} (h : i < n) : item (l.take n) i = item l i := by
  rw [item, item, List.getElem?_take_of_lt h]

theorem item_map {α β : Type} (f : α → β) (l : List α) (i : ℕ) :
    item (l.map f) i = (item l i).map f := by
  rw [item, item, List.getElem?_map]
  cases l[i]? <;> rfl

theorem windowedAt_take (operator : FeatureOperator) (source : Column F) (bars : ℕ)
    (value : Scalar F) {i n : ℕ} (h : i < n) :
    windowedAt operator (source.take n) bars (value, i) =
      windowedAt operator source bars (value, i) := by
  simp only [windowedAt]
  rw [slice_take h.le]

theorem combineAt_take (operator : FeatureOperator) (inputs : List (Column F)) {i n : ℕ}
    (h : i < n) :
    combineAt operator (inputs.map (List.take n)) i = combineAt operator inputs i := by
  have hrow : (inputs.map (List.take n)).mapM (fun column => item column i) =
      inputs.mapM fun column => item column i := by
    rw [List.mapM_map]
    apply mapM_congr
    intro column _
    exact item_take h
  simp only [combineAt, hrow]

theorem quantifyAt_take (stop : Bool) (inputs : List (Column F)) {i n : ℕ} (h : i < n) :
    quantifyAt stop i (inputs.map (List.take n)) = quantifyAt stop i inputs := by
  induction inputs with
  | nil => rfl
  | cons column columns ih => simp only [List.map_cons, quantifyAt, item_take h, ih]

theorem evaluateNode_take {node : FeatureNode F} {inputs : List (Column F)}
    {parameters : Mapping F} {minutes : ℤ} {column : Column F}
    (h : evaluateNode node inputs parameters minutes = .ok column) (n : ℕ) :
    evaluateNode node (inputs.map (List.take n)) parameters minutes = .ok (column.take n) := by
  obtain ⟨source, hsource, hnode⟩ := bind_eq_ok.mp h
  have htake : item (inputs.map (List.take n)) 0 = .ok (source.take n) := by
    rw [item_map, hsource]
    rfl
  refine bind_eq_ok.mpr ⟨source.take n, htake, ?_⟩
  rw [List.length_take]
  cases hop : node.operator <;> simp only [hop] at hnode ⊢
  case rollingMean | rollingRatio | robustZscore | pctChange =>
    obtain ⟨bars, hbars, hcolumn⟩ := bind_eq_ok.mp hnode
    refine bind_eq_ok.mpr ⟨bars, hbars, ?_⟩
    exact mapM_zipIdx_take hcolumn fun value i hi => windowedAt_take _ source bars value hi
  case greaterEqual | lessEqual =>
    obtain ⟨bound, hbound, hcolumn⟩ := bind_eq_ok.mp hnode
    refine bind_eq_ok.mpr ⟨bound, hbound, ?_⟩
    rw [← Except.ok.inj hcolumn, List.map_take]
  case abs | log1p => rw [← Except.ok.inj hnode, List.map_take]
  case minimum | maximum => exact mapM_range_take hnode fun i hi => combineAt_take _ inputs hi
  case all | any =>
    exact mapM_range_take hnode fun i hi => by rw [quantifyAt_take _ inputs hi]

omit [FloatArith F] in
theorem mapM_find_truncate {names : List String} {values : Mapping (Column F)}
    {inputs : List (Column F)} (h : names.mapM (find values) = .ok inputs) (n : ℕ) :
    names.mapM (find (truncate n values)) = .ok (inputs.map (List.take n)) := by
  have hfind : ∀ name column, find values name = .ok column →
      find (truncate n values) name = .ok (column.take n) := by
    intro name column hcolumn
    simp only [find, lookup_truncate] at hcolumn ⊢
    cases hl : values.lookup name with
    | none => simp [hl] at hcolumn
    | some other => simpa [hl] using congrArg (List.take n) (Except.ok.inj (hl ▸ hcolumn))
  apply mapM_eq_ok_iff.mpr
  rw [List.forall₂_map_right_iff]
  exact (mapM_eq_ok_iff.mp h).imp hfind

theorem evaluateInto_truncate {parameters : Mapping F} {minutes : ℤ}
    {values after : Mapping (Column F)} {node : FeatureNode F}
    (h : evaluateInto parameters minutes values node = .ok after) (n : ℕ) :
    evaluateInto parameters minutes (truncate n values) node = .ok (truncate n after) := by
  obtain ⟨inputs, hinputs, hrest⟩ := bind_eq_ok.mp h
  obtain ⟨column, hcolumn, hafter⟩ := bind_eq_ok.mp hrest
  refine bind_eq_ok.mpr ⟨_, mapM_find_truncate hinputs n, ?_⟩
  refine bind_eq_ok.mpr ⟨_, evaluateNode_take hcolumn n, ?_⟩
  rw [← Except.ok.inj hafter]
  rfl

theorem foldlM_evaluateInto_truncate {parameters : Mapping F} {minutes : ℤ}
    {nodes : List (FeatureNode F)} {values after : Mapping (Column F)}
    (h : nodes.foldlM (evaluateInto parameters minutes) values = .ok after) (n : ℕ) :
    nodes.foldlM (evaluateInto parameters minutes) (truncate n values) =
      .ok (truncate n after) := by
  induction nodes generalizing values with
  | nil =>
    obtain rfl : values = after := Except.ok.inj h
    rfl
  | cons node nodes ih =>
    rw [List.foldlM_cons] at h ⊢
    obtain ⟨next, hnext, hrest⟩ := bind_eq_ok.mp h
    exact bind_eq_ok.mpr ⟨truncate n next, evaluateInto_truncate hnext n, ih hrest⟩

namespace CompiledFeatureGraph

omit [FloatArith F] in
theorem sources_truncate (graph : CompiledFeatureGraph F) (columns : Mapping (List F)) (n : ℕ) :
    graph.sources (truncate n columns) = truncate n (graph.sources columns) := by
  simp only [sources, truncate, List.filter_map, List.map_map]
  congr 1
  funext entry
  simp [List.map_take]

omit [FloatArith F] in
theorem missing_truncate (graph : CompiledFeatureGraph F) (columns : Mapping (List F)) (n : ℕ) :
    graph.missing (truncate n columns) = graph.missing columns := by
  simp [missing, lookup_truncate]

omit [FloatArith F] in
theorem missing_eq_nil_iff {graph : CompiledFeatureGraph F} {columns : Mapping (List F)} :
    graph.missing columns = [] ↔ ∀ name ∈ graph.sourceColumns, (columns.lookup name).isSome := by
  simp [missing, List.filter_eq_nil_iff, Option.isSome_iff_ne_none]

omit [FloatArith F] in
theorem lookup_sources_isSome {graph : CompiledFeatureGraph F} {columns : Mapping (List F)}
    (hmissing : graph.missing columns = []) {name : String} (hname : name ∈ graph.sourceColumns) :
    ((graph.sources columns).lookup name).isSome := by
  have hpresent := missing_eq_nil_iff.mp hmissing name hname
  obtain ⟨column, hcolumn⟩ := Option.isSome_iff_exists.mp hpresent
  apply isSome_lookup_of_mem
  exact List.mem_map.mpr ⟨(name, column), List.mem_filter.mpr
    ⟨mem_of_lookup_eq_some hcolumn, by simpa using hname⟩, rfl⟩

theorem evaluate_eq_ok {graph : CompiledFeatureGraph F} {columns : Mapping (List F)}
    {parameters : Mapping F} {minutes : ℤ} {values : Mapping (Column F)} :
    graph.evaluate columns parameters minutes = .ok values ↔
      (∃ size, columns ≠ [] ∧ ∀ entry ∈ columns, entry.2.length = size) ∧
      graph.missing columns = [] ∧
      graph.nodes.foldlM (evaluateInto parameters minutes) (graph.sources columns) =
        .ok values := by
  have hsize : (∃ size, columns ≠ [] ∧ ∀ entry ∈ columns, entry.2.length = size) ↔
      (columns.map fun entry => entry.2.length).dedup.length = 1 := by
    rw [dedup_length_eq_one_iff]
    simp only [ne_eq, List.map_eq_nil_iff, List.forall_mem_map]
  rw [hsize]
  unfold evaluate
  by_cases hl : (columns.map fun entry => entry.2.length).dedup.length = 1
  · by_cases hm : graph.missing columns = []
    · simp [hl, hm]
    · simp [hl, hm]
  · simp [hl]

theorem evaluate_truncate {graph : CompiledFeatureGraph F} {columns : Mapping (List F)}
    {parameters : Mapping F} {minutes : ℤ} {values : Mapping (Column F)}
    (h : graph.evaluate columns parameters minutes = .ok values) (n : ℕ) :
    graph.evaluate (truncate n columns) parameters minutes = .ok (truncate n values) := by
  obtain ⟨⟨size, hne, hsize⟩, hmissing, hfold⟩ := evaluate_eq_ok.mp h
  refine evaluate_eq_ok.mpr ⟨⟨min n size, ?_, ?_⟩, ?_, ?_⟩
  · simpa [truncate] using hne
  · intro entry hentry
    obtain ⟨whole, hwhole, rfl⟩ := List.mem_map.mp hentry
    simp [hsize whole hwhole]
  · rw [missing_truncate, hmissing]
  · rw [sources_truncate]
    exact foldlM_evaluateInto_truncate hfold n

end CompiledFeatureGraph

theorem evaluateNode_length {node : FeatureNode F} {inputs : List (Column F)}
    {parameters : Mapping F} {minutes : ℤ} {column : Column F} {size : ℕ}
    (h : evaluateNode node inputs parameters minutes = .ok column)
    (hsize : ∀ input ∈ inputs, input.length = size) : column.length = size := by
  obtain ⟨source, hsource, hnode⟩ := bind_eq_ok.mp h
  have hlength : source.length = size := by
    cases inputs with
    | nil => simp [item] at hsource
    | cons first rest =>
      obtain rfl : first = source := by simpa [item] using hsource
      exact hsize first (by simp)
  cases hop : node.operator <;> simp only [hop] at hnode
  case rollingMean | rollingRatio | robustZscore | pctChange =>
    obtain ⟨bars, -, hcolumn⟩ := bind_eq_ok.mp hnode
    rw [length_of_mapM hcolumn, List.length_zipIdx, hlength]
  case greaterEqual | lessEqual =>
    obtain ⟨bound, -, hcolumn⟩ := bind_eq_ok.mp hnode
    rw [← Except.ok.inj hcolumn, List.length_map, hlength]
  case abs | log1p => rw [← Except.ok.inj hnode, List.length_map, hlength]
  case minimum | maximum | all | any => rw [length_of_mapM hnode, List.length_range, hlength]

omit [FloatArith F] in
theorem mapM_find_forall {names : List String} {values : Mapping (Column F)}
    {inputs : List (Column F)} {p : Column F → Prop}
    (h : names.mapM (find values) = .ok inputs) (hp : ∀ entry ∈ values, p entry.2) :
    ∀ input ∈ inputs, p input := by
  refine forall_of_mapM h fun name _ column hcolumn => ?_
  simp only [find] at hcolumn
  cases hl : values.lookup name with
  | none => simp [hl] at hcolumn
  | some other =>
    obtain rfl : other = column := by simpa [hl] using hcolumn
    exact hp _ (mem_of_lookup_eq_some hl)

theorem foldlM_evaluateInto_length {parameters : Mapping F} {minutes : ℤ}
    {nodes : List (FeatureNode F)} {values after : Mapping (Column F)} {size : ℕ}
    (h : nodes.foldlM (evaluateInto parameters minutes) values = .ok after)
    (hsize : ∀ entry ∈ values, entry.2.length = size) :
    ∀ entry ∈ after, entry.2.length = size := by
  induction nodes generalizing values with
  | nil =>
    obtain rfl : values = after := Except.ok.inj h
    exact hsize
  | cons node nodes ih =>
    rw [List.foldlM_cons] at h
    obtain ⟨next, hnext, hrest⟩ := bind_eq_ok.mp h
    obtain ⟨inputs, hinputs, hrest'⟩ := bind_eq_ok.mp hnext
    obtain ⟨column, hcolumn, hcons⟩ := bind_eq_ok.mp hrest'
    refine ih hrest fun entry hentry => ?_
    rw [← Except.ok.inj hcons] at hentry
    rcases List.mem_cons.mp hentry with rfl | hentry
    · exact evaluateNode_length hcolumn (mapM_find_forall hinputs hsize)
    · exact hsize entry hentry

theorem lookup_isSome_of_foldlM {parameters : Mapping F} {minutes : ℤ}
    {nodes : List (FeatureNode F)} {values after : Mapping (Column F)} {name : String}
    (h : nodes.foldlM (evaluateInto parameters minutes) values = .ok after)
    (hname : (values.lookup name).isSome ∨ name ∈ nodes.map FeatureNode.featureId) :
    (after.lookup name).isSome := by
  induction nodes generalizing values with
  | nil =>
    obtain rfl : values = after := Except.ok.inj h
    simpa using hname
  | cons node nodes ih =>
    rw [List.foldlM_cons] at h
    obtain ⟨next, hnext, hrest⟩ := bind_eq_ok.mp h
    obtain ⟨inputs, -, hrest'⟩ := bind_eq_ok.mp hnext
    obtain ⟨column, -, hcons⟩ := bind_eq_ok.mp hrest'
    refine ih hrest ?_
    rw [← Except.ok.inj hcons, List.lookup_cons]
    by_cases hid : name = node.featureId
    · left; simp [hid]
    · rcases hname with hname | hname
      · left; simpa [beq_false_of_ne hid] using hname
      · right
        simp only [List.map_cons, List.mem_cons] at hname
        exact hname.resolve_left hid

theorem replayPrefixes_eq {graph : CompiledFeatureGraph F} {columns : Mapping (List F)}
    {parameters : Mapping F} {minutes : ℤ} {values : Mapping (Column F)} {signal : Column F}
    (h : graph.evaluate columns parameters minutes = .ok values)
    (hsignal : values.lookup graph.signalCondition = some signal) :
    replayPrefixes graph columns parameters minutes = .ok signal := by
  obtain ⟨⟨size, hne, hsize⟩, -, hfold⟩ := CompiledFeatureGraph.evaluate_eq_ok.mp h
  have hsources : ∀ entry ∈ graph.sources columns, entry.2.length = size := by
    intro entry hentry
    obtain ⟨whole, hwhole, rfl⟩ := List.mem_map.mp hentry
    simpa using hsize whole (List.mem_of_mem_filter hwhole)
  have hlength : signal.length = size :=
    foldlM_evaluateInto_length hfold hsources _ (mem_of_lookup_eq_some hsignal)
  obtain ⟨⟨name, first⟩, rest, rfl⟩ := List.exists_cons_of_ne_nil hne
  have hfirst : first.length = size := hsize (name, first) (by simp)
  simp only [replayPrefixes, hfirst, ← hlength]
  have hat : ∀ i < signal.length,
      replayAt graph ((name, first) :: rest) parameters minutes (i + 1) = item signal i := by
    intro i hi
    have hfind : find (truncate (i + 1) values) graph.signalCondition =
        .ok (signal.take (i + 1)) := by
      simp [find, lookup_truncate, hsignal]
    have hlast : (signal.take (i + 1)).getLast? = some signal[i] := by
      rw [List.getLast?_take]
      simp [hi]
    rw [item, List.getElem?_eq_getElem hi]
    refine bind_eq_ok.mpr ⟨_, CompiledFeatureGraph.evaluate_truncate h (i + 1), ?_⟩
    refine bind_eq_ok.mpr ⟨_, hfind, ?_⟩
    rw [hlast]
  have hloop : ((List.range signal.length).map (· + 1)).mapM
      (replayAt graph ((name, first) :: rest) parameters minutes) =
      (List.range signal.length).mapM (item signal) := by
    rw [List.mapM_map]
    exact mapM_congr fun i hi => hat i (List.mem_range.mp hi)
  rw [hloop]
  apply mapM_eq_ok_iff.mpr
  apply List.forall₂_iff_get.mpr
  refine ⟨by simp, fun i hi hi' => ?_⟩
  simp [item, List.getElem?_eq_getElem hi']

/-- On the first `n` rows every node has the first `n` entries of its column on all rows, and
replaying the prefixes gives the signal column. -/
theorem evaluate_never_looks_ahead {sourceColumns parameterIds : List String}
    {nodes : List (FeatureNode F)} {signalCondition : String} {graph : CompiledFeatureGraph F}
    (hgraph : compileFeatureGraph sourceColumns nodes signalCondition parameterIds = .ok graph)
    (columns : Mapping (List F)) (parameters : Mapping F) (minutes : ℤ)
    (values : Mapping (Column F))
    (h : graph.evaluate columns parameters minutes = .ok values) :
    (∀ n, 1 ≤ n →
      graph.evaluate (truncate n columns) parameters minutes = .ok (truncate n values)) ∧
    ∃ signal, values.lookup graph.signalCondition = some signal ∧
      replayPrefixes graph columns parameters minutes = .ok signal := by
  refine ⟨fun n _ => graph.evaluate_truncate h n, ?_⟩
  obtain ⟨rfl, -, available, hcompile, hboolean⟩ := compileFeatureGraph_eq_ok hgraph
  obtain ⟨-, hmissing, hfold⟩ := CompiledFeatureGraph.evaluate_eq_ok.mp h
  have hsome : (values.lookup signalCondition).isSome := by
    refine lookup_isSome_of_foldlM hfold ?_
    have hdefined : (available.lookup signalCondition).isSome := by simp [hboolean]
    refine ((isSome_lookup_foldlM_compileNode hcompile).mp hdefined).imp_left fun hsource => ?_
    exact CompiledFeatureGraph.lookup_sources_isSome hmissing (lookup_sources.mp hsource)
  obtain ⟨signal, hsignal⟩ := Option.isSome_iff_exists.mp hsome
  exact ⟨signal, hsignal, replayPrefixes_eq h hsignal⟩

def surge : CompiledFeatureGraph ℚ where
  sourceColumns := ["volume"]
  nodes :=
    [{ featureId := "ratio", operator := .rollingRatio, inputs := ["volume"],
       windowParameter := some "window" },
     { featureId := "signal", operator := .greaterEqual, inputs := ["ratio"],
       constant := some 2 }]
  signalCondition := "signal"

def surgeValues : Mapping (Column ℚ) :=
  [("signal", [.bool false, .bool false, .bool true, .bool true, .bool false]),
   ("ratio", [.none, .none, .num 3, .num 2, .num (2 / 7)]),
   ("volume", [.num 1, .num 1, .num 3, .num 4, .num 1])]

theorem evaluate_never_looks_ahead_surge :
    (∀ n, 1 ≤ n →
      surge.evaluate (truncate n [("volume", [1, 1, 3, 4, 1])]) [("window", 2)] 60 =
        .ok (truncate n surgeValues)) ∧
    ∃ signal, surgeValues.lookup surge.signalCondition = some signal ∧
      replayPrefixes surge [("volume", [1, 1, 3, 4, 1])] [("window", 2)] 60 = .ok signal := by
  have hgraph : compileFeatureGraph surge.sourceColumns surge.nodes surge.signalCondition
      ["window"] = .ok surge := rfl
  exact evaluate_never_looks_ahead hgraph _ _ _ _ (by decide +kernel)

end ChainQuantStudio.Backtesting.Dsl
