import ChainQuantStudio.Backtesting.DslCausality
import Mathlib.Tactic.NormNum

/-!
# A compiled graph evaluates

The checks of the compiler are the assumptions of the evaluator: over columns of one length, with
a value for each parameter and windows of whole bars, every node of a compiled graph gets a column
of the kind the compiler gave it.
-/

namespace ChainQuantStudio.Backtesting.Dsl

open Columns FloatArith

variable {F : Type} [FloatArith F]

/-- The entries a column of a kind may hold. -/
def Kind.Admits : Kind → Scalar F → Prop
  | .boolean, .bool _ => True
  | .numeric, .none => True
  | .numeric, .num _ => True
  | _, _ => False

section
omit [FloatArith F]

@[simp] theorem Kind.numeric_admits_none : Kind.numeric.Admits (.none : Scalar F) := trivial

@[simp] theorem Kind.numeric_admits_num (value : F) : Kind.numeric.Admits (.num value) := trivial

@[simp] theorem Kind.boolean_admits_bool (value : Bool) :
    Kind.boolean.Admits (.bool value : Scalar F) := trivial

theorem item_eq_ok {α : Type} {l : List α} {index : ℕ} (h : index < l.length) :
    item l index = .ok l[index] := by
  rw [item, List.getElem?_eq_getElem h]

end

theorem ok_bind {ε α β : Type} (a : α) (f : α → Except ε β) : ((.ok a : Except ε α) >>= f) = f a :=
  rfl

omit [FloatArith F] in
theorem length_filterMap_id {α : Type} {l : List (Option α)} (h : ∀ value ∈ l, value ≠ none) :
    (l.filterMap id).length = l.length := by
  induction l with
  | nil => rfl
  | cons value l ih =>
    cases value with
    | none => exact absurd rfl (h none (by simp))
    | some value => simpa using ih fun other hother => h other (by simp [hother])

theorem length_sorted (values : List F) : (sorted values).length = values.length :=
  List.length_insertionSort _ _

theorem exists_middle {values : List F} {bars : ℕ} (hlength : values.length = bars)
    (hbars : 1 ≤ bars) : ∃ value, middle values bars = .ok value := by
  unfold middle
  have hhigh : bars / 2 < values.length := by omega
  have hlow : bars / 2 - 1 < values.length := by omega
  split_ifs with hodd
  · exact ⟨_, item_eq_ok hhigh⟩
  · rw [item_eq_ok hhigh, item_eq_ok hlow]
    exact ⟨_, rfl⟩

theorem exists_guarded (a : F) {guard b : F} (h : isZero guard = false → isZero b = false) :
    ∃ value, (if isZero guard then .ok .none else do return .num (← divide a b) :
      Except EvalError (Scalar F)) = .ok value ∧ Kind.numeric.Admits value := by
  by_cases hzero : isZero guard = true
  · exact ⟨.none, if_pos hzero, trivial⟩
  · have hb : isZero b = false := h (by simpa using hzero)
    refine ⟨.num (div a b), ?_, trivial⟩
    rw [if_neg hzero, divide, hb]
    rfl

theorem exists_robustZscore [LawfulFloatArith F] {clean : List F} {bars : ℕ}
    (hlength : clean.length = bars) (hbars : 1 ≤ bars) (current : Option F) :
    ∃ value, robustZscore clean bars current = .ok value ∧ Kind.numeric.Admits value := by
  unfold robustZscore
  have hsorted : (sorted clean).length = bars := by rw [length_sorted, hlength]
  obtain ⟨median, hmedian⟩ := exists_middle hsorted hbars
  have hdeviations :
      (sorted (clean.map fun value => FloatArith.abs (sub value median))).length = bars := by
    rw [length_sorted, List.length_map, hlength]
  obtain ⟨mad, hmad⟩ := exists_middle hdeviations hbars
  simp only [hmedian, hmad, ok_bind]
  cases current with
  | none => exact ⟨.none, rfl, trivial⟩
  | some current => exact exists_guarded _ (LawfulFloatArith.isZero_scale mad)

theorem exists_windowStatistic [LawfulFloatArith F] (operator : FeatureOperator)
    {clean : List F} {bars : ℕ} (hlength : clean.length = bars) (hbars : 1 ≤ bars)
    (current : Option F) :
    ∃ value, windowStatistic operator clean bars current = .ok value ∧
      Kind.numeric.Admits value := by
  unfold windowStatistic
  by_cases hchange : operator = .pctChange
  · rw [if_pos hchange, item_eq_ok (by omega), ok_bind]
    cases current with
    | none => exact ⟨.none, rfl, trivial⟩
    | some current => exact exists_guarded _ id
  · have hne : (bars : ℤ) ≠ 0 := by omega
    rw [if_neg hchange, divideInt, if_neg hne, ok_bind]
    by_cases hmean : operator = .rollingMean
    · exact ⟨.num _, if_pos hmean, trivial⟩
    rw [if_neg hmean]
    by_cases hratio : operator = .rollingRatio
    · rw [if_pos hratio]
      cases current with
      | none => exact ⟨.none, rfl, trivial⟩
      | some current => exact exists_guarded _ id
    · rw [if_neg hratio]
      exact exists_robustZscore hlength hbars current

theorem exists_windowedAt [LawfulFloatArith F] (operator : FeatureOperator) (source : Column F)
    {bars : ℕ} (hbars : 1 ≤ bars) (row : Scalar F × ℕ) :
    ∃ value, windowedAt operator source bars row = .ok value ∧ Kind.numeric.Admits value := by
  obtain ⟨current, index⟩ := row
  simp only [windowedAt]
  split_ifs with hgap
  · exact ⟨.none, rfl, trivial⟩
  · rw [not_or, not_not] at hgap
    refine exists_windowStatistic operator ?_ hbars (numeric current)
    rw [length_filterMap_id, hgap.1]
    intro value hvalue hnone
    exact hgap.2 (List.any_eq_true.mpr ⟨value, hvalue, by simp [hnone]⟩)

theorem exists_windowed [LawfulFloatArith F] (operator : FeatureOperator) (source : Column F)
    {bars : ℕ} (hbars : 1 ≤ bars) :
    ∃ column, windowed operator source bars = .ok column ∧
      ∀ value ∈ column, Kind.numeric.Admits value :=
  exists_mapM_ok fun row _ => exists_windowedAt operator source hbars row

/-- The hours of a window are a positive whole number of bars. -/
def WholeBars (hours : F) (minutes : ℤ) : Prop :=
  le hours (ofRat 0) = false ∧
    ∃ bars : ℤ, 1 ≤ bars ∧
      FloatArith.round (div (mul hours (ofRat 60)) (ofRat minutes)) = some bars ∧
      isClose (div (mul hours (ofRat 60)) (ofRat minutes)) (ofRat bars) = true

theorem exists_windowBars {node : FeatureNode F} {parameters : Mapping F} {minutes : ℤ}
    {parameter : String} {hours : F} (hnode : node.windowParameter = some parameter)
    (hparameter : parameters.lookup parameter = some hours) (hminutes : 0 < minutes)
    (hwhole : WholeBars hours minutes) :
    ∃ bars, windowBars node parameters minutes = .ok bars := by
  obtain ⟨hpositive, bars, hbars, hround, hclose⟩ := hwhole
  refine ⟨bars.toNat, ?_⟩
  have hlt : ¬ bars < 1 := by omega
  simp [windowBars, hnode, find, hparameter, ok_bind, divideInt, hminutes.ne', hround, hpositive,
    hclose, hlt]

theorem one_le_of_windowBars {node : FeatureNode F} {parameters : Mapping F} {minutes : ℤ}
    {bars : ℕ} (h : windowBars node parameters minutes = .ok bars) : 1 ≤ bars := by
  unfold windowBars at h
  cases hnode : node.windowParameter with
  | none => simp [hnode] at h
  | some parameter =>
    simp only [hnode] at h
    obtain ⟨hours, -, hrest⟩ := bind_eq_ok.mp h
    obtain ⟨raw, -, hround⟩ := bind_eq_ok.mp hrest
    cases hr : FloatArith.round raw with
    | none => simp [hr] at hround
    | some whole =>
      simp only [hr] at hround
      split_ifs at hround with hbad
      obtain rfl := Except.ok.inj hround
      have hone : ¬ whole < 1 := fun hlt => hbad (by simp [hlt])
      omega

omit [FloatArith F] in
theorem exists_extremum (better : F → F → Bool) {values : List F} (h : values ≠ []) :
    ∃ value, extremum better values = .ok value := by
  cases values with
  | nil => exact absurd rfl h
  | cons first rest => exact ⟨_, rfl⟩

omit [FloatArith F] in
theorem exists_row {inputs : List (Column F)} {size index : ℕ}
    (hsize : ∀ input ∈ inputs, input.length = size) (hindex : index < size) :
    ∃ row, inputs.mapM (fun column => item column index) = .ok row := by
  have hitem : ∀ column ∈ inputs, ∃ value, item column index = .ok value ∧ True := by
    intro column hcolumn
    exact ⟨_, item_eq_ok (by rw [hsize column hcolumn]; exact hindex), trivial⟩
  obtain ⟨row, hrow, -⟩ := exists_mapM_ok hitem
  exact ⟨row, hrow⟩

theorem exists_combineAt (operator : FeatureOperator) {inputs : List (Column F)}
    {size index : ℕ} (hne : inputs ≠ []) (hsize : ∀ input ∈ inputs, input.length = size)
    (hindex : index < size) :
    ∃ value, combineAt operator inputs index = .ok value ∧ Kind.numeric.Admits value := by
  obtain ⟨row, hrow⟩ := exists_row hsize hindex
  have hlength := length_of_mapM hrow
  rw [combineAt, hrow, ok_bind]
  by_cases hgap : (row.filterMap numeric).length ≠ row.length
  · exact ⟨.none, if_pos hgap, trivial⟩
  · rw [if_neg hgap]
    have hnumeric : row.filterMap numeric ≠ [] := by
      rw [not_not] at hgap
      rw [← List.length_pos_iff, hgap, hlength, List.length_pos_iff]
      exact hne
    split_ifs with hminimum
    · obtain ⟨value, hvalue⟩ := exists_extremum lt hnumeric
      exact ⟨.num value, by rw [hvalue]; rfl, trivial⟩
    · obtain ⟨value, hvalue⟩ := exists_extremum (fun value best => lt best value) hnumeric
      exact ⟨.num value, by rw [hvalue]; rfl, trivial⟩

theorem exists_quantifyAt (stop : Bool) {inputs : List (Column F)} {size index : ℕ}
    (hsize : ∀ input ∈ inputs, input.length = size) (hindex : index < size) :
    ∃ value, quantifyAt stop index inputs = .ok value := by
  induction inputs with
  | nil => exact ⟨_, rfl⟩
  | cons column columns ih =>
    have hcolumn : index < column.length := by
      rw [hsize column (by simp)]
      exact hindex
    rw [quantifyAt, item_eq_ok hcolumn, ok_bind]
    split_ifs with hstop
    · exact ⟨_, rfl⟩
    · exact ih fun input hinput => hsize input (by simp [hinput])

theorem boolean_admits_compare (operator : FeatureOperator) (threshold : F) (value : Scalar F) :
    Kind.boolean.Admits (compare operator threshold value) := by
  rw [compare]
  cases numeric value <;> trivial

theorem numeric_admits_transform (operator : FeatureOperator) (value : Scalar F) :
    Kind.numeric.Admits (transform operator value) := by
  rw [transform]
  cases numeric value with
  | none => trivial
  | some value =>
    simp only
    split_ifs <;> trivial

omit [FloatArith F] in
theorem windowParameter_of_validateNode {node : FeatureNode F} {parameterIds : List String}
    (h : validateNode node parameterIds = .ok ()) (hwindowed : node.operator.windowed = true) :
    ∃ parameter ∈ parameterIds, node.windowParameter = some parameter := by
  obtain ⟨-, -, hrest⟩ := bind_eq_ok.mp h
  obtain ⟨⟨⟩, hwindow, -⟩ := bind_eq_ok.mp hrest
  simp only [validateWindow, hwindowed, if_true, invalid] at hwindow
  split_ifs at hwindow with hallowed
  cases hparameter : node.windowParameter with
  | none => simp [hparameter] at hallowed
  | some parameter => exact ⟨parameter, by simpa [hparameter] using hallowed, rfl⟩

omit [FloatArith F] in
theorem exists_threshold {node : FeatureNode F} {parameterIds : List String}
    {parameters : Mapping F} (h : validateNode node parameterIds = .ok ())
    (hcomparison : node.operator.comparison = true)
    (hparameters : ∀ parameter ∈ parameterIds, (parameters.lookup parameter).isSome) :
    ∃ value, threshold node parameters = .ok value := by
  obtain ⟨-, -, hrest⟩ := bind_eq_ok.mp h
  obtain ⟨-, -, hthreshold⟩ := bind_eq_ok.mp hrest
  simp only [validateThreshold, hcomparison, if_true, invalid] at hthreshold
  split_ifs at hthreshold with hone hknown
  rw [threshold]
  cases hp : node.thresholdParameter with
  | none =>
    cases hc : node.constant with
    | none => simp [hp, hc] at hone
    | some constant => exact ⟨constant, rfl⟩
  | some parameter =>
    have hmem : parameter ∈ parameterIds := by simpa [hp] using hknown
    obtain ⟨value, hvalue⟩ := Option.isSome_iff_exists.mp (hparameters parameter hmem)
    exact ⟨value, by simp [find, hvalue]⟩

structure Suits (parameters : Mapping F) (parameterIds : List String) (minutes : ℤ)
    (nodes : List (FeatureNode F)) : Prop where
  present : ∀ parameter ∈ parameterIds, (parameters.lookup parameter).isSome
  aligned : ∀ node ∈ nodes, node.operator.windowed = true →
    ∃ bars, windowBars node parameters minutes = .ok bars

theorem Suits.mono {parameters : Mapping F} {parameterIds : List String} {minutes : ℤ}
    {nodes fewer : List (FeatureNode F)} (h : Suits parameters parameterIds minutes nodes)
    (hsub : fewer ⊆ nodes) : Suits parameters parameterIds minutes fewer where
  present := h.present
  aligned node hnode := h.aligned node (hsub hnode)

theorem exists_evaluateNode [LawfulFloatArith F] {node : FeatureNode F}
    {parameterIds : List String} {parameters : Mapping F} {minutes : ℤ}
    {inputs : List (Column F)} {size : ℕ} (h : validateNode node parameterIds = .ok ())
    (hsuits : Suits parameters parameterIds minutes [node]) (hne : inputs ≠ [])
    (hsize : ∀ input ∈ inputs, input.length = size) :
    ∃ column, evaluateNode node inputs parameters minutes = .ok column ∧
      ∀ value ∈ column, (outputKind node).Admits value := by
  obtain ⟨source, others, rfl⟩ := List.exists_cons_of_ne_nil hne
  have hsource : item (source :: others) 0 = .ok source := rfl
  have hlength : source.length = size := hsize source (by simp)
  have hthreshold := fun hcomparison => exists_threshold h hcomparison hsuits.present
  have hrows : ∀ index ∈ List.range source.length, index < size := by
    intro index hindex
    rw [← hlength]
    exact List.mem_range.mp hindex
  rw [evaluateNode, hsource, ok_bind, outputKind]
  cases hop : node.operator
  case rollingMean | rollingRatio | robustZscore | pctChange =>
    obtain ⟨bars, hbars⟩ := hsuits.aligned node (by simp) (by rw [hop]; rfl)
    simp only [hbars, ok_bind]
    exact exists_windowed _ source (one_le_of_windowBars hbars)
  case greaterEqual | lessEqual =>
    obtain ⟨threshold, hvalue⟩ := hthreshold (by rw [hop]; rfl)
    simp only [hvalue, ok_bind]
    refine ⟨_, rfl, ?_⟩
    intro value hvalue
    obtain ⟨entry, -, rfl⟩ := List.mem_map.mp hvalue
    exact boolean_admits_compare _ threshold entry
  case abs | log1p =>
    refine ⟨_, rfl, ?_⟩
    intro value hvalue
    obtain ⟨entry, -, rfl⟩ := List.mem_map.mp hvalue
    exact numeric_admits_transform _ entry
  case minimum | maximum =>
    exact exists_mapM_ok fun index hindex => exists_combineAt _ hne hsize (hrows index hindex)
  case all | any =>
    apply exists_mapM_ok
    intro index hindex
    obtain ⟨value, hvalue⟩ := exists_quantifyAt _ hsize (hrows index hindex)
    exact ⟨.bool value, by rw [hvalue]; rfl, trivial⟩

def Typed (available : Mapping Kind) (size : ℕ) (values : Mapping (Column F)) : Prop :=
  ∀ name kind, available.lookup name = some kind → ∃ column, values.lookup name = some column ∧
    column.length = size ∧ ∀ value ∈ column, kind.Admits value

omit [FloatArith F] in
theorem Typed.exists_inputs {available : Mapping Kind} {size : ℕ} {values : Mapping (Column F)}
    (htyped : Typed available size values) {names : List String} {kind : Kind}
    (hnames : ∀ name ∈ names, available.lookup name = some kind) :
    ∃ inputs, names.mapM (find values) = .ok inputs ∧ ∀ input ∈ inputs, input.length = size := by
  apply exists_mapM_ok
  intro name hname
  obtain ⟨column, hcolumn, hlength, -⟩ := htyped name kind (hnames name hname)
  exact ⟨column, by rw [find, hcolumn], hlength⟩

theorem Typed.evaluateInto [LawfulFloatArith F] {available next : Mapping Kind} {size : ℕ}
    {values : Mapping (Column F)} (htyped : Typed available size values) {node : FeatureNode F}
    {parameterIds : List String} {parameters : Mapping F} {minutes : ℤ}
    (hcompile : compileNode parameterIds available node = .ok next)
    (hsuits : Suits parameters parameterIds minutes [node]) :
    ∃ after, Dsl.evaluateInto parameters minutes values node = .ok after ∧
      Typed next size after := by
  obtain ⟨-, hne, hkinds, hvalid, rfl⟩ := compileNode_eq_ok hcompile
  obtain ⟨inputs, hinputs, hsize⟩ := htyped.exists_inputs hkinds
  have hinputs_ne : inputs ≠ [] := by
    rw [← List.length_pos_iff, length_of_mapM hinputs, List.length_pos_iff]
    exact hne
  obtain ⟨column, hcolumn, hadmits⟩ := exists_evaluateNode hvalid hsuits hinputs_ne hsize
  have hlength := evaluateNode_length hcolumn hsize
  refine ⟨(node.featureId, column) :: values, ?_, ?_⟩
  · rw [Dsl.evaluateInto, hinputs, ok_bind, hcolumn]
    rfl
  · intro name kind hkind
    rw [List.lookup_cons] at hkind ⊢
    cases hid : name == node.featureId with
    | true =>
      simp only [hid, Option.some.injEq] at hkind
      exact ⟨column, rfl, hlength, hkind ▸ hadmits⟩
    | false =>
      simp only [hid] at hkind
      exact htyped name kind hkind

theorem Typed.foldlM_evaluateInto [LawfulFloatArith F] {available after : Mapping Kind} {size : ℕ}
    {values : Mapping (Column F)} (htyped : Typed available size values)
    {nodes : List (FeatureNode F)} {parameterIds : List String} {parameters : Mapping F}
    {minutes : ℤ} (hcompile : nodes.foldlM (compileNode parameterIds) available = .ok after)
    (hsuits : Suits parameters parameterIds minutes nodes) :
    ∃ result, nodes.foldlM (Dsl.evaluateInto parameters minutes) values = .ok result ∧
      Typed after size result := by
  induction nodes generalizing available values with
  | nil =>
    obtain rfl : available = after := Except.ok.inj hcompile
    exact ⟨values, rfl, htyped⟩
  | cons node nodes ih =>
    rw [List.foldlM_cons] at hcompile
    obtain ⟨next, hnext, hrest⟩ := bind_eq_ok.mp hcompile
    obtain ⟨middle, hmiddle, htyped'⟩ := htyped.evaluateInto hnext (hsuits.mono (by simp))
    obtain ⟨result, hresult, hfinal⟩ := ih htyped' hrest (hsuits.mono (by simp))
    refine ⟨result, ?_, hfinal⟩
    rw [List.foldlM_cons, hmiddle, ok_bind, hresult]

omit [FloatArith F] in
theorem typed_sources {graph : CompiledFeatureGraph F} {columns : Mapping (List F)} {size : ℕ}
    (hsize : ∀ entry ∈ columns, entry.2.length = size)
    (hpresent : ∀ name ∈ graph.sourceColumns, (columns.lookup name).isSome) :
    Typed (graph.sourceColumns.map fun source => (source, Kind.numeric)) size
      (graph.sources columns) := by
  intro name kind hkind
  have hname : name ∈ graph.sourceColumns := lookup_sources.mp (by simp [hkind])
  have hmissing := CompiledFeatureGraph.missing_eq_nil_iff.mpr hpresent
  obtain ⟨column, hcolumn⟩ :=
    Option.isSome_iff_exists.mp (CompiledFeatureGraph.lookup_sources_isSome hmissing hname)
  obtain ⟨-, rfl⟩ : name ∈ graph.sourceColumns ∧ .numeric = kind := by
    simpa using mem_of_lookup_eq_some hkind
  obtain ⟨entry, hentry, heq⟩ := List.mem_map.mp (mem_of_lookup_eq_some hcolumn)
  obtain ⟨-, rfl⟩ := Prod.mk.inj heq
  refine ⟨_, hcolumn, ?_, ?_⟩
  · simpa using hsize entry (List.mem_of_mem_filter hentry)
  · intro value hvalue
    obtain ⟨number, -, rfl⟩ := List.mem_map.mp hvalue
    trivial

theorem exists_evaluate [LawfulFloatArith F] {parameterIds : List String}
    {graph : CompiledFeatureGraph F} {kinds : Mapping Kind}
    (hkinds : graph.nodes.foldlM (compileNode parameterIds)
      (graph.sourceColumns.map fun source => (source, Kind.numeric)) = .ok kinds)
    (hsources : graph.sourceColumns ≠ [])
    {columns : Mapping (List F)} {size : ℕ} (hsize : ∀ entry ∈ columns, entry.2.length = size)
    (hpresent : ∀ name ∈ graph.sourceColumns, (columns.lookup name).isSome)
    {parameters : Mapping F} {minutes : ℤ}
    (hsuits : Suits parameters parameterIds minutes graph.nodes) :
    ∃ values, graph.evaluate columns parameters minutes = .ok values ∧ Typed kinds size values := by
  have hne : columns ≠ [] := by
    obtain ⟨name, hname⟩ := List.exists_mem_of_ne_nil _ hsources
    rintro rfl
    simpa using hpresent name hname
  obtain ⟨values, hvalues, htyped⟩ :=
    (typed_sources hsize hpresent).foldlM_evaluateInto hkinds hsuits
  refine ⟨values, ?_, htyped⟩
  exact CompiledFeatureGraph.evaluate_eq_ok.mpr ⟨⟨size, hne, hsize⟩,
    CompiledFeatureGraph.missing_eq_nil_iff.mpr hpresent, hvalues⟩

omit [FloatArith F] in
theorem validateNode_of_foldlM {parameterIds : List String} {nodes : List (FeatureNode F)}
    {available after : Mapping Kind}
    (h : nodes.foldlM (compileNode parameterIds) available = .ok after) :
    ∀ node ∈ nodes, validateNode node parameterIds = .ok () := by
  induction nodes generalizing available with
  | nil => simp
  | cons node nodes ih =>
    rw [List.foldlM_cons] at h
    obtain ⟨next, hnext, hrest⟩ := bind_eq_ok.mp h
    obtain ⟨-, -, -, hvalid, -⟩ := compileNode_eq_ok hnext
    rintro other (_ | ⟨_, hother⟩)
    · exact hvalid
    · exact ih hrest other hother

theorem suits_of_wholeBars {parameterIds : List String} {nodes : List (FeatureNode F)}
    {available after : Mapping Kind}
    (hcompile : nodes.foldlM (compileNode parameterIds) available = .ok after)
    {parameters : Mapping F} {minutes : ℤ} (hminutes : 0 < minutes)
    (hpresent : ∀ parameter ∈ parameterIds, (parameters.lookup parameter).isSome)
    (hwhole : ∀ node ∈ nodes, ∀ parameter, node.windowParameter = some parameter →
      ∀ hours, parameters.lookup parameter = some hours → WholeBars hours minutes) :
    Suits parameters parameterIds minutes nodes where
  present := hpresent
  aligned := by
    intro node hnode hwindowed
    obtain ⟨parameter, hmem, hparameter⟩ :=
      windowParameter_of_validateNode (validateNode_of_foldlM hcompile node hnode) hwindowed
    obtain ⟨hours, hhours⟩ := Option.isSome_iff_exists.mp (hpresent parameter hmem)
    exact exists_windowBars hparameter hhours hminutes
      (hwhole node hnode parameter hparameter hours hhours)

/-- A graph the compiler accepts evaluates on every data it is meant for, and each node has a
column of the kind the compiler recorded for it. -/
theorem evaluate_of_compile [LawfulFloatArith F] {sourceColumns parameterIds : List String}
    {nodes : List (FeatureNode F)} {signalCondition : String} {graph : CompiledFeatureGraph F}
    (hgraph : compileFeatureGraph sourceColumns nodes signalCondition parameterIds = .ok graph)
    {columns : Mapping (List F)} {size : ℕ}
    (hsize : ∀ entry ∈ columns, entry.2.length = size)
    (hpresent : ∀ name ∈ sourceColumns, (columns.lookup name).isSome)
    {parameters : Mapping F} {minutes : ℤ} (hminutes : 0 < minutes)
    (hparameters : ∀ parameter ∈ parameterIds, (parameters.lookup parameter).isSome)
    (hwhole : ∀ node ∈ nodes, ∀ parameter, node.windowParameter = some parameter →
      ∀ hours, parameters.lookup parameter = some hours → WholeBars hours minutes) :
    ∃ kinds values,
      nodes.foldlM (compileNode parameterIds)
        (sourceColumns.map fun source => (source, Kind.numeric)) = .ok kinds ∧
      graph.evaluate columns parameters minutes = .ok values ∧
      ∀ node ∈ nodes, ∃ kind column, kinds.lookup node.featureId = some kind ∧
        values.lookup node.featureId = some column ∧ column.length = size ∧
        ∀ value ∈ column, kind.Admits value := by
  obtain ⟨hgraph, ⟨hsources, -⟩, kinds, hkinds, -⟩ := compileFeatureGraph_eq_ok hgraph
  obtain rfl : graph.sourceColumns = sourceColumns := by rw [hgraph]
  obtain rfl : graph.nodes = nodes := by rw [hgraph]
  have hsuits := suits_of_wholeBars hkinds hminutes hparameters hwhole
  obtain ⟨values, hvalues, htyped⟩ := exists_evaluate hkinds hsources hsize hpresent hsuits
  refine ⟨kinds, values, hkinds, hvalues, fun node hnode => ?_⟩
  have hknown : (kinds.lookup node.featureId).isSome :=
    (isSome_lookup_foldlM_compileNode hkinds).mpr (Or.inr (List.mem_map_of_mem hnode))
  obtain ⟨kind, hkind⟩ := Option.isSome_iff_exists.mp hknown
  obtain ⟨column, hcolumn, hlength, hadmits⟩ := htyped _ _ hkind
  exact ⟨kind, column, hkind, hcolumn, hlength, hadmits⟩

theorem surge_wholeBars : ∀ node ∈ surge.nodes, ∀ parameter,
    node.windowParameter = some parameter →
    ∀ hours, List.lookup parameter [("window", (2 : ℚ))] = some hours → WholeBars hours 60 := by
  intro node hnode parameter hparameter hours hhours
  obtain rfl : parameter = "window" := by
    simp only [surge, List.mem_cons, List.not_mem_nil, or_false] at hnode
    rcases hnode with rfl | rfl
    · simpa using hparameter.symm
    · simp at hparameter
  obtain rfl : 2 = hours := by simpa using hhours
  exact ⟨by decide +kernel, 2, by norm_num, by decide +kernel, by decide +kernel⟩

theorem evaluate_of_compile_surge :
    ∃ kinds values,
      surge.nodes.foldlM (compileNode ["window"])
        (surge.sourceColumns.map fun source => (source, Kind.numeric)) = .ok kinds ∧
      surge.evaluate [("volume", [1, 1, 3, 4, 1])] [("window", 2)] 60 = .ok values ∧
      ∀ node ∈ surge.nodes, ∃ kind column, kinds.lookup node.featureId = some kind ∧
        values.lookup node.featureId = some column ∧ column.length = 5 ∧
        ∀ value ∈ column, kind.Admits value := by
  have hgraph : compileFeatureGraph surge.sourceColumns surge.nodes surge.signalCondition
      ["window"] = .ok surge := rfl
  exact evaluate_of_compile hgraph (by simp) (by simp [surge]) (by norm_num) (by simp)
    surge_wholeBars

end ChainQuantStudio.Backtesting.Dsl
