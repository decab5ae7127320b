import ChainQuantStudio.Backtesting.DatasetLoading
import ChainQuantStudio.Backtesting.MoveLabels

/-!
# Selection and the holdout

Two catalogs that agree on every row before the chronological split give the same selection as long
as the labels of the rows before the split agree: features, onsets and cooldowns look back only.
-/

namespace ChainQuantStudio.Backtesting

open Columns Dsl FloatArith

variable {F : Type} [FloatArith F] {spec : GenericBacktestSpec F}

theorem onsetFrom_take (previous : Bool) (values : Column F) (n : ℕ) :
    onsetFrom previous (values.take n) = (onsetFrom previous values).take n := by
  induction values generalizing previous n with
  | nil => simp [onsetFrom]
  | cons value values ih =>
    cases n with
    | zero => rfl
    | succ n => simp only [List.take_succ_cons, onsetFrom, ih]

theorem length_onset (values : Column F) : (onset values).length = values.length := by
  suffices h : ∀ previous, (onsetFrom previous values).length = values.length from h false
  intro previous
  induction values generalizing previous with
  | nil => rfl
  | cons value values ih => simp [onsetFrom, ih]

theorem cooldownFrom_take (cooldownBars last index : ℤ) (signal : List Bool) (n : ℕ) :
    cooldownFrom cooldownBars last index (signal.take n) =
      (cooldownFrom cooldownBars last index signal).take n := by
  induction signal generalizing last index n with
  | nil => simp [cooldownFrom]
  | cons value signal ih =>
    cases n with
    | zero => rfl
    | succ n => simp only [List.take_succ_cons, cooldownFrom, ih]

theorem length_cooldownFrom (cooldownBars last index : ℤ) (signal : List Bool) :
    (cooldownFrom cooldownBars last index signal).length = signal.length := by
  induction signal generalizing last index with
  | nil => rfl
  | cons value signal ih => simp [cooldownFrom, ih]

theorem applyCooldown_length {signal kept : List Bool} {cooldownSeconds candleSeconds : ℤ}
    (h : applyCooldown F signal cooldownSeconds candleSeconds = .ok kept) :
    kept.length = signal.length := by
  unfold applyCooldown at h
  split_ifs at h
  · rw [Except.ok.inj h]
  · split at h
    · cases h
    · rw [← Except.ok.inj h, length_cooldownFrom]

theorem applyCooldown_agree {signal other kept : List Bool} {cooldownSeconds candleSeconds : ℤ}
    {n : ℕ} (hagree : other.take n = signal.take n)
    (h : applyCooldown F signal cooldownSeconds candleSeconds = .ok kept) :
    ∃ kept', applyCooldown F other cooldownSeconds candleSeconds = .ok kept' ∧
      kept'.take n = kept.take n := by
  unfold applyCooldown at h ⊢
  split_ifs at h ⊢
  · exact ⟨other, rfl, by rw [hagree, Except.ok.inj h]⟩
  · cases hceil : FloatArith.ceil (ofRat (cooldownSeconds / candleSeconds) : F) with
    | none => simp [hceil] at h
    | some cooldownBars =>
      simp only [hceil, Except.ok.injEq] at h
      refine ⟨_, rfl, ?_⟩
      rw [← h, ← cooldownFrom_take, hagree, cooldownFrom_take]

theorem exists_evaluateNode_of_foldlM {parameters : Mapping F} {minutes : ℤ}
    {nodes : List (FeatureNode F)} {values after : Mapping (Column F)}
    (h : nodes.foldlM (evaluateInto parameters minutes) values = .ok after) :
    ∀ node ∈ nodes, ∃ inputs column, evaluateNode node inputs parameters minutes = .ok column := by
  induction nodes generalizing values with
  | nil => simp
  | cons node nodes ih =>
    rw [List.foldlM_cons] at h
    obtain ⟨next, hnext, hrest⟩ := bind_eq_ok.mp h
    obtain ⟨inputs, -, hcolumn⟩ := bind_eq_ok.mp hnext
    obtain ⟨column, hnode, -⟩ := bind_eq_ok.mp hcolumn
    rintro other (_ | ⟨_, hother⟩)
    · exact ⟨inputs, column, hnode⟩
    · exact ih hrest other hother

theorem exists_windowBars_of_evaluateNode {node : FeatureNode F} {inputs : List (Column F)}
    {parameters : Mapping F} {minutes : ℤ} {column : Column F}
    (h : evaluateNode node inputs parameters minutes = .ok column)
    (hwindowed : node.operator.windowed = true) :
    ∃ bars, windowBars node parameters minutes = .ok bars := by
  obtain ⟨source, -, hnode⟩ := bind_eq_ok.mp h
  cases hop : node.operator <;> simp only [hop, FeatureOperator.windowed] at hwindowed hnode
  case rollingMean | rollingRatio | robustZscore | pctChange =>
    obtain ⟨bars, hbars, -⟩ := bind_eq_ok.mp hnode
    exact ⟨bars, hbars⟩
  all_goals cases hwindowed

theorem length_of_mem_product {α : Type} {lists : List (List α)} :
    ∀ values ∈ product lists, values.length = lists.length := by
  induction lists with
  | nil => simp [product]
  | cons first lists ih =>
    intro values hvalues
    obtain ⟨value, -, hrest⟩ := List.mem_flatMap.mp hvalues
    obtain ⟨rest, hmem, rfl⟩ := List.mem_map.mp hrest
    simp [ih rest hmem]

omit [FloatArith F] in
theorem isSome_lookup_zip {names : List String} {values : List F}
    (hlength : values.length = names.length) {name : String} (hname : name ∈ names) :
    ((names.zip values).lookup name).isSome := by
  obtain ⟨i, hi, rfl⟩ := List.getElem_of_mem hname
  have hmem : (names[i], values[i]) ∈ names.zip values :=
    List.mem_iff_getElem.mpr ⟨i, by simp [hlength, hi], by simp⟩
  exact isSome_lookup_of_mem hmem

theorem present_of_mem_grids {parameters : Mapping F} (h : parameters ∈ grids spec) :
    ∀ parameter ∈ spec.parameterIds, (parameters.lookup parameter).isSome := by
  obtain ⟨values, hvalues, rfl⟩ := List.mem_map.mp h
  intro parameter hparameter
  apply isSome_lookup_zip ?_ hparameter
  rw [length_of_mem_product values hvalues, List.length_map, GenericFields.parameterIds,
    List.length_map]

theorem evaluate_transfer [LawfulFloatArith F] {one other : Dataset F} {parameters : Mapping F}
    {minutes : ℤ} {values : Mapping (Column F)} (hother : other.Aligned spec)
    (hparameters : ∀ parameter ∈ spec.parameterIds, (parameters.lookup parameter).isSome)
    (h : spec.graph.evaluate one.columns parameters minutes = .ok values) :
    ∃ values', spec.graph.evaluate other.columns parameters minutes = .ok values' := by
  obtain ⟨hgraph, ⟨hsources, -⟩, kinds, hkinds, -⟩ := compileFeatureGraph_eq_ok spec.compileGraph_eq
  have hnames : spec.graph.sourceColumns = spec.data.sourceColumns := by rw [hgraph]
  have hnodes : spec.graph.nodes = spec.features := by rw [hgraph]
  obtain ⟨-, -, hfold⟩ := CompiledFeatureGraph.evaluate_eq_ok.mp h
  have hsuits : Suits parameters spec.parameterIds minutes spec.graph.nodes :=
    { present := hparameters
      aligned := by
        intro node hnode hwindowed
        obtain ⟨inputs, column, hcolumn⟩ := exists_evaluateNode_of_foldlM hfold node hnode
        exact exists_windowBars_of_evaluateNode hcolumn hwindowed }
  rw [← hnodes, ← hnames] at hkinds
  rw [← hnames] at hsources
  have hpresent : ∀ name ∈ spec.graph.sourceColumns, (other.columns.lookup name).isSome := by
    intro name hname
    rw [hnames, ← hother.names] at hname
    obtain ⟨entry, hentry, rfl⟩ := List.mem_map.mp hname
    exact isSome_lookup_of_mem hentry
  obtain ⟨values', hvalues', -⟩ := exists_evaluate hkinds hsources hother.sizes hpresent hsuits
  exact ⟨values', hvalues'⟩

structure Dataset.AgreeBefore (split : ℕ) (one other : Dataset F) : Prop where
  timestamps : other.timestamps = one.timestamps
  columns : truncate split other.columns = truncate split one.columns

def LabelsAgree (spec : GenericBacktestSpec F) (candleSeconds : ℤ) (split : ℕ)
    (one other : Dataset F) : Prop :=
  ∀ labels, futureAbsoluteMoveLabels spec one candleSeconds = .ok labels →
    ∃ labels', futureAbsoluteMoveLabels spec other candleSeconds = .ok labels' ∧
      labels'.take split = labels.take split ∧ labels'.length = other.timestamps.length

theorem length_of_evaluate {dataset : Dataset F} (hdataset : dataset.Aligned spec)
    {graph : CompiledFeatureGraph F} {parameters : Mapping F} {minutes : ℤ}
    {values : Mapping (Column F)}
    (h : graph.evaluate dataset.columns parameters minutes = .ok values) {name : String}
    {column : Column F} (hcolumn : values.lookup name = some column) :
    column.length = dataset.timestamps.length := by
  obtain ⟨-, -, hfold⟩ := CompiledFeatureGraph.evaluate_eq_ok.mp h
  refine foldlM_evaluateInto_length hfold ?_ _ (mem_of_lookup_eq_some hcolumn)
  intro entry hentry
  obtain ⟨whole, hwhole, rfl⟩ := List.mem_map.mp hentry
  simpa using hdataset.sizes whole (List.mem_of_mem_filter hwhole)

theorem condition_transfer [LawfulFloatArith F] {one other : Dataset F} {split : ℕ}
    {parameters : Mapping F} {minutes : ℤ} {values : Mapping (Column F)} {condition : Column F}
    (hother : other.Aligned spec) (hagree : Dataset.AgreeBefore split one other)
    (hparameters : ∀ parameter ∈ spec.parameterIds, (parameters.lookup parameter).isSome)
    (h : spec.graph.evaluate one.columns parameters minutes = .ok values)
    (hcondition : values.lookup spec.graph.signalCondition = some condition) :
    ∃ values' condition', spec.graph.evaluate other.columns parameters minutes = .ok values' ∧
      values'.lookup spec.graph.signalCondition = some condition' ∧
      condition'.take split = condition.take split := by
  obtain ⟨values', hvalues'⟩ := evaluate_transfer hother hparameters h
  have htake := CompiledFeatureGraph.evaluate_truncate h split
  have htake' := CompiledFeatureGraph.evaluate_truncate hvalues' split
  rw [hagree.columns, htake] at htake'
  have hlookup := congrArg (fun m => List.lookup spec.graph.signalCondition m)
    (Except.ok.inj htake')
  simp only [lookup_truncate, hcondition, Option.map_some] at hlookup
  obtain ⟨condition', hcondition', heq⟩ := Option.map_eq_some_iff.mp hlookup.symm
  exact ⟨values', condition', hvalues', hcondition', heq⟩

theorem partsOf_transfer [LawfulFloatArith F] {one other : Dataset F} {split : ℕ}
    {candleSeconds : ℤ} {parameters : Mapping F} {parts : Part × Part}
    (hone : one.Aligned spec) (hother : other.Aligned spec)
    (hagree : Dataset.AgreeBefore split one other)
    (hsplit : splitIndex spec one.timestamps.length = .ok split)
    (hlabels : LabelsAgree spec candleSeconds split one other)
    (hparameters : ∀ parameter ∈ spec.parameterIds, (parameters.lookup parameter).isSome)
    (h : partsOf spec candleSeconds parameters one = .ok parts) :
    ∃ parts', partsOf spec candleSeconds parameters other = .ok parts' ∧
      parts'.1 = parts.1 ∧ parts'.2.1.length = parts'.2.2.length := by
  obtain ⟨values, condition, signal, labels, cut, hvalues, hcondition, hsignal, hlabel, hcut,
    rfl⟩ := partsOf_eq_ok.mp h
  obtain ⟨values', condition', hvalues', hcondition', htake⟩ :=
    condition_transfer hother hagree hparameters hvalues hcondition
  have honset : (onset condition').take split = (onset condition).take split := by
    rw [onset, onset, ← onsetFrom_take, htake, onsetFrom_take]
  obtain ⟨signal', hsignal', hkept⟩ := applyCooldown_agree honset hsignal
  obtain ⟨labels', hlabel', hlabels, hlength⟩ := hlabels labels hlabel
  have hrows : signal.length = one.timestamps.length := by
    rw [applyCooldown_length hsignal, length_onset, length_of_evaluate hone hvalues hcondition]
  have hrows' : signal'.length = other.timestamps.length := by
    rw [applyCooldown_length hsignal', length_onset, length_of_evaluate hother hvalues' hcondition']
  rw [hrows, hsplit] at hcut
  obtain rfl := Except.ok.inj hcut
  have hcut' : splitIndex spec signal'.length = .ok split := by
    rw [hrows', hagree.timestamps, hsplit]
  refine ⟨((signal'.take split, labels'.take split), (signal'.drop split, labels'.drop split)),
    ?_, ?_, ?_⟩
  · exact partsOf_eq_ok.mpr ⟨values', condition', signal', labels', split, hvalues', hcondition',
      hsignal', hlabel', hcut', rfl⟩
  · rw [hkept, hlabels]
  · simp only [List.length_drop, hrows', hlength]

theorem exists_metrics {parts : List Part} (candleSeconds : ℤ)
    (hlength : ∀ part ∈ parts, part.1.length = part.2.length) :
    ∃ m : MetricSet F, metrics parts candleSeconds = .ok m := by
  suffices h : ∀ tally : Tally, ∃ after, parts.foldlM Tally.part tally = .ok after by
    obtain ⟨after, hafter⟩ := h {}
    exact ⟨_, bind_eq_ok.mpr ⟨after, hafter, rfl⟩⟩
  induction parts with
  | nil => exact fun tally => ⟨tally, rfl⟩
  | cons part parts ih =>
    intro tally
    have hpart : ∃ next, Tally.part tally part = .ok next :=
      ⟨_, if_neg (not_not.mpr (hlength part (by simp)))⟩
    obtain ⟨next, hnext⟩ := hpart
    obtain ⟨after, hafter⟩ := ih (fun other hother => hlength other (by simp [hother])) next
    exact ⟨after, by rw [List.foldlM_cons, hnext, ok_bind, hafter]⟩

def Candidate.blind (candidate : Candidate F) : F × Mapping F × MetricSet F :=
  (candidate.score, candidate.parameters, candidate.selection)

theorem candidateOf_transfer {spec : GenericBacktestSpec F} {candleSeconds : ℤ}
    {datasets others : List (Dataset F)} {parameters : Mapping F}
    {candidate : Option (Candidate F)}
    (hparts : List.Forall₂ (fun one other => ∀ parts,
      partsOf spec candleSeconds parameters one = .ok parts →
      ∃ parts', partsOf spec candleSeconds parameters other = .ok parts' ∧
        parts'.1 = parts.1 ∧ parts'.2.1.length = parts'.2.2.length) datasets others)
    (h : candidateOf spec candleSeconds datasets parameters = .ok candidate) :
    ∃ candidate', candidateOf spec candleSeconds others parameters = .ok candidate' ∧
      candidate'.map Candidate.blind = candidate.map Candidate.blind := by
  obtain ⟨parts, selection, holdout, hmap, hselection, -, rfl⟩ := candidateOf_eq_ok.mp h
  obtain ⟨parts', hmap', hrelated⟩ :=
    mapM_transfer hparts (fun one other part hpart hone => hpart part hone) hmap
  have hfirst : parts'.map Prod.fst = parts.map Prod.fst := by
    symm
    rw [← List.forall₂_eq_eq_eq, List.forall₂_map_left_iff, List.forall₂_map_right_iff]
    exact hrelated.imp fun _ _ hpart => hpart.1.symm
  obtain ⟨holdout', hholdout'⟩ : ∃ m : MetricSet F,
      metrics (parts'.map Prod.snd) candleSeconds = .ok m := by
    apply exists_metrics
    intro part hpart
    obtain ⟨pair, hpair, rfl⟩ := List.mem_map.mp hpart
    obtain ⟨_, -, -, hlength⟩ := exists_of_forall₂_right hrelated hpair
    exact hlength
  refine ⟨_, candidateOf_eq_ok.mpr ⟨parts', selection, holdout', hmap', hfirst ▸ hselection,
    hholdout', rfl⟩, ?_⟩
  split_ifs <;> rfl

omit [FloatArith F] in
theorem firstMax_map {α β : Type} (greater : β → β → Bool) (f : α → β) (entries : List α) :
    firstMax greater (entries.map f) =
      (firstMax (fun a b => greater (f a) (f b)) entries).map f := by
  cases entries with
  | nil => rfl
  | cons first rest =>
    simp only [List.map_cons, firstMax, Option.map_some, Option.some.injEq]
    induction rest generalizing first with
    | nil => rfl
    | cons entry rest ih =>
      rw [List.map_cons, List.foldl_cons, List.foldl_cons, ← apply_ite f]
      exact ih _

theorem choose_blind (candidates : List (Candidate F)) :
    (choose candidates).map Candidate.blind =
      firstMax (fun a b => outranks a.1 a.2.2 b.1 b.2.2) (candidates.map Candidate.blind) := by
  rw [firstMax_map]
  rfl

theorem choose_transfer {candidates others : List (Option (Candidate F))}
    (h : List.Forall₂ (fun one other : Option (Candidate F) =>
      other.map Candidate.blind = one.map Candidate.blind) candidates others) :
    (choose (others.filterMap id)).map Candidate.blind =
      (choose (candidates.filterMap id)).map Candidate.blind := by
  have hblind : (others.filterMap id).map Candidate.blind =
      (candidates.filterMap id).map Candidate.blind := by
    induction h with
    | nil => rfl
    | @cons one other ones others hpair _ ih =>
      cases one <;> cases other <;> simp_all
  rw [choose_blind, choose_blind, hblind]

structure SelectionReport (F : Type) where
  timeframe : String
  parameters : Mapping F
  selection : MetricSet F
  selectionScore : F
  deriving DecidableEq, Repr

def TimeframeResult.selectionReport (result : TimeframeResult F) : SelectionReport F where
  timeframe := result.timeframe
  parameters := result.parameters
  selection := result.selection
  selectionScore := result.selectionScore

/-- The loader accepts both catalogs, with datasets that agree before the split. -/
structure Catalog.AgreeBeforeSplit (spec : GenericBacktestSpec F) (one other : Catalog F) : Prop
    where
  underDataRoot : other.underDataRoot = one.underDataRoot
  universeManifest : other.universeManifest = one.universeManifest
  datasets : ∀ symbols, resolveSymbols spec one = .ok symbols → ∀ symbol ∈ symbols,
    ∀ timeframe ∈ spec.data.timeframes, ∃ a b split,
      loadDataset spec one symbol timeframe = .ok a ∧
      loadDataset spec other symbol timeframe = .ok b ∧
      splitIndex spec a.timestamps.length = .ok split ∧ Dataset.AgreeBefore split a b

theorem loadDataset_wellFormed {catalog : Catalog F} {symbol timeframe : String}
    {dataset : Dataset F} (h : loadDataset spec catalog symbol timeframe = .ok dataset) :
    dataset.WellFormed spec := by
  unfold loadDataset at h
  simp only at h
  split_ifs at h
  split at h
  · cases h
  · exact loadFile_wellFormed h

theorem resolveSymbols_transfer {one other : Catalog F}
    (h : other.universeManifest = one.universeManifest) :
    resolveSymbols spec other = resolveSymbols spec one := by
  rw [resolveSymbols, resolveSymbols, h]

theorem runTimeframe_transfer [LawfulFloatArith F] {one other : Catalog F}
    {symbols : List String} {timeframe : String} {result : TimeframeResult F}
    (hsymbols : resolveSymbols spec one = .ok symbols) (htimeframe : timeframe ∈ spec.data.timeframes)
    (hagree : one.AgreeBeforeSplit spec other)
    (hlabels : ∀ candleSeconds, intervalSeconds timeframe = .ok candleSeconds →
      ∀ symbol ∈ symbols, ∀ a b split, loadDataset spec one symbol timeframe = .ok a →
        loadDataset spec other symbol timeframe = .ok b → Dataset.AgreeBefore split a b →
        splitIndex spec a.timestamps.length = .ok split → LabelsAgree spec candleSeconds split a b)
    (h : runTimeframe spec one symbols timeframe = .ok result) :
    ∃ result', runTimeframe spec other symbols timeframe = .ok result' ∧
      result'.selectionReport = result.selectionReport := by
  obtain ⟨candleSeconds, datasets, candidates, best, hseconds, hdatasets, hcandidates, hbest,
    rfl⟩ := runTimeframe_eq_ok.mp h
  have hmem : ∀ symbol ∈ symbols.eraseDups, symbol ∈ symbols :=
    fun symbol hsymbol => List.mem_eraseDups.mp hsymbol
  have hload : List.Forall₂ (fun x y => x = y ∧ x ∈ symbols) symbols.eraseDups symbols.eraseDups :=
    List.forall₂_same.mpr fun symbol hsymbol => ⟨rfl, hmem symbol hsymbol⟩
  obtain ⟨others, hothers, hrelated⟩ := mapM_transfer (s := fun a b => a.Aligned spec ∧
      b.Aligned spec ∧ ∃ split, splitIndex spec a.timestamps.length = .ok split ∧
        Dataset.AgreeBefore split a b ∧ LabelsAgree spec candleSeconds split a b) hload
    (g := fun symbol => loadDataset spec other symbol timeframe) (by
      rintro symbol _ dataset ⟨rfl, hsymbol⟩ hdataset
      obtain ⟨a, b, split, ha, hb, hsplit, hab⟩ :=
        hagree.datasets symbols hsymbols symbol hsymbol timeframe htimeframe
      obtain rfl : dataset = a := Except.ok.inj (hdataset.symm.trans ha)
      exact ⟨b, hb, (loadDataset_wellFormed ha).toAligned, (loadDataset_wellFormed hb).toAligned,
        split, hsplit, hab, hlabels _ hseconds symbol hsymbol _ _ split ha hb hab hsplit⟩)
    hdatasets
  have hgrid : List.Forall₂ (fun x y => x = y ∧ x ∈ grids spec) (grids spec) (grids spec) :=
    List.forall₂_same.mpr fun parameters hparameters => ⟨rfl, hparameters⟩
  obtain ⟨candidates', hcandidates', hblind⟩ := mapM_transfer
    (s := fun a b : Option (Candidate F) => b.map Candidate.blind = a.map Candidate.blind) hgrid
    (g := candidateOf spec candleSeconds others) (by
      rintro parameters _ candidate ⟨rfl, hparameters⟩ hcandidate
      refine candidateOf_transfer (hrelated.imp ?_) hcandidate
      rintro a b ⟨ha, hb, split, hsplit, hab, hlabel⟩ parts hparts
      exact partsOf_transfer ha hb hab hsplit hlabel (present_of_mem_grids hparameters) hparts)
    hcandidates
  have hchoose := choose_transfer hblind
  rw [hbest, Option.map_some] at hchoose
  obtain ⟨best', hbest', heq⟩ := Option.map_eq_some_iff.mp hchoose
  obtain ⟨hscore, hparameters, hselection⟩ : best'.score = best.score ∧
      best'.parameters = best.parameters ∧ best'.selection = best.selection := by
    simpa [Candidate.blind] using heq
  refine ⟨_, runTimeframe_eq_ok.mpr ⟨candleSeconds, others, candidates', best', hseconds, hothers,
    hcandidates', hbest', rfl⟩, ?_⟩
  simp only [TimeframeResult.selectionReport, hscore, hparameters, hselection]

theorem run_transfer [LawfulFloatArith F] {one other : Catalog F} {payload : Payload F}
    (hagree : one.AgreeBeforeSplit spec other)
    (hlabels : ∀ timeframe ∈ spec.data.timeframes, ∀ candleSeconds,
      intervalSeconds timeframe = .ok candleSeconds → ∀ symbol ∈ payload.symbols, ∀ a b split,
        loadDataset spec one symbol timeframe = .ok a →
        loadDataset spec other symbol timeframe = .ok b → Dataset.AgreeBefore split a b →
        splitIndex spec a.timestamps.length = .ok split → LabelsAgree spec candleSeconds split a b)
    (h : run spec one = .ok payload) :
    ∃ payload', run spec other = .ok payload' ∧
      payload'.results.map TimeframeResult.selectionReport =
        payload.results.map TimeframeResult.selectionReport := by
  obtain ⟨hvalid, hroot, symbols, results, hsymbols, hresults, rfl⟩ := run_eq_ok.mp h
  have htimeframes : List.Forall₂ (fun x y => x = y ∧ x ∈ spec.data.timeframes)
      spec.data.timeframes spec.data.timeframes :=
    List.forall₂_same.mpr fun timeframe htimeframe => ⟨rfl, htimeframe⟩
  obtain ⟨results', hresults', hrelated⟩ := mapM_transfer
    (s := fun a b : TimeframeResult F => a.selectionReport = b.selectionReport) htimeframes
    (g := runTimeframe spec other symbols) (by
      rintro timeframe _ result ⟨rfl, htimeframe⟩ hresult
      obtain ⟨result', hresult', hreport⟩ :=
        runTimeframe_transfer hsymbols htimeframe hagree (hlabels timeframe htimeframe) hresult
      exact ⟨result', hresult', hreport.symm⟩) hresults
  have hsymbols' : resolveSymbols spec other = .ok symbols := by
    rw [resolveSymbols_transfer hagree.universeManifest, hsymbols]
  refine ⟨_, run_eq_ok.mpr ⟨hvalid, hagree.underDataRoot.trans hroot, symbols, results',
    hsymbols', hresults', rfl⟩, ?_⟩
  symm
  rw [← List.forall₂_eq_eq_eq, List.forall₂_map_left_iff, List.forall₂_map_right_iff]
  exact hrelated

end ChainQuantStudio.Backtesting
