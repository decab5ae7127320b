import ChainQuantStudio.Specs.UserSpec
import Mathlib.Data.List.Infix
import Mathlib.Data.List.TakeWhile

/-!
# Free text and structured fields

Two documents that differ only in the bodies of their free-text sections are compared. The scan for
bullets does not stop at a section, so a bullet in a free text may be the last of its name.
-/

namespace ChainQuantStudio.Specs

open PythonText

variable (p : Platform)

def freeTitles : List String :=
  ["purpose", "exact behavior", "acceptance examples", "open questions"]

def markLines : Option Text → List Text → List (Bool × Text)
  | _, [] => []
  | current, line :: rest =>
    match headingMatch (strip line) with
    | some title => (false, line) :: markLines (some (p.lower (strip title))) rest
    | none => (current.any (oneOf · freeTitles), line) :: markLines current rest

def marked (text : Text) : List (Bool × Text) := markLines p none (splitlines text)

def skeleton (text : Text) : List Text := ((marked p text).filter fun line => !line.1).map Prod.snd

structure Bullet where
  free : Bool
  name : Text
  value : Text
  deriving DecidableEq, Repr

def bulletOf (line : Bool × Text) : Option Bullet :=
  (fieldMatch (strip line.2)).map fun found => ⟨line.1, p.lower (strip found.1), clean found.2⟩

def bullets (text : Text) : List Bullet := (marked p text).filterMap (bulletOf p)

def lastNamed (key : String) (bullets : List Bullet) : Option Bullet :=
  bullets.reverse.find? fun bullet => bullet.name = key.toList

theorem map_snd_markLines (current : Option Text) (lines : List Text) :
    (markLines p current lines).map Prod.snd = lines := by
  induction lines generalizing current with
  | nil => rfl
  | cons line rest ih =>
    rw [markLines]
    cases headingMatch (strip line) with
    | none => simp [ih]
    | some title => simp [ih]

theorem get?_foldl_fieldStep (key : String) (lines : List (Bool × Text))
    (values : List (Text × Text)) :
    Dict.get? ((lines.map Prod.snd).foldl (fieldStep p) values) key.toList =
      ((lastNamed key (lines.filterMap (bulletOf p))).map Bullet.value).or
        (Dict.get? values key.toList) := by
  induction lines using List.reverseRecOn with
  | nil => rfl
  | append_singleton lines line ih =>
    rw [List.map_append, List.foldl_append, List.filterMap_append, lastNamed, List.reverse_append]
    simp only [List.map_cons, List.map_nil, List.foldl_cons, List.foldl_nil, fieldStep]
    cases hmatch : fieldMatch (strip line.2) with
    | none =>
      simp only [List.filterMap_cons, List.filterMap_nil, bulletOf, hmatch, Option.map_none,
        List.reverse_nil, List.nil_append]
      exact ih
    | some found =>
      simp only [List.filterMap_cons, List.filterMap_nil, bulletOf, hmatch, Option.map_some,
        List.reverse_singleton, List.singleton_append, List.find?_cons, Dict.get?_set]
      by_cases hname : p.lower (strip found.1) = key.toList
      · simp [hname]
      · simp only [hname, decide_false, if_false]
        exact ih

theorem get?_fieldMap (key : String) (text : Text) :
    Dict.get? (fieldMap p text) key.toList =
      (lastNamed key (bullets p text)).map Bullet.value := by
  have h := get?_foldl_fieldStep p key (marked p text) []
  rw [marked, map_snd_markLines, Dict.get?_nil, Option.or_none] at h
  exact h

theorem filter_bullets (text : Text) :
    (bullets p text).filter (fun bullet => !bullet.free) =
      ((skeleton p text).map fun line => (false, line)).filterMap (bulletOf p) := by
  unfold bullets skeleton
  induction marked p text with
  | nil => rfl
  | cons line rest ih =>
    obtain ⟨free, line⟩ := line
    cases free with
    | true =>
      simp only [List.filter_cons, Bool.not_true, Bool.false_eq_true, if_false]
      rw [← ih, List.filterMap_cons]
      unfold bulletOf
      cases fieldMatch (strip line) <;> rfl
    | false =>
      simp only [List.filter_cons, Bool.not_false, if_true, List.map_cons]
      rw [List.filterMap_cons, List.filterMap_cons, ← ih]
      unfold bulletOf
      cases fieldMatch (strip line) <;> rfl

theorem lastNamed_filter {key : String} {all : List Bullet} {bullet : Bullet}
    (h : lastNamed key all = some bullet) (hfree : bullet.free = false) :
    lastNamed key (all.filter fun bullet => !bullet.free) = some bullet := by
  unfold lastNamed at h ⊢
  rw [← List.filter_reverse]
  generalize all.reverse = latest at h ⊢
  induction latest with
  | nil => cases h
  | cons other rest ih =>
    rw [List.find?_cons] at h
    by_cases hname : other.name = key.toList
    · simp only [hname, decide_true, Option.some.injEq] at h
      subst h
      simp [hfree, hname]
    · simp only [hname, decide_false] at h
      rw [List.filter_cons]
      split
      · simp only [List.find?_cons, hname, decide_false]
        exact ih h
      · exact ih h

theorem lastNamed_of_skeleton {text text' : Text} (h : skeleton p text = skeleton p text')
    {key : String} {bullet bullet' : Bullet} (hlast : lastNamed key (bullets p text) = some bullet)
    (hlast' : lastNamed key (bullets p text') = some bullet') (hfree : bullet.free = false)
    (hfree' : bullet'.free = false) : bullet = bullet' := by
  have hfilter := lastNamed_filter hlast hfree
  have hfilter' := lastNamed_filter hlast' hfree'
  rw [filter_bullets, h, ← filter_bullets, hfilter'] at hfilter
  exact (Option.some.inj hfilter).symm

def fieldNames : List String :=
  ["spec schema", "artifact type", "stable id", "version", "horizon", "backtest required",
   "utc boundary", "timeframes", "name", "venue", "market", "symbols or universe",
   "evaluation event", "duplicate/reset rule", "missing/stale/gap behavior", "required data",
   "context-only data"]

def reading (key : String) (value : Text) : List Text :=
  if key = "timeframes" then timeframesOf p value
  else if key = "utc boundary" then
    [if oneOf (p.lower value) ["yes", "true"] then "yes".toList else p.lower value]
  else if key ∈ ["artifact type", "horizon", "backtest required"] then [p.lower value]
  else [value]

def single (readings : String → List Text) (key : String) : Text := (readings key).headD []

/-- The checks of the loader on its readings. -/
def Valid (readings : String → List Text) : Prop :=
  oneOf (single readings "spec schema") ["chain-user-spec/v1"] = true ∧
  oneOf (single readings "artifact type") ["signal", "strategy"] = true ∧
  isSafeId (single readings "stable id") = true ∧
  isSemver (single readings "version") = true ∧
  oneOf (single readings "horizon") ["short", "medium", "long"] = true ∧
  oneOf (single readings "backtest required") ["yes", "no"] = true ∧
  single readings "utc boundary" = "yes".toList ∧
  readings "timeframes" ≠ []

def structuredOf (readings : String → List Text) : StructuredFields where
  artifactType := single readings "artifact type"
  name := single readings "name"
  stableId := single readings "stable id"
  version := single readings "version"
  horizon := single readings "horizon"
  backtestRequired := oneOf (single readings "backtest required") ["yes"]
  venue := single readings "venue"
  market := single readings "market"
  symbolsOrUniverse := single readings "symbols or universe"
  timeframes := readings "timeframes"
  evaluationEvent := single readings "evaluation event"
  duplicateResetRule := single readings "duplicate/reset rule"
  missingStaleGapBehavior := single readings "missing/stale/gap behavior"
  requiredData := single readings "required data"
  contextOnlyData := single readings "context-only data"

def valueOf (text : Text) (key : String) : Text :=
  strip ((Dict.get? (fieldMap p text) key.toList).getD [])

def readingsOf (text : Text) (key : String) : List Text := reading p key (valueOf p text key)

variable {p}

def Readable (value : Text) : Prop := value ≠ [] ∧ hasPlaceholder value = false

structure HasFields (p : Platform) (text : Text) : Prop where
  filled : ∀ key ∈ fieldNames, Readable (valueOf p text key)
  valid : Valid (readingsOf p text)

def HasSections (p : Platform) (text : Text) : Prop :=
  ∀ title ∈ freeTitles, Readable (sectionContent (sections p text) title)

theorem check_bind_eq_ok {α : Type} {condition : Bool} {message : String}
    {next : Unit → Except UserSpecError α} {result : α} :
    (check condition message >>= next) = .ok result ↔ condition = true ∧ next () = .ok result := by
  cases condition <;> simp [check, bind, Except.bind]

theorem require_bind_eq_ok {α : Type} {text : Text} {key : String}
    {next : Text → Except UserSpecError α} {result : α} :
    (require (fieldMap p text) key >>= next) = .ok result ↔
      Readable (valueOf p text key) ∧ next (valueOf p text key) = .ok result := by
  unfold require valueOf Readable
  simp only
  split_ifs with hbad
  · refine iff_of_false (by simp [bind, Except.bind]) fun hgood => ?_
    rcases hbad with hempty | hplaceholder
    · exact hgood.1.1 hempty
    · rw [hgood.1.2] at hplaceholder
      cases hplaceholder
  · rw [not_or, Bool.not_eq_true] at hbad
    exact (and_iff_right hbad).symm

theorem requireSection_bind_eq_ok {α : Type} {text : Text} {title : String}
    {next : Text → Except UserSpecError α} {result : α} :
    (requireSection (sections p text) title >>= next) = .ok result ↔
      Readable (sectionContent (sections p text) title) ∧
        next (sectionContent (sections p text) title) = .ok result := by
  unfold requireSection Readable
  simp only
  split_ifs with hbad
  · refine iff_of_false (by simp [bind, Except.bind]) fun hgood => ?_
    rcases hbad with hempty | hplaceholder
    · exact hgood.1.1 hempty
    · rw [hgood.1.2] at hplaceholder
      cases hplaceholder
  · rw [not_or, Bool.not_eq_true] at hbad
    exact (and_iff_right hbad).symm

theorem single_readingsOf {text : Text} {key : String} (h : key ∉ ["timeframes", "utc boundary",
    "artifact type", "horizon", "backtest required"]) :
    single (readingsOf p text) key = valueOf p text key := by
  simp only [List.mem_cons, List.not_mem_nil, or_false, not_or] at h
  simp [single, readingsOf, reading, h]

theorem single_readingsOf_lower {text : Text} {key : String}
    (h : key ∈ ["artifact type", "horizon", "backtest required"]) :
    single (readingsOf p text) key = p.lower (valueOf p text key) := by
  have hne : key ≠ "timeframes" ∧ key ≠ "utc boundary" := by
    simp only [List.mem_cons, List.not_mem_nil, or_false] at h
    rcases h with rfl | rfl | rfl <;> decide
  simp [single, readingsOf, reading, h, hne]

theorem single_readingsOf_utc {text : Text} : single (readingsOf p text) "utc boundary" =
    "yes".toList ↔ oneOf (p.lower (valueOf p text "utc boundary")) ["yes", "true"] = true := by
  have hreading : single (readingsOf p text) "utc boundary" =
      if oneOf (p.lower (valueOf p text "utc boundary")) ["yes", "true"] then "yes".toList
      else p.lower (valueOf p text "utc boundary") := by
    simp [single, readingsOf, reading]
  rw [hreading]
  split_ifs with hutc
  · exact iff_of_true rfl hutc
  · refine iff_of_false (fun hyes => hutc ?_) hutc
    rw [hyes]
    decide

theorem valid_readingsOf_iff {text : Text} : Valid (readingsOf p text) ↔
    oneOf (valueOf p text "spec schema") ["chain-user-spec/v1"] = true ∧
    oneOf (p.lower (valueOf p text "artifact type")) ["signal", "strategy"] = true ∧
    isSafeId (valueOf p text "stable id") = true ∧
    isSemver (valueOf p text "version") = true ∧
    oneOf (p.lower (valueOf p text "horizon")) ["short", "medium", "long"] = true ∧
    oneOf (p.lower (valueOf p text "backtest required")) ["yes", "no"] = true ∧
    oneOf (p.lower (valueOf p text "utc boundary")) ["yes", "true"] = true ∧
    timeframesOf p (valueOf p text "timeframes") ≠ [] := by
  simp (disch := decide) only [Valid, single_readingsOf, single_readingsOf_lower,
    single_readingsOf_utc]
  exact Iff.rfl

theorem structuredOf_readingsOf {text : Text} : structuredOf (readingsOf p text) =
    { artifactType := p.lower (valueOf p text "artifact type"), name := valueOf p text "name",
      stableId := valueOf p text "stable id", version := valueOf p text "version",
      horizon := p.lower (valueOf p text "horizon"),
      backtestRequired := oneOf (p.lower (valueOf p text "backtest required")) ["yes"],
      venue := valueOf p text "venue", market := valueOf p text "market",
      symbolsOrUniverse := valueOf p text "symbols or universe",
      timeframes := timeframesOf p (valueOf p text "timeframes"),
      evaluationEvent := valueOf p text "evaluation event",
      duplicateResetRule := valueOf p text "duplicate/reset rule",
      missingStaleGapBehavior := valueOf p text "missing/stale/gap behavior",
      requiredData := valueOf p text "required data",
      contextOnlyData := valueOf p text "context-only data" } := by
  simp (disch := decide) only [structuredOf, single_readingsOf, single_readingsOf_lower]
  rfl

def specOf (p : Platform) (path : String) (text : Text) : UserSpec where
  toStructuredFields := structuredOf (readingsOf p text)
  sourcePath := path
  sourceSha256 := p.sha256 text
  purpose := sectionContent (sections p text) "purpose"
  exactBehavior := sectionContent (sections p text) "exact behavior"
  acceptanceExamples := sectionContent (sections p text) "acceptance examples"
  openQuestions := sectionContent (sections p text) "open questions"

theorem loadUserSpec_eq_ok {path : String} {text : Text} {spec : UserSpec} :
    loadUserSpec p path text = .ok spec ↔
      HasFields p text ∧ HasSections p text ∧ spec = specOf p path text := by
  simp only [loadUserSpec, require_bind_eq_ok, requireSection_bind_eq_ok, check_bind_eq_ok]
  constructor
  · rintro ⟨hschema, hschema', htype, htype', hid, hid', hversion, hversion', hhorizon, hhorizon',
      hbacktest, hbacktest', hutc, hutc', htimeframes, htimeframes', hname, hvenue, hmarket,
      hsymbols, hevent, hpurpose, hbehavior, hreset, hmissing, hrequired, hcontext, hexamples,
      hquestions, h⟩
    refine ⟨⟨?_, ?_⟩, ?_, ?_⟩
    · simp only [fieldNames, List.forall_mem_cons, List.not_mem_nil, false_imp_iff, implies_true,
        and_true]
      exact ⟨hschema, htype, hid, hversion, hhorizon, hbacktest, hutc, htimeframes, hname, hvenue,
        hmarket, hsymbols, hevent, hreset, hmissing, hrequired, hcontext⟩
    · exact valid_readingsOf_iff.mpr ⟨hschema', htype', hid', hversion', hhorizon', hbacktest', hutc',
        of_decide_eq_true htimeframes'⟩
    · simp only [HasSections, freeTitles, List.forall_mem_cons, List.not_mem_nil, false_imp_iff,
        implies_true, and_true]
      exact ⟨hpurpose, hbehavior, hexamples, hquestions⟩
    · rw [specOf, structuredOf_readingsOf]
      exact (Except.ok.inj h).symm
  · rintro ⟨⟨hfilled, hvalid⟩, hsections, rfl⟩
    obtain ⟨hschema, htype, hid, hversion, hhorizon, hbacktest, hutc, htimeframes⟩ :=
      valid_readingsOf_iff.mp hvalid
    refine ⟨hfilled _ (by decide), hschema, hfilled _ (by decide), htype, hfilled _ (by decide), hid,
      hfilled _ (by decide), hversion, hfilled _ (by decide), hhorizon, hfilled _ (by decide),
      hbacktest, hfilled _ (by decide), hutc, hfilled _ (by decide),
      decide_eq_true htimeframes, hfilled _ (by decide), hfilled _ (by decide),
      hfilled _ (by decide), hfilled _ (by decide), hfilled _ (by decide), hsections _ (by decide),
      hsections _ (by decide), hfilled _ (by decide), hfilled _ (by decide), hfilled _ (by decide),
      hfilled _ (by decide), hsections _ (by decide), hsections _ (by decide), ?_⟩
    rw [specOf, structuredOf_readingsOf]
    rfl

theorem readingsOf_eq_single {text : Text} {key : String} (h : key ≠ "timeframes") :
    readingsOf p text key = [single (readingsOf p text) key] := by
  unfold single readingsOf reading
  rw [if_neg h]
  split_ifs <;> rfl

theorem eq_of_oneOf_singleton {value : Text} {allowed : String} (h : oneOf value [allowed] = true) :
    value = allowed.toList := by
  simp only [oneOf, List.any_cons, List.any_nil, Bool.or_false, decide_eq_true_eq] at h
  exact h.symm

theorem readingsOf_eq {text text' : Text} (h : HasFields p text) (h' : HasFields p text')
    (hsame : structuredOf (readingsOf p text') = structuredOf (readingsOf p text)) :
    ∀ key ∈ fieldNames, readingsOf p text' key = readingsOf p text key := by
  obtain ⟨hschema, -, -, -, -, hbacktest, hutc, -⟩ := h.valid
  obtain ⟨hschema', -, -, -, -, hbacktest', hutc', -⟩ := h'.valid
  simp only [structuredOf, StructuredFields.mk.injEq] at hsame
  obtain ⟨htype, hname, hid, hversion, hhorizon, hrequired, hvenue, hmarket, hsymbols, htimeframes,
    hevent, hreset, hmissing, hdata, hcontext⟩ := hsame
  have hyes : single (readingsOf p text') "backtest required" =
      single (readingsOf p text) "backtest required" := by
    simp only [oneOf, List.any_cons, List.any_nil, Bool.or_false, Bool.or_eq_true,
      decide_eq_true_eq] at hbacktest hbacktest' hrequired
    rcases hbacktest with hfound | hfound <;> rcases hbacktest' with hfound' | hfound' <;>
      rw [← hfound, ← hfound'] at hrequired ⊢ <;> cases hrequired
  have hsingle : ∀ key, key ≠ "timeframes" →
      single (readingsOf p text') key = single (readingsOf p text) key →
      readingsOf p text' key = readingsOf p text key := by
    intro key hkey hvalue
    rw [readingsOf_eq_single hkey, readingsOf_eq_single hkey, hvalue]
  simp only [fieldNames, List.forall_mem_cons, List.not_mem_nil, false_imp_iff, implies_true,
    and_true]
  refine ⟨hsingle _ (by decide) ?_, hsingle _ (by decide) htype, hsingle _ (by decide) hid,
    hsingle _ (by decide) hversion, hsingle _ (by decide) hhorizon, hsingle _ (by decide) hyes,
    hsingle _ (by decide) (hutc'.trans hutc.symm), htimeframes, hsingle _ (by decide) hname,
    hsingle _ (by decide) hvenue, hsingle _ (by decide) hmarket, hsingle _ (by decide) hsymbols,
    hsingle _ (by decide) hevent, hsingle _ (by decide) hreset, hsingle _ (by decide) hmissing,
    hsingle _ (by decide) hdata, hsingle _ (by decide) hcontext⟩
  exact (eq_of_oneOf_singleton hschema').trans (eq_of_oneOf_singleton hschema).symm

theorem structuredOf_congr {readings readings' : String → List Text}
    (h : ∀ key ∈ fieldNames, readings' key = readings key) :
    structuredOf readings' = structuredOf readings ∧ (Valid readings → Valid readings') := by
  have hsingle : ∀ key ∈ fieldNames, single readings' key = single readings key := fun key hkey =>
    congrArg (List.headD · []) (h key hkey)
  simp only [fieldNames, List.forall_mem_cons, List.not_mem_nil, false_imp_iff, implies_true,
    and_true] at h hsingle
  constructor
  · simp only [structuredOf, h, hsingle]
  · simp only [Valid, h, hsingle]
    exact id

/-- The last bullet of a field stands outside the free text in both documents, or the one of the
new document has a reading that the other has as well. -/
def KeepsField (p : Platform) (text text' : Text) (key : String) : Prop :=
  ∃ bullet bullet', lastNamed key (bullets p text) = some bullet ∧
    lastNamed key (bullets p text') = some bullet' ∧
    ((bullet.free = false ∧ bullet'.free = false) ∨
      (reading p key (strip bullet'.value) = reading p key (strip bullet.value) ∧
        Readable (strip bullet'.value)))

theorem valueOf_of_lastNamed {text : Text} {key : String} {bullet : Bullet}
    (h : lastNamed key (bullets p text) = some bullet) :
    valueOf p text key = strip bullet.value := by
  rw [valueOf, get?_fieldMap, h]
  rfl

theorem exists_lastNamed {text : Text} {key : String} (h : Readable (valueOf p text key)) :
    ∃ bullet, lastNamed key (bullets p text) = some bullet := by
  cases hlast : lastNamed key (bullets p text) with
  | some bullet => exact ⟨bullet, rfl⟩
  | none =>
    exfalso
    apply h.1
    rw [valueOf, get?_fieldMap, hlast]
    rfl

theorem keepsField_iff {text text' : Text} (hskeleton : skeleton p text = skeleton p text')
    {key : String} (h : Readable (valueOf p text key)) :
    KeepsField p text text' key ↔
      readingsOf p text' key = readingsOf p text key ∧ Readable (valueOf p text' key) := by
  obtain ⟨bullet, hlast⟩ := exists_lastNamed h
  unfold readingsOf
  constructor
  · rintro ⟨other, bullet', hother, hlast', hcase⟩
    obtain rfl : bullet = other := Option.some.inj (hlast.symm.trans hother)
    rw [valueOf_of_lastNamed hlast] at h ⊢
    rw [valueOf_of_lastNamed hlast']
    rcases hcase with ⟨hfree, hfree'⟩ | hsame
    · rw [lastNamed_of_skeleton p hskeleton hlast hlast' hfree hfree'] at h ⊢
      exact ⟨rfl, h⟩
    · exact hsame
  · rintro ⟨hreading, hreadable⟩
    obtain ⟨bullet', hlast'⟩ := exists_lastNamed hreadable
    rw [valueOf_of_lastNamed hlast, valueOf_of_lastNamed hlast'] at hreading
    rw [valueOf_of_lastNamed hlast'] at hreadable
    exact ⟨bullet, bullet', hlast, hlast', .inr ⟨hreading, hreadable⟩⟩

theorem hasPlaceholder_iff {text : Text} : hasPlaceholder text = true ↔
    ∃ inside, inside ≠ [] ∧ (∀ c ∈ inside, insidePlaceholder c = true) ∧
      '<' :: (inside ++ ['>']) <:+: text := by
  simp only [hasPlaceholder, List.any_eq_true, List.mem_tails]
  constructor
  · rintro ⟨tail, hsuffix, hstarts⟩
    unfold startsPlaceholder at hstarts
    split at hstarts
    · rename_i rest
      simp only [Bool.and_eq_true, Bool.not_eq_true', List.isEmpty_eq_false_iff, beq_iff_eq] at hstarts
      obtain ⟨hinside, hclose⟩ := hstarts
      obtain ⟨more, hmore⟩ : ∃ more, rest.dropWhile insidePlaceholder = '>' :: more := by
        cases hdrop : rest.dropWhile insidePlaceholder with
        | nil =>
          rw [hdrop] at hclose
          cases hclose
        | cons c more =>
          rw [hdrop] at hclose
          exact ⟨more, by rw [Option.some.inj hclose]⟩
      refine ⟨_, hinside, fun c hc => List.mem_takeWhile_imp hc, ?_⟩
      have hrest : rest = rest.takeWhile insidePlaceholder ++ ['>'] ++ more := by
        rw [List.append_assoc, List.singleton_append, ← hmore, List.takeWhile_append_dropWhile]
      have hprefixed : '<' :: (rest.takeWhile insidePlaceholder ++ ['>']) <+: '<' :: rest :=
        ⟨more, by rw [List.cons_append, ← hrest]⟩
      exact hprefixed.isInfix.trans hsuffix.isInfix
    · cases hstarts
  · rintro ⟨inside, hinside, hall, before, after, rfl⟩
    refine ⟨'<' :: (inside ++ ['>']) ++ after, ?_, ?_⟩
    · rw [List.append_assoc]
      exact List.suffix_append _ _
    · have hclose : insidePlaceholder '>' = false := by decide
      rw [List.cons_append, List.append_assoc, startsPlaceholder,
        List.takeWhile_append_of_pos hall, List.dropWhile_append_of_pos hall, List.singleton_append,
        List.takeWhile_cons_of_neg (by simp [hclose]), List.dropWhile_cons_of_neg (by simp [hclose]),
        List.append_nil]
      simp [hinside]

theorem hasPlaceholder_of_isInfix {text whole : Text} (h : hasPlaceholder text = true)
    (hpiece : text <:+: whole) : hasPlaceholder whole = true := by
  obtain ⟨inside, hinside, hall, hfound⟩ := hasPlaceholder_iff.mp h
  exact hasPlaceholder_iff.mpr ⟨inside, hinside, hall, hfound.trans hpiece⟩

theorem infix_append_cons {piece left right : Text} {c : Char} (hc : c ∉ piece)
    (h : piece <:+: left ++ c :: right) : piece <:+: left ∨ piece <:+: right := by
  obtain ⟨before, after, h⟩ := h
  rw [List.append_assoc] at h
  rcases List.append_eq_append_iff.mp h with ⟨rest, hleft, hrest⟩ | ⟨rest, hbefore, hrest⟩
  · rcases List.append_eq_append_iff.mp hrest with ⟨more, hmore, -⟩ | ⟨more, hpiece, hmore⟩
    · exact .inl ⟨before, more, by rw [hleft, hmore, List.append_assoc]⟩
    · cases more with
      | nil => exact .inl ⟨before, [], by rw [hleft, hpiece, List.append_nil, List.append_nil]⟩
      | cons d more =>
        have hd : c = d := (List.cons.inj hmore).1
        exact absurd (by rw [hpiece, hd]; simp) hc
  · cases rest with
    | nil =>
      cases piece with
      | nil => exact .inl List.nil_infix
      | cons d piece =>
        have hd : c = d := (List.cons.inj hrest).1
        exact absurd (by rw [hd]; simp) hc
    | cons d rest =>
      refine .inr ⟨rest, after, ?_⟩
      rw [List.append_assoc]
      exact (List.cons.inj hrest).2.symm

theorem hasPlaceholder_joinLines {lines : List Text} (h : hasPlaceholder (joinLines lines) = true) :
    ∃ line ∈ lines, hasPlaceholder line = true := by
  obtain ⟨inside, hinside, hall, hfound⟩ := hasPlaceholder_iff.mp h
  have hnewline : '\n' ∉ '<' :: (inside ++ ['>']) := by
    simp only [List.mem_cons, List.mem_append, List.not_mem_nil, or_false, not_or]
    refine ⟨by decide, fun hmem => ?_, by decide⟩
    have := hall _ hmem
    revert this
    decide
  induction lines with
  | nil =>
    cases List.infix_nil.mp hfound
  | cons line rest ih =>
    cases rest with
    | nil =>
      refine ⟨line, List.mem_cons_self, hasPlaceholder_iff.mpr ⟨inside, hinside, hall, ?_⟩⟩
      simpa [joinLines] using hfound
    | cons next rest =>
      have hjoin : joinLines (line :: next :: rest) = line ++ '\n' :: joinLines (next :: rest) := by
        simp [joinLines, List.intercalate_cons_cons]
      rw [hjoin] at hfound
      rcases infix_append_cons hnewline hfound with hline | hrest
      · exact ⟨line, List.mem_cons_self, hasPlaceholder_iff.mpr ⟨inside, hinside, hall, hline⟩⟩
      · have hplaceholder := hasPlaceholder_iff.mpr ⟨inside, hinside, hall, hrest⟩
        obtain ⟨other, hother, hin⟩ := ih hplaceholder hrest
        exact ⟨other, List.mem_cons_of_mem _ hother, hin⟩

theorem rstrip_isInfix (text : Text) : rstrip text <:+: text := by
  have hright : rstrip text <+: text := List.reverse_suffix.mp (by
    rw [rstrip, List.reverse_reverse]
    exact stripLeft_suffix _)
  exact hright.isInfix

theorem mem_splitlines_isInfix {text line : Text} (h : line ∈ splitlines text) : line <:+: text := by
  apply (splitOnP_isInfix isLineEnd text).2
  unfold splitlines at h
  simp only at h
  split_ifs at h
  · exact List.dropLast_subset _ h
  · exact h

theorem hasPlaceholder_sectionContent {sections : List (Text × Text)} {title : String}
    (h : hasPlaceholder (sectionContent sections title) = true) :
    hasPlaceholder ((Dict.get? sections title.toList).getD []) = true := by
  have hjoined := hasPlaceholder_of_isInfix h (strip_isInfix _)
  obtain ⟨line, hline, hfound⟩ := hasPlaceholder_joinLines hjoined
  have hin := mem_splitlines_isInfix (List.mem_filter.mp hline).1
  exact hasPlaceholder_of_isInfix hfound (hin.trans (strip_isInfix _))

theorem mem_sectionLines {title : String} (htitle : title ∈ freeTitles) {lines : List Text}
    {current : Option Text} {values : List (Text × List Text)} {line : Text}
    (h : line ∈ (Dict.get? (lines.foldl (sectionStep p) (current, values)).2 title.toList).getD []) :
    line ∈ (Dict.get? values title.toList).getD [] ∨
      ∃ raw, (true, raw) ∈ markLines p current lines ∧ line = rstrip raw := by
  induction lines generalizing current values with
  | nil => exact .inl h
  | cons raw rest ih =>
    rw [List.foldl_cons, sectionStep] at h
    rw [markLines]
    cases hheading : headingMatch (strip raw) with
    | some found =>
      simp only [hheading] at h
      rcases ih h with hvalues | ⟨other, hother, hline⟩
      · left
        rw [Dict.get?_set] at hvalues
        split_ifs at hvalues
        · cases hvalues
        · exact hvalues
      · exact .inr ⟨other, List.mem_cons_of_mem _ hother, hline⟩
    | none =>
      simp only [hheading] at h
      cases current with
      | none =>
        rcases ih h with hvalues | ⟨other, hother, hline⟩
        · exact .inl hvalues
        · exact .inr ⟨other, List.mem_cons_of_mem _ hother, hline⟩
      | some current =>
        rcases ih h with hvalues | ⟨other, hother, hline⟩
        · rw [Dict.get?_set] at hvalues
          split_ifs at hvalues with hcurrent
          · subst hcurrent
            rcases List.mem_append.mp hvalues with hold | hnew
            · exact .inl hold
            · right
              have hfree : oneOf title.toList freeTitles = true := by
                rw [oneOf, List.any_eq_true]
                exact ⟨title, htitle, decide_eq_true rfl⟩
              rw [Option.any_some, hfree]
              exact ⟨raw, List.mem_cons_self, List.mem_singleton.mp hnew⟩
          · exact .inl hvalues
        · exact .inr ⟨other, List.mem_cons_of_mem _ hother, hline⟩

theorem exists_placeholder {text : Text} {title : String} (htitle : title ∈ freeTitles)
    (h : hasPlaceholder (sectionContent (sections p text) title) = true) :
    ∃ line, (true, line) ∈ marked p text ∧ hasPlaceholder line = true := by
  have hvalue := hasPlaceholder_sectionContent h
  rw [sections, Dict.get?_map_value fun lines => strip (joinLines lines)] at hvalue
  cases hlines : Dict.get? ((splitlines text).foldl (sectionStep p) (none, [])).2 title.toList with
  | none =>
    rw [hlines] at hvalue
    cases hvalue
  | some lines =>
    rw [hlines] at hvalue
    obtain ⟨line, hline, hfound⟩ :=
      hasPlaceholder_joinLines (hasPlaceholder_of_isInfix hvalue (strip_isInfix _))
    have hmem : line ∈ (Dict.get? ((splitlines text).foldl (sectionStep p) (none, [])).2
        title.toList).getD [] := by
      rw [hlines]
      exact hline
    rcases mem_sectionLines htitle hmem with hnone | ⟨raw, hraw, rfl⟩
    · cases hnone
    · exact ⟨raw, hraw, hasPlaceholder_of_isInfix hfound (rstrip_isInfix raw)⟩

/-- A document with other free text, none of it with a placeholder. -/
structure Replaces (p : Platform) (text text' : Text) : Prop where
  skeleton : skeleton p text = skeleton p text'
  settled : ∀ line, (true, line) ∈ marked p text' → hasPlaceholder line = false

/-- With other free text the same structured fields are loaded exactly if each field is kept and
each free text has a line that is neither blank nor a quotation. -/
theorem load_replaced_iff {path : String} {text text' : Text} {spec : UserSpec}
    (h : loadUserSpec p path text = .ok spec) (hreplaces : Replaces p text text') :
    (∃ spec', loadUserSpec p path text' = .ok spec' ∧
        spec'.toStructuredFields = spec.toStructuredFields ∧
        approvalGates spec'.backtestRequired = approvalGates spec.backtestRequired) ↔
      (∀ key ∈ fieldNames, KeepsField p text text' key) ∧
        ∀ title ∈ freeTitles, sectionContent (sections p text') title ≠ [] := by
  obtain ⟨hfields, -, rfl⟩ := loadUserSpec_eq_ok.mp h
  have hkeeps : ∀ key ∈ fieldNames, KeepsField p text text' key ↔
      readingsOf p text' key = readingsOf p text key ∧ Readable (valueOf p text' key) :=
    fun key hkey => keepsField_iff hreplaces.skeleton (hfields.filled key hkey)
  constructor
  · rintro ⟨spec', hload, hsame, -⟩
    obtain ⟨hfields', hsections', rfl⟩ := loadUserSpec_eq_ok.mp hload
    have hreadings := readingsOf_eq hfields hfields' hsame
    refine ⟨fun key hkey => (hkeeps key hkey).mpr ⟨hreadings key hkey, hfields'.filled key hkey⟩, ?_⟩
    exact fun title htitle => (hsections' title htitle).1
  · rintro ⟨hall, hcontents⟩
    have hreadings : ∀ key ∈ fieldNames, readingsOf p text' key = readingsOf p text key :=
      fun key hkey => ((hkeeps key hkey).mp (hall key hkey)).1
    obtain ⟨hsame, hvalid⟩ := structuredOf_congr hreadings
    have hfields' : HasFields p text' :=
      ⟨fun key hkey => ((hkeeps key hkey).mp (hall key hkey)).2, hvalid hfields.valid⟩
    have hsections' : HasSections p text' := by
      intro title htitle
      refine ⟨hcontents title htitle, Bool.eq_false_iff.mpr fun hplaceholder => ?_⟩
      obtain ⟨line, hline, hfound⟩ := exists_placeholder htitle hplaceholder
      rw [hreplaces.settled line hline] at hfound
      cases hfound
    refine ⟨_, loadUserSpec_eq_ok.mpr ⟨hfields', hsections', rfl⟩, hsame, ?_⟩
    have hbacktest := congrArg StructuredFields.backtestRequired hsame
    exact congrArg approvalGates hbacktest

section

def asciiPlatform : Platform := ⟨lower, fun _ => ""⟩

def sampleDocument (purpose : String) : Text :=
  joinLines ((["## 1. Identity", "- Spec schema: chain-user-spec/v1", "- Artifact type: signal",
    "- Name: N", "- Stable ID: n", "- Version: 1.0.0", "- Horizon: short",
    "- Backtest required: no", "## 2. Purpose", purpose, "## 3. Market", "- Venue: V",
    "- Market: M", "- Symbols or universe: S", "- Timeframes: 1h", "- Evaluation event: E",
    "- UTC boundary: yes", "## 4. Exact behavior", "B", "## 5. Lifecycle and safety",
    "- Duplicate/reset rule: R", "- Missing/stale/gap behavior: G", "- Required data: D",
    "- Context-only data: C", "## 6. Acceptance examples", "A", "## 7. Open questions",
    "None"]).map String.toList)

theorem sample_replaced :
    Replaces asciiPlatform (sampleDocument "P") (sampleDocument "- Backtest required: yes") := by
  have hskeleton : skeleton asciiPlatform (sampleDocument "P") =
      skeleton asciiPlatform (sampleDocument "- Backtest required: yes") := by decide +kernel
  have hsettled : ∀ line ∈ marked asciiPlatform (sampleDocument "- Backtest required: yes"),
      line.1 = true → hasPlaceholder line.2 = false := by decide +kernel
  exact ⟨hskeleton, fun line hline => hsettled _ hline rfl⟩

theorem exists_sample {purpose : String} {backtest : Bool}
    (h : (loadUserSpec asciiPlatform "spec.md" (sampleDocument purpose)).toOption.map
      (·.backtestRequired) = some backtest) :
    ∃ spec, loadUserSpec asciiPlatform "spec.md" (sampleDocument purpose) = .ok spec ∧
      spec.backtestRequired = backtest := by
  obtain ⟨spec, hspec, hbacktest⟩ := Option.map_eq_some_iff.mp h
  cases hload : loadUserSpec asciiPlatform "spec.md" (sampleDocument purpose) with
  | error error =>
    rw [hload] at hspec
    cases hspec
  | ok found =>
    rw [hload] at hspec
    exact ⟨found, rfl, by rw [Option.some.inj hspec, hbacktest]⟩

theorem sample_loaded :
    ∃ spec, loadUserSpec asciiPlatform "spec.md" (sampleDocument "P") = .ok spec ∧
      spec.backtestRequired = false := by
  apply exists_sample
  decide +kernel

theorem load_replaced_iff_sample :
    ∃ spec, loadUserSpec asciiPlatform "spec.md" (sampleDocument "P") = .ok spec ∧
      ((∃ spec', loadUserSpec asciiPlatform "spec.md"
            (sampleDocument "- Backtest required: yes") = .ok spec' ∧
          spec'.toStructuredFields = spec.toStructuredFields ∧
          approvalGates spec'.backtestRequired = approvalGates spec.backtestRequired) ↔
        (∀ key ∈ fieldNames, KeepsField asciiPlatform (sampleDocument "P")
            (sampleDocument "- Backtest required: yes") key) ∧
          ∀ title ∈ freeTitles, sectionContent
            (sections asciiPlatform (sampleDocument "- Backtest required: yes")) title ≠ []) := by
  obtain ⟨spec, hload, -⟩ := sample_loaded
  exact ⟨spec, hload, load_replaced_iff hload sample_replaced⟩

/-- A bullet in the purpose asks for the backtest that the identity refuses. -/
theorem purpose_flips_backtest :
    ∃ spec spec', loadUserSpec asciiPlatform "spec.md" (sampleDocument "P") = .ok spec ∧
      Replaces asciiPlatform (sampleDocument "P") (sampleDocument "- Backtest required: yes") ∧
      loadUserSpec asciiPlatform "spec.md" (sampleDocument "- Backtest required: yes") = .ok spec' ∧
      approvalGates spec.backtestRequired = ["implementation_approval", "live_approval"] ∧
      approvalGates spec'.backtestRequired =
        ["implementation_approval", "backtest_approval", "live_approval"] := by
  obtain ⟨spec, hload, hno⟩ := sample_loaded
  obtain ⟨spec', hload', hyes⟩ : ∃ spec', loadUserSpec asciiPlatform "spec.md"
      (sampleDocument "- Backtest required: yes") = .ok spec' ∧ spec'.backtestRequired = true := by
    apply exists_sample
    decide +kernel
  refine ⟨spec, spec', hload, sample_replaced, hload', ?_, ?_⟩
  · rw [hno]
    rfl
  · rw [hyes]
    rfl

end

end ChainQuantStudio.Specs
