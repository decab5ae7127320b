import ChainQuantStudio.Library.LineStarts
import ChainQuantStudio.Studio.ReviewReport
import Mathlib.Data.List.Perm.Subperm

/-!
# What a Review PASS stands for

A PASS is meant to be complete and unblocked: every required category checked once, no other, and
no finding in the report. The runner reads a report by scans over its text; only one of the two
kinds of finding is looked for in a PASS, and the scan for checks reads past a line that ends at its
bar.
-/

namespace ChainQuantStudio.Studio

open PythonText

def requiredChecks (stage : ReviewStage) : List Text := (reviewChecks stage).map String.toList

def checkLines (report : String) : List Text :=
  (lineMatches matchCheck report.toList).map fun c => lower c.1

structure CompletePass (report : String) (stage : ReviewStage) : Prop where
  verdict : reviewPassed report = true
  declared : (lineMatches matchScope report.toList).head?.map lower = some stage.value.toList
  checks : ∀ category, (checkLines report).count category =
    if category ∈ requiredChecks stage then 1 else 0
  unblocked : reviewFindings report = []

/-- A PASS report, every scanned category of it in order and no BLOCKER in it, that has a
prerequisite blocker or a CHECK line inside the evidence of another. -/
structure Overlooks (report : String) (stage : ReviewStage) : Prop where
  verdict : reviewPassed report = true
  declared : (lineMatches matchScope report.toList).head?.map lower = some stage.value.toList
  covered : coversChecks (reviewCategories report.toList) (requiredChecks stage) = true
  unblocked : lineMatches (matchField ["blocker"]) report.toList = []
  hidden : lineMatches (matchField ["prerequisite_blocker"]) report.toList ≠ [] ∨
    findAll matchCheck report.toList ≠ lineMatches matchCheck report.toList

theorem matchCheck_advances : Advances matchCheck := by
  intro c cs found rest h
  obtain ⟨afterLabel, hlabel, h⟩ := Option.bind_eq_some_iff.mp h
  have hinside : afterLabel <:+ cs := afterWord_cons_suffix hlabel
  have hcategory : ((stripLeft afterLabel).span fun c => isLetter c || c == '_').2 <:+ cs :=
    (span_suffix _ _).trans ((stripLeft_suffix _).trans hinside)
  generalize (stripLeft afterLabel).span (fun c => isLetter c || c == '_') = parts at h hcategory
  obtain ⟨category, afterCategory⟩ := parts
  simp only at h hcategory
  split at h
  · cases h
  split at h
  · rename_i bar afterBar hbar
    obtain ⟨⟨evidence, tail⟩, hline, heq⟩ := Option.map_eq_some_iff.mp h
    obtain rfl : tail = rest := congrArg Prod.snd heq
    have hafterBar : afterBar <:+ afterCategory := by
      have hstrip := stripLeft_suffix afterCategory
      rw [hbar] at hstrip
      exact (List.suffix_cons _ _).trans hstrip
    exact (restOfLine_suffix hline).trans (hafterBar.trans hcategory)
  · cases h

theorem reviewOutcome_eq_pass {report : String} {stage : ReviewStage} :
    reviewOutcome report stage = .pass ↔
      reviewPassed report = true ∧
      (findAll matchScope report.toList).head?.map lower = some stage.value.toList ∧
      coversChecks (reviewCategories report.toList) (requiredChecks stage) = true ∧
      fields ["blocker"] report.toList = [] := by
  unfold reviewOutcome reviewVerdict requiredChecks
  cases hscope : (findAll matchScope report.toList).head? with
  | none =>
    cases reviewPassed report <;> grind
  | some scope =>
    cases hpassed : reviewPassed report <;> simp only [Option.map_some, Option.some.injEq] <;> grind

theorem nodup_requiredChecks (stage : ReviewStage) : (requiredChecks stage).Nodup := by
  cases stage <;> decide +kernel

theorem perm_of_coversChecks {categories required : List Text} (hnodup : required.Nodup)
    (h : coversChecks categories required = true) : categories.Perm required := by
  simp only [coversChecks, Bool.and_eq_true, beq_iff_eq, List.all_eq_true, List.contains_iff_mem]
    at h
  obtain ⟨⟨hlength, -⟩, hrequired⟩ := h
  have hsub : required.Subperm categories := List.subperm_of_subset hnodup hrequired
  exact (hsub.perm_of_length_le (Nat.le_of_eq hlength)).symm

theorem checks_iff_perm {categories required : List Text} (hnodup : required.Nodup) :
    (∀ category, categories.count category = if category ∈ required then 1 else 0) ↔
      categories.Perm required := by
  rw [List.perm_iff_count]
  exact forall_congr' fun category => by rw [hnodup.count]

theorem afterWord_blocker_of_prerequisite {line : Text}
    (h : (afterWord ("prerequisite_blocker" ++ ":").toList line).isSome) :
    afterWord ("blocker" ++ ":").toList line = none := by
  cases line with
  | nil => rfl
  | cons c cs =>
    have hp : sameLetter 'p' c = true := by
      by_contra hne
      simp [afterWord, hne] at h
    have hb : sameLetter 'b' c = false := by
      simp only [sameLetter] at hp ⊢
      grind
    simp [afterWord, hb]

theorem matchField_finding_eq_none {line : Text} :
    matchField ["blocker", "prerequisite_blocker"] line = none ↔
      matchField ["blocker"] line = none ∧ matchField ["prerequisite_blocker"] line = none := by
  have happart := @afterWord_blocker_of_prerequisite line
  simp only [matchField, List.findSome?_cons, List.findSome?_nil]
  cases hblocker : afterWord ("blocker" ++ ":").toList line with
  | none =>
    cases hprerequisite : afterWord ("prerequisite_blocker" ++ ":").toList line <;> simp
  | some rest =>
    cases hprerequisite : afterWord ("prerequisite_blocker" ++ ":").toList line with
    | none => simp
    | some tail =>
      rw [happart (Option.isSome_of_eq_some hprerequisite)] at hblocker
      cases hblocker

theorem reviewFindings_eq_nil {report : String} :
    reviewFindings report = [] ↔
      lineMatches (matchField ["blocker"]) report.toList = [] ∧
      lineMatches (matchField ["prerequisite_blocker"]) report.toList = [] := by
  rw [reviewFindings, List.map_eq_nil_iff, fields, findAll_eq_nil_iff, lineMatches_eq_nil,
    lineMatches_eq_nil, lineMatches_eq_nil, ← forall₂_and]
  exact forall₂_congr fun line _ => matchField_finding_eq_none

theorem perm_checkLines_iff {report : String} {stage : ReviewStage}
    (hcovered : coversChecks (reviewCategories report.toList) (requiredChecks stage) = true) :
    (checkLines report).Perm (requiredChecks stage) ↔
      findAll matchCheck report.toList = lineMatches matchCheck report.toList := by
  have hscanned := perm_of_coversChecks (nodup_requiredChecks stage) hcovered
  constructor
  · intro hlines
    have hlength := (hlines.trans hscanned.symm).length_eq
    simp only [checkLines, reviewCategories, List.length_map] at hlength
    exact (findAll_sublist matchCheck_advances report.toList).eq_of_length hlength.symm
  · intro hscan
    rw [checkLines, ← hscan]
    exact hscanned

/-- The runner's PASS stands for a complete and unblocked report exactly off the two oversights. -/
theorem pass_complete_iff (report : String) (stage : ReviewStage) :
    (reviewOutcome report stage = .pass → CompletePass report stage) ↔
      ¬ Overlooks report stage := by
  have hnodup := nodup_requiredChecks stage
  rw [reviewOutcome_eq_pass, findAll_head?, fields, findAll_eq_nil_iff]
  constructor
  · intro hcomplete hoverlooks
    obtain ⟨hverdict, hdeclared, hcovered, hunblocked, hhidden⟩ := hoverlooks
    have hpass := hcomplete ⟨hverdict, hdeclared, hcovered, hunblocked⟩
    rcases hhidden with hprerequisite | hinside
    · exact hprerequisite (reviewFindings_eq_nil.mp hpass.unblocked).2
    · exact hinside ((perm_checkLines_iff hcovered).mp ((checks_iff_perm hnodup).mp hpass.checks))
  · rintro hoverlooks ⟨hverdict, hdeclared, hcovered, hunblocked⟩
    have hhidden := fun h => hoverlooks ⟨hverdict, hdeclared, hcovered, hunblocked, h⟩
    rw [imp_false, not_or, not_not, not_not] at hhidden
    obtain ⟨hprerequisite, hscan⟩ := hhidden
    exact
      { verdict := hverdict
        declared := hdeclared
        checks := (checks_iff_perm hnodup).mpr ((perm_checkLines_iff hcovered).mpr hscan)
        unblocked := reviewFindings_eq_nil.mpr ⟨hunblocked, hprerequisite⟩ }

def passText (checks : List String) : Text :=
  ['\n'].intercalate (("PASS" :: "REVIEW_STAGE: review_implementation" :: checks).map String.toList)

def fullChecks : List String :=
  (reviewChecks .reviewImplementation).map fun category => "CHECK: " ++ category ++ " | ok"

def blockedPassText : Text := passText (fullChecks ++ ["PREREQUISITE_BLOCKER: no data set"])

theorem pass_with_prerequisite_blocker :
    reviewOutcome (String.ofList blockedPassText) .reviewImplementation = .pass ∧
      ¬ CompletePass (String.ofList blockedPassText) .reviewImplementation := by
  have hscans : matchVerdict "pass" (firstLine blockedPassText) = true ∧
      (findAll matchScope blockedPassText).head?.map lower = some "review_implementation".toList ∧
      coversChecks (reviewCategories blockedPassText) (requiredChecks .reviewImplementation) =
        true ∧
      fields ["blocker"] blockedPassText = [] ∧
      fields ["blocker", "prerequisite_blocker"] blockedPassText ≠ [] := by
    decide +kernel
  obtain ⟨hverdict, hscope, hchecks, hblockers, hfindings⟩ := hscans
  constructor
  · rw [reviewOutcome_eq_pass, reviewPassed, String.toList_ofList]
    exact ⟨hverdict, hscope, hchecks, hblockers⟩
  · intro hpass
    have hnone := hpass.unblocked
    rw [reviewFindings, String.toList_ofList, List.map_eq_nil_iff] at hnone
    exact hfindings hnone

example : coversChecks (reviewCategories (passText ("CHECK: spec |" :: "CHECK: leverage | none" ::
    fullChecks.tail))) (requiredChecks .reviewImplementation) = true := by
  decide +kernel

end ChainQuantStudio.Studio
