import ChainQuantStudio.Studio.Execution

/-!
# Prompts of the agent turns

`_prompt` builds the text an agent gets from the order as the execution holds it, the role, and the
handoff of the turn. The instruction of an order is data that nothing else of the runner reads, so
it is an argument here.
-/

namespace ChainQuantStudio.Studio

open PythonText

inductive Role
  | strategy
  | review
  | backtest
  | optimize
  | maintenance
  deriving DecidableEq, Repr

/-- `role.title()`. -/
def Role.title : Role → String
  | .strategy => "Strategy"
  | .review => "Review"
  | .backtest => "Backtest"
  | .optimize => "Optimize"
  | .maintenance => "Maintenance"

namespace WorkOrder

variable (instruction : String) (order : WorkOrder)

def promptBase : String :=
  "Work order: " ++ order.id ++ "\nBacktest required by user: " ++
    (if order.needsBacktest then "yes" else "no") ++
    "\nRequested by user through Manager Agent:\n" ++ instruction ++ "\n"

def handoffPrompt (role : Role) (prior : Option String) : String :=
  order.promptBase instruction ++ "\n" ++ role.title ++ " input handoff:\n" ++
    (if truthy prior then prior.getD "" else "No handoff was supplied.") ++
    "\nValidate the repository state rather than trusting the handoff text."

def reportSection (heading : String) (report : Option String) (cut : String → String) : String :=
  match report with
  | none => ""
  | some text => if isBlank text.toList then "" else heading ++ cut text

/-- `text[:4_000]`. -/
def clipped (text : String) : String := String.ofList (text.toList.take 4000)

def backtestPrompt (prior : Option String) : Except Failure String :=
  match order.results.dataset with
  | none => .error (valueError "backtest stage is missing the Data Service handoff")
  | some dataset =>
    if isBlank dataset.toList then
      .error (valueError "backtest stage is missing the Data Service handoff")
    else
      .ok (order.handoffPrompt instruction .backtest prior ++
        "\nDeterministic Data Service handoff (authoritative input; verify its " ++
        "dataset and provenance hashes before use):\n" ++ dataset ++
        reportSection ("\nIndependent Review Agent findings from the prior backtest " ++
          "(unverified context; address every blocker and rerun the evidence):\n")
          order.results.reviewBacktest fun text => text)

def reviewContract (stage : ReviewStage) : String :=
  "\nCurrent review stage: " ++ stage.value ++ ". Perform a complete, risk-based " ++
    "inspection of the current artifact and its changed files before returning. " ++
    "On repeat review, verify closure of every prior blocker and inspect " ++
    "affected code and tests for new regressions. " ++
    "Use the first line # PASS only if there are no blockers, otherwise # FAIL. " ++
    "Then write REVIEW_STAGE: " ++ stage.value ++ ". " ++
    "Write exactly one CHECK: <category> | <specific evidence or justified N/A> " ++
    "line for each of these categories: " ++ String.intercalate ", " (reviewChecks stage) ++
    ". For FAIL, write one BLOCKER: [stable-kebab-case-issue-id] " ++
    "<location, impact, required fix/test> line per distinct blocking defect; " ++
    "reuse the same issue ID on later reviews until it is fixed. Report all " ++
    "defects together. If and only if a blocker truly requires user-only " ++
    "input or authority, add USER_ACTION_REQUIRED: <specific action/question>; " ++
    "ordinary missing public market data or code changes belong to the " ++
    "implementing agent, not the user. For PASS, write " ++
    "no BLOCKER lines. Optional improvements use NOTE: lines and do not block. " ++
    "If a missing prerequisite or fundamental spec contradiction prevents the " ++
    "remaining checks, use # BLOCKED, REVIEW_STAGE: " ++ stage.value ++ ", " ++
    "and PREREQUISITE_BLOCKER: [stable-kebab-case-issue-id] " ++
    "<missing evidence and owner>; do not fabricate " ++
    "CHECK lines or claim a complete audit."

def reviewPrompt (prior : Option String) : Except Failure String :=
  let asked (stage : ReviewStage) : String :=
    order.handoffPrompt instruction .review prior ++
      reportSection ("\nPrior Review report (unverified context; recheck the current code " ++
        "and every required category):\n") (order.results.review stage) clipped ++
      reviewContract stage
  match order.stage with
  | some .reviewImplementation => .ok (asked .reviewImplementation)
  | some .reviewBacktest => .ok (asked .reviewBacktest)
  | stage =>
    .error (valueError ("unsupported review stage: " ++ (stage.map (·.value)).getD ""))

def optimizePrompt (prior : Option String) : String :=
  order.handoffPrompt instruction .optimize prior ++
    reportSection "\nVerified Review Agent report:\n" order.results.reviewBacktest clipped ++
    "\nReturn exactly one first-line verdict: # IMPROVE when a bounded revision " ++
    "is justified, or # KEEP when evidence does not justify changing the " ++
    "strategy. Then provide OPTIMIZATION_STAGE: post_backtest, at least one " ++
    "DIAGNOSIS: [stable-kebab-id] <evidence-backed issue or limitation>, " ++
    "PROPOSED_CHANGE: <bounded rule/parameter-family change or no-change>, " ++
    "OVERFIT_GUARD: <out-of-sample/walk-forward safeguard>, RISK: <trade-off>, " ++
    "and EXPECTED_EVIDENCE: <what a new backtest must demonstrate>. Never claim " ++
    "that a proposal is already profitable or approved."

def strategyPrompt (prior : Option String) : String :=
  match prior with
  | none => order.promptBase instruction
  | some text =>
    if text = "" then order.promptBase instruction
    else
      order.promptBase instruction ++ "\n" ++
        (if order.results.optimization = some text then
          "User-approved Optimization Agent proposal"
        else "Independent Review Agent findings from the prior implementation") ++ ":\n" ++ text ++
        "\nImplement only that approved scope, preserve the previous artifact " ++
        "version and unrelated work, increment the artifact version, and return a new " ++
        "test-backed handoff for another independent review."

def prompt (role : Role) (prior : Option String) : Except Failure String :=
  match role with
  | .strategy => .ok (order.strategyPrompt instruction prior)
  | .review => order.reviewPrompt instruction prior
  | .backtest => order.backtestPrompt instruction prior
  | .optimize => .ok (order.optimizePrompt instruction prior)
  | .maintenance => .ok (order.promptBase instruction)

end WorkOrder

/-- The prompt of an agent turn, from the order `_execute` hands to `_agent_turn`. -/
def Execution.prompt (instruction : String) (e : Execution) : Turn → Except Failure String
  | .strategy prior => e.order.prompt instruction .strategy prior
  | .review stage handoff =>
    { e.order with stage := some stage.stage, results := e.results }.prompt instruction .review
      (some handoff)
  | .backtest handoff => e.order.prompt instruction .backtest (some handoff)
  | .optimize handoff =>
    { e.order with stage := some .optimize, results := e.results }.prompt instruction .optimize
      (some handoff)
  | .maintenance => e.order.prompt instruction .maintenance none

def Mentions (prompt report : String) : Prop := report.toList <:+: prompt.toList

theorem Mentions.append_left {text report : String} (h : Mentions text report) (front : String) :
    Mentions (front ++ text) report := by
  unfold Mentions at h ⊢
  rw [String.toList_append]
  exact h.trans (List.suffix_append _ _).isInfix

theorem Mentions.append_right {text report : String} (h : Mentions text report) (back : String) :
    Mentions (text ++ back) report := by
  unfold Mentions at h ⊢
  rw [String.toList_append]
  exact h.trans (List.prefix_append _ _).isInfix

theorem Mentions.refl (report : String) : Mentions report report := List.infix_refl _

theorem strategyPrompt_mentions (instruction : String) (order : WorkOrder) {prior : String}
    (h : prior ≠ "") : Mentions (order.strategyPrompt instruction (some prior)) prior := by
  unfold WorkOrder.strategyPrompt
  dsimp only
  rw [if_neg h]
  have hprior := (Mentions.refl prior).append_left
    (order.promptBase instruction ++ "\n" ++
      (if order.results.optimization = some prior then "User-approved Optimization Agent proposal"
        else "Independent Review Agent findings from the prior implementation") ++ ":\n")
  exact ((hprior.append_right _).append_right _).append_right _

theorem backtestPrompt_mentions {instruction text report : String} {order : WorkOrder}
    {prior : Option String} (hreview : order.results.reviewBacktest = some report)
    (hblank : isBlank report.toList = false)
    (h : order.backtestPrompt instruction prior = .ok text) : Mentions text report := by
  unfold WorkOrder.backtestPrompt at h
  split at h
  · cases h
  · split at h
    · cases h
    · rw [← Except.ok.inj h]
      apply Mentions.append_left
      simp only [WorkOrder.reportSection, hreview, hblank, Bool.false_eq_true, if_false]
      exact (Mentions.refl report).append_left _

end ChainQuantStudio.Studio
