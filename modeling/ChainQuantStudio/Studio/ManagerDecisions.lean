import ChainQuantStudio.Library.Dict
import ChainQuantStudio.Library.Patterns
import ChainQuantStudio.Studio.LiveRegistry
import ChainQuantStudio.Studio.WorkOrder

/-!
# Decisions of the Manager

A message to the Manager becomes a decision. Prohibited requests and explicit stops of an agent are
recognized by pattern, ahead of the router; what the router answers is an input, and a fallback by
pattern stands in where it fails or is unsure. Which letters are word letters, for `\b`, is left to
the Unicode tables.
-/

namespace ChainQuantStudio.Studio

open Patterns PythonText

/-- `MANAGER_ACTIONS`. -/
inductive ManagerAction
  | addSignal
  | addStrategy
  | modifySignal
  | modifyStrategy
  | startSignal
  | stopSignal
  | resumeCodexWork
  | cancelWorkOrder
  | requestAgentData
  | maintenance
  | prohibitedTrading
  | prohibitedCoreChange
  | offTopic
  | clarify
  deriving DecidableEq, Repr

def ManagerAction.value : ManagerAction → String
  | .addSignal => "add_signal"
  | .addStrategy => "add_strategy"
  | .modifySignal => "modify_signal"
  | .modifyStrategy => "modify_strategy"
  | .startSignal => "start_signal"
  | .stopSignal => "stop_signal"
  | .resumeCodexWork => "resume_codex_work"
  | .cancelWorkOrder => "cancel_work_order"
  | .requestAgentData => "request_agent_data"
  | .maintenance => "maintenance"
  | .prohibitedTrading => "prohibited_trading"
  | .prohibitedCoreChange => "prohibited_core_change"
  | .offTopic => "off_topic"
  | .clarify => "clarify"

def ManagerAction.research : ManagerAction → Bool
  | .addSignal | .addStrategy | .modifySignal | .modifyStrategy => true
  | _ => false

/-- The values of the floats `0.5`, `0.6`, `0.8`, `0.9` and `0.95`. -/
def confidence50 : ℚ := 1 / 2
def confidence60 : ℚ := 5404319552844595 / 9007199254740992
def confidence80 : ℚ := 3602879701896397 / 4503599627370496
def confidence90 : ℚ := 8106479329266893 / 9007199254740992
def confidence95 : ℚ := 4278419646001971 / 4503599627370496

structure ManagerDecision where
  action : ManagerAction
  targetAgent : Option String := none
  strategyId : Option String := none
  workOrderId : Option String := none
  rationale : String := ""
  confidence : ℚ := 0
  artifactId : Option String := none
  backtestRequired : Option Bool := none
  deriving DecidableEq, Repr

def literal (text : String) : Pattern Char := .word text.toList

def literals (texts : List String) : Pattern Char := .anyOf (texts.map literal)

/-- `\s*`. -/
def blanks : Pattern Char := .many (.one isSpace)

/-- `\s+`. -/
def blanks1 : Pattern Char := .oneOrMore (.one isSpace)

/-- `.*`. -/
def anything : Pattern Char := .many (.one (· ≠ '\n'))

def containsWord (isWord : Char → Bool) (text : String) (lowered : Text) : Bool :=
  containsApart isWord text.toList lowered

def credential : Pattern Char :=
  literal "api" * blanks * literal "key" + literals ["secret", "credential"]

def prohibitedTrading : Pattern Char :=
  .anyOf [literals ["下單", "執行交易", "真實交易"],
    literal "取得" * anything * credential,
    credential * anything * literal "取得",
    literal "place" * blanks1 * .optional (literal "a" * .optional (literal "n") * blanks1) *
      literal "order",
    literal "execute" * blanks1 * .optional (literal "a" * blanks1) * literal "trade"]

def prohibitedCoreChange : Pattern Char :=
  .anyOf [literals ["底層", "核心代碼", "核心程式", "系統代碼", "修改系統", "重構系統", "控制平面",
      "交易所適配器", "基礎設施", "原始碼"],
    literal "source" * blanks * literal "code",
    literal "core" * blanks * literal "code",
    literals ["framework", "infrastructure"]]

def backtestWord : Pattern Char := literals ["backtest", "回測"]

def withoutBacktest : Pattern Char :=
  .anyOf [literals ["不用", "不需要", "不要"] * blanks * backtestWord,
    literals ["免", "略過", "跳過"] * blanks * literal "回測",
    literal "no" * blanks1 * literal "backtest",
    literal "without" * blanks1 * .optional (literal "a" * blanks1) * literal "backtest",
    literal "skip" * blanks1 * .optional (literal "the" * blanks1) * literal "backtest",
    literal "do" * blanks1 * literal "not" * blanks1 * literal "backtest",
    literal "don't" * blanks1 * literal "backtest"]

def withBacktest : Pattern Char :=
  .anyOf [literals ["需要", "要"] * blanks * backtestWord,
    literals ["執行", "進行"] * blanks * literal "回測",
    literals ["run", "with"] * blanks1 * .optional (literal "a" * blanks1) * literal "backtest"]

def hardSafetyDecision (instruction : Text) : Option ManagerDecision :=
  let lowered := lower instruction
  if prohibitedTrading.search lowered then
    some { action := .prohibitedTrading, targetAgent := some "trading", confidence := 1 }
  else if prohibitedCoreChange.search lowered then
    some { action := .prohibitedCoreChange, targetAgent := some "manager", confidence := 1 }
  else none

def explicitBacktestPreference (instruction : Text) : Option Bool :=
  let lowered := lower instruction
  if withoutBacktest.search lowered then some false
  else if withBacktest.search lowered then some true
  else none

def withExplicitBacktestPreference (decision : ManagerDecision) (instruction : Text) :
    ManagerDecision :=
  if decision.action.research then
    match explicitBacktestPreference instruction with
    | some explicit => { decision with backtestRequired := some explicit }
    | none => decision
  else decision

/-- `order.get("status") in {"queued", "working"}`. -/
def WorkOrder.isActive (order : WorkOrder) : Bool :=
  order.status == .queued || order.status == .working

def Agent.value : Agent → String
  | .strategy => "strategy"
  | .maintenance => "maintenance"

def WorkOrder.owner (order : WorkOrder) : String :=
  match order.stage.getD order.agent.stage with
  | .strategy => "strategy"
  | .reviewImplementation => "review"
  | .backtest => "backtest"
  | .reviewBacktest => "review"
  | .optimize => "optimize"
  | .maintenance => "maintenance"
  | _ => order.agent.value

def activeWorkOrderOwner (orders : List WorkOrder) (identifier : Option String) : Option String :=
  (orders.reverse.find? fun order =>
    order.isActive && identifier.all (order.id = ·)).map WorkOrder.owner

def agentWords : List (Pattern Char × String) :=
  [(literals ["backtest", "回測"] * blanks * literal "agent" + literal "回測代理", "backtest"),
    (literals ["strategy", "策略"] * blanks * literal "agent" + literal "策略代理", "strategy"),
    (literals ["review", "審查"] * blanks * literal "agent" + literal "審查代理", "review"),
    ((literal "optimi" * literals ["s", "z"] * literals ["e", "ation"] + literal "優化") * blanks *
      literal "agent" + literal "優化代理", "optimize"),
    (literals ["maintenance", "維護"] * blanks * literal "agent" + literal "維護代理",
      "maintenance")]

def explicitActiveAgentCancelDecision (instruction : Text) (orders : List WorkOrder) :
    Option ManagerDecision :=
  let lowered := lower instruction
  if (literals ["停止", "取消", "關閉", "stop", "cancel"]).search lowered then do
    let named ← agentWords.find? fun words => words.1.search lowered
    let order ← orders.reverse.find? fun order => order.isActive && order.owner == named.2
    return {
      action := .cancelWorkOrder
      targetAgent := some named.2
      workOrderId := some order.id
      rationale := "explicit stop for active " ++ named.2 ++ " stage"
      confidence := 1 }
  else none

/-- `[a-z0-9]`. -/
def isKeyChar (c : Char) : Bool := c.isLower || c.isDigit

/-- `re.sub(r"[^a-z0-9]+", "-", text.lower()).strip("-")`. -/
def artifactKey (text : Text) : Text :=
  ['-'].intercalate (((lower text).splitOnP fun c => !isKeyChar c).filter (!·.isEmpty))

def resolveExistingArtifact (available : List String) (requested : Option String)
    (instruction : Text) : Option String :=
  let normalized : List (Text × String) := available.foldl
    (fun entries identifier => Dict.set entries (artifactKey identifier.toList) identifier) []
  let candidates := ((requested.filter (· ≠ "")).map String.toList).toList ++ [instruction]
  candidates.findSome? fun candidate =>
    let key := artifactKey candidate
    match Dict.get? normalized key with
    | some identifier => some identifier
    | none => (normalized.find? fun entry => containsApart isKeyChar entry.1 key).map Prod.snd

/-- The group of the `fullmatch` of a stop that names a signal. -/
def namedStop (lowered : Text) : Option Text :=
  let isStop (text : Text) : Bool :=
    ["stop", "pause", "停止", "關閉", "暫停"].any fun word => text = word.toList
  let isSignal (text : Text) : Bool := ["signal", "訊號", "信號"].any fun word => text = word.toList
  let isIdentifier : Text → Bool
    | [] => false
    | c :: cs => isKeyChar c && cs.all fun c => isKeyChar c || ['.', '_', '-'].contains c
  match (lowered.splitOnP isSpace).filter (!·.isEmpty) with
  | [stop, identifier] => if isStop stop && isIdentifier identifier then some identifier else none
  | [stop, signal, identifier] =>
    if isStop stop && isSignal signal && isIdentifier identifier then some identifier else none
  | _ => none

def strategyWords : List String :=
  ["交易策略", "trading strategy", "strategy", "策略", "spec.md", "因子", "均線", "突破", "成交量",
    "bollinger", "ema", "macd", "stochastic", "fvg"]

def quotaReset : Pattern Char :=
  let quota := literals ["額度", "quota", "credit"]
  literal "codex" * anything * quota * anything *
      literals ["重設", "補充", "恢復", "reset", "refill", "resume"] +
    quota * anything * literals ["已重設", "已補充", "reset", "refill"] * anything *
      literals ["繼續", "恢復", "resume", "retry"]

variable (isWord : Char → Bool) (signals : List String) (orders : List WorkOrder)

def fallbackDecision (instruction : Text) : ManagerDecision :=
  let lowered := lower instruction
  let mentions (texts : List String) : Bool := (literals texts).search lowered
  let modifiesArtifact :=
    mentions ["修改", "調整", "更新", "變更", "修訂", "modify", "edit", "update", "revise"]
  let createsArtifact := mentions ["新增", "建立", "設計", "實作", "create", "add", "define",
    "implement", "build"]
  let stopped := (namedStop lowered).bind fun name =>
    resolveExistingArtifact signals (some (String.ofList name)) instruction
  let active := orders.filter WorkOrder.isActive
  if modifiesArtifact && mentions ["signal", "訊號", "信號", "中性條件"] then
    { action := .modifySignal, targetAgent := some "strategy", confidence := confidence90 }
  else if modifiesArtifact && mentions ["trading strategy", "交易策略", "strategy", "策略"] then
    { action := .modifyStrategy, targetAgent := some "strategy", confidence := confidence90 }
  else if createsArtifact && mentions ["signal", "訊號", "信號", "中性條件", "market condition"] &&
      !mentions ["trading strategy", "交易策略"] then
    { action := .addSignal, targetAgent := some "strategy", confidence := confidence90 }
  else if (createsArtifact || contains "spec.md".toList lowered) &&
      (literals strategyWords + literal "order" * .one (· ≠ '\n') * literal "block").search
        lowered then
    { action := .addStrategy, targetAgent := some "strategy", confidence := confidence90 }
  else
    match stopped with
    | some requested =>
      { action := .stopSignal, targetAgent := some "signal", strategyId := some requested,
        confidence := confidence95 }
    | none =>
      if (mentions ["啟動", "開始", "恢復"] ||
            ["start", "resume", "run"].any fun text => containsWord isWord text lowered) &&
          mentions ["signal", "訊號", "runtime"] then
        { action := .startSignal, targetAgent := some "signal",
          strategyId := resolveExistingArtifact signals none instruction,
          confidence := confidence90 }
      else if mentions ["停止", "關閉", "暫停", "stop", "pause"] &&
          mentions ["signal", "訊號", "runtime", "agent"] then
        { action := .stopSignal, targetAgent := some "signal", confidence := confidence90 }
      else
        match ["stop", "cancel", "取消", "停止"].any fun text => lowered = text.toList, active with
        | true, [order] =>
          { action := .cancelWorkOrder, targetAgent := some order.agent.value,
            workOrderId := some order.id, confidence := confidence80 }
        | _, _ =>
          if mentions ["維護", "故障", "診斷", "修復", "incident", "traceback"] ||
              (literal "runtime" * blanks1 * literal "error").search lowered then
            { action := .maintenance, targetAgent := some "maintenance",
              confidence := confidence80 }
          else if quotaReset.search lowered then
            { action := .resumeCodexWork, targetAgent := some "manager", confidence := 1 }
          else if mentions ["資料", "狀態", "報告", "進度", "結果", "日誌", "status", "report",
              "progress"] then
            { action := .requestAgentData, targetAgent := some "manager",
              confidence := confidence80 }
          else if mentions ["策略", "spec.md", "因子", "均線", "突破", "成交量", "strategy", "factor",
              "volume"] then
            { action := .addStrategy, targetAgent := some "strategy", confidence := confidence80 }
          else
            { action := .offTopic, targetAgent := some "manager", confidence := confidence50 }

/-- What `route` comes to: a decision, an exception that is caught, by the name of its type, or
another one. -/
inductive RouterReply
  | decided (decision : ManagerDecision)
  | failed (typeName : String)
  | escaped

def boundedFallback (fallback : ManagerDecision) (reason : String) (instruction : Text) :
    ManagerDecision :=
  withExplicitBacktestPreference
    { fallback with rationale := reason ++ "; used high-confidence bounded fallback" } instruction

/-- `none` for the router is `manager_router is None`; `none` for the result is an exception. -/
def routeManagerInstruction (router : Option RouterReply) (instruction : Text) :
    Option ManagerDecision :=
  let fallback := fallbackDecision isWord signals orders instruction
  match hardSafetyDecision instruction with
  | some denial => some denial
  | none =>
    match explicitActiveAgentCancelDecision instruction orders with
    | some cancel => some cancel
    | none =>
      match router with
      | none => some (withExplicitBacktestPreference fallback instruction)
      | some .escaped => none
      | some (.failed typeName) =>
        if confidence80 ≤ fallback.confidence then
          some (boundedFallback fallback ("semantic router unavailable (" ++ typeName ++ ")")
            instruction)
        else
          some {
            action := .clarify
            targetAgent := some "manager"
            rationale := "semantic router unavailable: " ++ typeName
            confidence := 0 }
      | some (.decided decision) =>
        if (decision.action = .clarify ∨ decision.action = .offTopic) ∧
            decision.confidence < confidence60 ∧ confidence80 ≤ fallback.confidence then
          some (boundedFallback fallback
            ("semantic router was low-confidence (" ++ decision.action.value ++ ")") instruction)
        else some (withExplicitBacktestPreference decision instruction)

end ChainQuantStudio.Studio
