import Mathlib.Algebra.Order.Ring.Rat
import ChainQuantStudio.Library.Dict
import ChainQuantStudio.Library.PythonText
import ChainQuantStudio.Library.Run

/-!
# The in-memory studio workflow

`QuantStudio` coordinates the agents over records it keeps in memory. An operation on a project
looks it up, checks it, changes it in place and only then emits its messages, each of which reads
the clock: an exception leaves behind what was done before it.
-/

namespace ChainQuantStudio.Workflow

open PythonText

inductive StudioAgentRole
  | manager
  | strategy
  | backtest
  | review
  | optimize
  | signal
  | maintenance
  | trading
  | system
  deriving DecidableEq, Repr

def StudioAgentRole.value : StudioAgentRole → String
  | .manager => "manager"
  | .strategy => "strategy"
  | .backtest => "backtest"
  | .review => "review"
  | .optimize => "optimize"
  | .signal => "signal"
  | .maintenance => "maintenance"
  | .trading => "trading"
  | .system => "system"

inductive WorkflowStage
  | signalImplementation
  | strategyImplementation
  | reviewingImplementation
  | awaitingImplementationApproval
  | backtesting
  | reviewingBacktest
  | optimizing
  | awaitingOptimizationApproval
  | awaitingBacktestApproval
  | awaitingLiveApproval
  | readyForSignal
  | readyForTrading
  | signalRunning
  | maintenance
  | signalStopped
  | rejected
  deriving DecidableEq, Repr

def WorkflowStage.value : WorkflowStage → String
  | .signalImplementation => "signal_implementation"
  | .strategyImplementation => "strategy_implementation"
  | .reviewingImplementation => "reviewing_implementation"
  | .awaitingImplementationApproval => "awaiting_implementation_approval"
  | .backtesting => "backtesting"
  | .reviewingBacktest => "reviewing_backtest"
  | .optimizing => "optimizing"
  | .awaitingOptimizationApproval => "awaiting_optimization_approval"
  | .awaitingBacktestApproval => "awaiting_backtest_approval"
  | .awaitingLiveApproval => "awaiting_live_approval"
  | .readyForSignal => "ready_for_signal"
  | .readyForTrading => "ready_for_trading"
  | .signalRunning => "signal_running"
  | .maintenance => "maintenance"
  | .signalStopped => "signal_stopped"
  | .rejected => "rejected"

inductive MessageLevel
  | info
  | success
  | warning
  | error
  deriving DecidableEq, Repr

inductive ArtifactKind
  | signal
  | strategy
  deriving DecidableEq, Repr

structure StrategyImplementation where
  strategyId : String
  version : String
  specPath : Option String
  modulePath : String
  testPaths : List String
  deriving DecidableEq, Repr

inductive SummaryValue
  | number (value : ℚ)
  | text (value : String)
  | none
  deriving DecidableEq, Repr

structure BacktestEvidence where
  runId : String
  manifestPath : String
  chartPaths : List String
  summary : List (String × SummaryValue)
  deriving DecidableEq, Repr

structure StudioMessage where
  sequence : ℕ
  emittedAt : ℤ
  agent : StudioAgentRole
  level : MessageLevel
  text : String
  projectId : Option String := none
  deriving DecidableEq, Repr

structure StudioProject where
  projectId : String
  title : String
  idea : Option String
  sourceSpecPath : Option String
  stage : WorkflowStage
  implementation : Option StrategyImplementation := none
  backtest : Option BacktestEvidence := none
  backtestRequired : Bool := true
  implementationReview : Option String := none
  backtestReview : Option String := none
  optimizationProposal : Option String := none
  optimizationApproved : Option Bool := none
  implementationApproved : Bool := false
  backtestApproved : Bool := false
  liveApproved : Bool := false
  userApproved : Bool := false
  runtimeError : Option String := none
  signalCount : ℕ := 0
  artifactKind : ArtifactKind := .strategy
  deriving DecidableEq, Repr

inductive StudioError
  | keyError (message : String)
  | valueError (message : String)
  | runtimeError (message : String)
  deriving DecidableEq, Repr

structure ClockReading where
  micros : ℤ
  aware : Bool := true

structure QuantStudio where
  projects : List (String × StudioProject) := []
  messages : List StudioMessage := []
  nextSequence : ℕ := 1
  readings : ℕ := 0

/-- `text.strip()`. -/
def stripped (text : String) : String := String.ofList (strip text.toList)

/-- `not text.strip()`. -/
def blank (text : String) : Bool := isBlank text.toList

def raiseUnless (condition : Prop) [Decidable condition] (error : StudioError) :
    Option StudioError :=
  if condition then none else some error

@[simp] theorem raiseUnless_eq_none {condition : Prop} [Decidable condition]
    {error : StudioError} : raiseUnless condition error = none ↔ condition := by
  simp [raiseUnless]

def requireStage (project : StudioProject) (expected : WorkflowStage) : Option StudioError :=
  raiseUnless (project.stage = expected)
    (.runtimeError ("project " ++ project.projectId ++ " must be " ++ expected.value ++ ", got " ++
      project.stage.value))

def requireText (text message : String) : Option StudioError :=
  raiseUnless (blank text = false) (.valueError message)

@[simp] theorem requireStage_eq_none {project : StudioProject} {expected : WorkflowStage} :
    requireStage project expected = none ↔ project.stage = expected := by
  simp [requireStage]

@[simp] theorem requireText_eq_none {text message : String} :
    requireText text message = none ↔ blank text = false := by
  simp [requireText]

def implementationStage : ArtifactKind → WorkflowStage
  | .signal => .signalImplementation
  | .strategy => .strategyImplementation

structure Notice where
  agent : StudioAgentRole
  level : MessageLevel
  text : String

structure Handler where
  check : StudioProject → Option StudioError
  change : StudioProject → StudioProject
  notices : StudioProject → List Notice

section Operations

variable (validate : BacktestEvidence → Option String)

def strategyImplemented (implementation : StrategyImplementation) : Handler where
  check project :=
    (raiseUnless (project.stage = .signalImplementation ∨ project.stage = .strategyImplementation)
      (.runtimeError ("expected implementation stage, got " ++ project.stage.value))).or
    (raiseUnless (implementation.testPaths ≠ [])
      (.valueError "strategy implementation requires deterministic tests"))
  change project :=
    { project with implementation := some implementation, stage := .reviewingImplementation }
  notices _ :=
    [⟨.strategy, .success, "策略 " ++ implementation.strategyId ++ " " ++ implementation.version ++
        " 已完成並交給 Review Agent。"⟩,
      ⟨.review, .info, "開始獨立檢查規格、實作與確定性測試。"⟩]

def reviewImplementation (approved : Bool) (evidence : String) : Handler where
  check project :=
    (requireStage project .reviewingImplementation).or
    (requireText evidence "implementation review evidence is required")
  change project :=
    { project with
      implementationReview := some (stripped evidence)
      stage :=
        if approved then .awaitingImplementationApproval
        else implementationStage project.artifactKind }
  notices _ :=
    [⟨.review, if approved then .success else .warning,
      if approved then "實作審查通過；等待使用者核准實作。"
      else "實作審查未通過；已退回 Strategy Agent。"⟩]

def approveImplementation (approved : Bool) (note : String) : Handler where
  check project :=
    (requireStage project .awaitingImplementationApproval).or
    (requireText note "implementation approval note is required")
  change project :=
    if approved then
      { project with
        implementationApproved := true
        stage := if project.backtestRequired then .backtesting else .awaitingLiveApproval }
    else
      { project with
        implementationApproved := false
        stage := implementationStage project.artifactKind
        implementation := none
        implementationReview := none }
  notices project :=
    let target :=
      if approved then
        if project.backtestRequired then "Backtest Agent" else "live approval gate"
      else "Strategy Agent"
    [⟨.system, if approved then .success else .warning,
      "使用者" ++ (if approved then "核准" else "退回") ++ "實作；下一站：" ++ target ++ "。備註：" ++
        stripped note⟩]

/-- `validate` is `validate_trading_performance_evidence` on the summary and the charts of the
evidence: the reason it gives for invalid evidence. -/
def backtestCompleted (evidence : BacktestEvidence) : Handler where
  check project :=
    (requireStage project .backtesting).or
    ((raiseUnless (evidence.chartPaths ≠ [])
      (.valueError "backtest evidence requires at least one chart")).or
    (if project.artifactKind = .strategy then
      (validate evidence).map fun reason =>
        .valueError ("trading-strategy backtest evidence invalid: " ++ reason)
    else none))
  change project := { project with backtest := some evidence, stage := .reviewingBacktest }
  notices _ :=
    [⟨.backtest, .success,
      "回測 " ++ evidence.runId ++ " 已完成；已交給 Review Agent 獨立驗證。"⟩]

def reviewBacktestEvidence (approved : Bool) (evidence : String) : Handler where
  check project :=
    (requireStage project .reviewingBacktest).or
    (requireText evidence "backtest review evidence is required")
  change project :=
    { project with
      backtestReview := some (stripped evidence)
      stage :=
        if approved then
          if project.artifactKind = .strategy then .optimizing else .awaitingBacktestApproval
        else .backtesting }
  notices project :=
    [⟨.review, if approved then .success else .warning,
      if approved then
        if project.artifactKind = .strategy then
          "回測證據審查通過；交給 Optimization Agent 進行穩健性診斷。"
        else "回測證據審查通過；等待使用者核准回測。"
      else "回測證據審查未通過；已退回 Backtest Agent。"⟩]

def optimizationCompleted (proposal : String) : Handler where
  check project :=
    (requireStage project .optimizing).or
    (requireText proposal "optimization proposal is required")
  change project :=
    { project with
      optimizationProposal := some (stripped proposal)
      stage := .awaitingOptimizationApproval }
  notices _ :=
    [⟨.optimize, .success,
      "優化診斷已完成；Manager Agent 正等待使用者決定是否修改策略。"⟩]

def approveOptimization (approved : Bool) (note : String) : Handler where
  check project :=
    (requireStage project .awaitingOptimizationApproval).or
    (requireText note "optimization approval note is required")
  change project :=
    if approved then
      { project with
        optimizationApproved := some true
        stage := .strategyImplementation
        implementationReview := none
        implementationApproved := false
        backtest := none
        backtestReview := none
        backtestApproved := false
        liveApproved := false }
    else
      { project with optimizationApproved := some false, stage := .awaitingBacktestApproval }
  notices _ :=
    [⟨.system, if approved then .success else .info,
      (if approved then "使用者核准優化方案；已交回 Strategy Agent 建立新版本。"
        else "使用者略過優化方案；保留目前版本並等待回測批准。") ++ " 備註：" ++ stripped note⟩]

def reviewBacktest (approved : Bool) (note : String) : Handler where
  check project :=
    (requireStage project .awaitingBacktestApproval).or
    (requireText note "backtest review note is required")
  change project :=
    if approved then
      { project with
        backtestApproved := true, userApproved := true, stage := .awaitingLiveApproval }
    else
      { project with
        backtestApproved := false, userApproved := false, stage := .backtesting
        backtest := none, backtestReview := none }
  notices _ :=
    [⟨.system, if approved then .success else .warning,
      (if approved then "使用者已核准回測；仍須獨立的上線批准。"
        else "使用者未核准回測；已退回 Backtest Agent。") ++ " 備註：" ++ stripped note⟩]

def approveLive (approved : Bool) (note : String) : Handler where
  check project :=
    (requireStage project .awaitingLiveApproval).or
    (requireText note "live approval note is required")
  change project :=
    { project with
      liveApproved := approved
      stage :=
        if approved then
          if project.artifactKind = .signal then .readyForSignal else .readyForTrading
        else .awaitingImplementationApproval }
  notices project :=
    [⟨.system, if approved then .success else .warning,
      (if approved then
        if project.artifactKind = .signal then
          "使用者已核准上線；Signal 仍須另外下達啟動命令。"
        else "使用者已核准研究結果；Trading Agent 仍硬鎖定。"
      else "使用者拒絕上線；退回實作批准閘門。") ++ " 備註：" ++ stripped note⟩]

/-- The approvals `start_signal_runtime` asks for. -/
def StudioProject.GatesPassed (project : StudioProject) : Prop :=
  project.implementationApproved = true ∧ project.liveApproved = true ∧
    project.implementation ≠ none ∧
    (project.backtestRequired = true →
      project.backtestApproved = true ∧ project.backtest ≠ none)

instance (project : StudioProject) : Decidable project.GatesPassed :=
  inferInstanceAs (Decidable (_ ∧ _))

def startSignalRuntime : Handler where
  check project :=
    (raiseUnless (project.artifactKind = .signal)
      (.runtimeError "signal runtime accepts Signal Definitions, not Trading Strategies")).or
    ((raiseUnless project.GatesPassed
      (.runtimeError "signal runtime requires all applicable approval gates")).or
    (raiseUnless (project.stage = .readyForSignal ∨ project.stage = .signalStopped)
      (.runtimeError ("cannot start signal runtime from " ++ project.stage.value))))
  change project := { project with stage := .signalRunning, runtimeError := none }
  notices _ :=
    [⟨.signal, .success, "已啟動核准 Signal 的訊號 Runtime；只發布 advisory SIGNAL。"⟩]

def stopSignalRuntime (reason : String) : Handler where
  check project :=
    raiseUnless (project.stage = .signalRunning ∨ project.stage = .maintenance)
      (.runtimeError "signal runtime is not running")
  change project := { project with stage := .signalStopped }
  notices _ :=
    [⟨.signal, .info,
      "訊號 Runtime 已停止：" ++ (if blank reason then "未提供原因" else stripped reason) ++ "。"⟩]

def publishSignal (fingerprint : String) : Handler where
  check project :=
    (requireStage project .signalRunning).or
    (requireText fingerprint "signal fingerprint is required")
  change project := { project with signalCount := project.signalCount + 1 }
  notices _ :=
    [⟨.signal, .success, "已發布 SIGNAL " ++ stripped fingerprint ++ "；等待人工判斷。"⟩,
      ⟨.trading, .warning,
        "收到 SIGNAL 通知，但交易 Agent 為硬性待機，未建立或送出任何訂單。"⟩]

def reportRuntimeError (error : String) : Handler where
  check project :=
    (requireStage project .signalRunning).or (requireText error "runtime error is required")
  change project := { project with runtimeError := some (stripped error), stage := .maintenance }
  notices _ := [⟨.maintenance, .error, "接手訊號 Runtime 問題：" ++ stripped error⟩]

def resolveRuntimeError (evidence : String) (resume : Bool) : Handler where
  check project :=
    (requireStage project .maintenance).or
    (requireText evidence "maintenance evidence is required")
  change project :=
    { project with
      runtimeError := none
      stage := if resume then .signalRunning else .signalStopped }
  notices _ :=
    [⟨.maintenance, .success,
      "問題已修復並驗證；" ++ (if resume then "訊號 Runtime 已恢復" else "訊號 Runtime 維持停止") ++
        "。證據：" ++ stripped evidence⟩]

inductive Operation
  | strategyImplemented (implementation : StrategyImplementation)
  | reviewImplementation (approved : Bool) (evidence : String)
  | approveImplementation (approved : Bool) (note : String)
  | backtestCompleted (evidence : BacktestEvidence)
  | reviewBacktestEvidence (approved : Bool) (evidence : String)
  | optimizationCompleted (proposal : String)
  | approveOptimization (approved : Bool) (note : String)
  | reviewBacktest (approved : Bool) (note : String)
  | approveLive (approved : Bool) (note : String)
  | startSignalRuntime
  | stopSignalRuntime (reason : String)
  | publishSignal (fingerprint : String)
  | reportRuntimeError (error : String)
  | resolveRuntimeError (evidence : String) (resume : Bool)
  deriving DecidableEq, Repr

def Operation.handler : Operation → Handler
  | .strategyImplemented implementation => Workflow.strategyImplemented implementation
  | .reviewImplementation approved evidence => Workflow.reviewImplementation approved evidence
  | .approveImplementation approved note => Workflow.approveImplementation approved note
  | .backtestCompleted evidence => Workflow.backtestCompleted validate evidence
  | .reviewBacktestEvidence approved evidence => Workflow.reviewBacktestEvidence approved evidence
  | .optimizationCompleted proposal => Workflow.optimizationCompleted proposal
  | .approveOptimization approved note => Workflow.approveOptimization approved note
  | .reviewBacktest approved note => Workflow.reviewBacktest approved note
  | .approveLive approved note => Workflow.approveLive approved note
  | .startSignalRuntime => Workflow.startSignalRuntime
  | .stopSignalRuntime reason => Workflow.stopSignalRuntime reason
  | .publishSignal fingerprint => Workflow.publishSignal fingerprint
  | .reportRuntimeError error => Workflow.reportRuntimeError error
  | .resolveRuntimeError evidence resume => Workflow.resolveRuntimeError evidence resume

end Operations

/-- `SAFE_PROJECT_ID`. -/
def isSafeProjectId (identifier : String) : Bool :=
  let alphanumeric (c : Char) := c.isLower || c.isDigit
  match identifier.toList with
  | [] => false
  | first :: rest =>
    alphanumeric first && 1 ≤ rest.length && rest.length ≤ 63 &&
      rest.all fun c => alphanumeric c || c == '.' || c == '_' || c == '-'

/-- The arguments of `submit_signal` and `submit_strategy`. -/
structure Submission where
  projectId : String
  title : String
  idea : Option String := none
  specPath : Option String := none
  artifactKind : ArtifactKind
  backtestRequired : Bool := true

namespace Submission

variable (submission : Submission)

def check (projects : List (String × StudioProject)) : Option StudioError :=
  (raiseUnless (isSafeProjectId submission.projectId = true)
    (.valueError "project_id must be a safe stable identifier")).or
  ((raiseUnless (Dict.get? projects submission.projectId = none)
    (.valueError ("studio project already exists: " ++ submission.projectId))).or
  ((requireText submission.title "project title is required").or
  (raiseUnless (submission.idea.any (!blank ·) || submission.specPath.any (!blank ·))
    (.valueError "an artifact idea or spec path is required"))))

def project : StudioProject where
  projectId := submission.projectId
  title := stripped submission.title
  idea := (submission.idea.filter (· ≠ "")).map stripped
  sourceSpecPath := (submission.specPath.filter (· ≠ "")).map stripped
  stage := implementationStage submission.artifactKind
  artifactKind := submission.artifactKind
  backtestRequired := submission.backtestRequired

def notice : Notice :=
  ⟨.strategy, .info,
    if submission.artifactKind = .signal then
      "已接收 Signal 需求，開始建立中性條件 spec、模組與測試。"
    else "已接收交易策略需求，開始建立方向、進出場、風控 spec 與測試。"⟩

end Submission

/-- A call of the studio. The manager's calls only write to the log. -/
inductive Request
  | submit (submission : Submission)
  | perform (projectId : String) (operation : Operation)
  | managerReceived (instruction : String) (projectId : Option String)
  | managerDelegated (target : StudioAgentRole) (projectId : String)
  | managerReported (projectId : Option String)
  | managerRefused (request : String)

namespace QuantStudio

variable (clock : ℕ → ClockReading) (validate : BacktestEvidence → Option String)
  (studio : QuantStudio)

def project? (projectId : String) : Option StudioProject := Dict.get? studio.projects projectId

def emit (projectId : Option String) (notice : Notice) : QuantStudio × Option StudioError :=
  let reading := clock studio.readings
  let read := { studio with readings := studio.readings + 1 }
  if reading.aware then
    ({ read with
      messages := studio.messages ++
        [{ sequence := studio.nextSequence, emittedAt := reading.micros, agent := notice.agent
           level := notice.level, text := notice.text, projectId := projectId }]
      nextSequence := studio.nextSequence + 1 }, none)
  else (read, some (.valueError "studio clock must return a timezone-aware datetime"))

def emitAll (projectId : Option String) :
    List Notice → QuantStudio → QuantStudio × Option StudioError
  | [], studio => (studio, none)
  | notice :: notices, studio =>
    match studio.emit clock projectId notice with
    | (studio, some error) => (studio, some error)
    | (studio, none) => emitAll projectId notices studio

/-- `self._projects[project_id] = project`, or a change of the project that is there. -/
def assign (projectId : String) (project : StudioProject) : QuantStudio :=
  { studio with projects := Dict.set studio.projects projectId project }

def submit (submission : Submission) : QuantStudio × Option StudioError :=
  match submission.check studio.projects with
  | some error => (studio, some error)
  | none =>
    (studio.assign submission.projectId submission.project).emit clock
      (some submission.projectId) submission.notice

def perform (projectId : String) (operation : Operation) : QuantStudio × Option StudioError :=
  match studio.project? projectId with
  | none => (studio, some (.keyError ("unknown studio project: " ++ projectId)))
  | some project =>
    let handler := operation.handler validate
    match handler.check project with
    | some error => (studio, some error)
    | none =>
      let project := handler.change project
      emitAll clock (some projectId) (handler.notices project) (studio.assign projectId project)

def call : Request → QuantStudio × Option StudioError
  | .submit submission => studio.submit clock submission
  | .perform projectId operation => studio.perform clock validate projectId operation
  | .managerReceived instruction projectId =>
    if blank instruction then (studio, some (.valueError "manager instruction is required"))
    else
      studio.emit clock projectId
        ⟨.manager, .info, "已接收使用者指示：" ++ stripped instruction⟩
  | .managerDelegated target projectId =>
    studio.emit clock (some projectId)
      ⟨.manager, .success, "已派工給 " ++ target.value ++ " Agent，後續由 Manager 彙整回報。"⟩
  | .managerReported projectId =>
    studio.emit clock projectId
      ⟨.manager, .success, "已向相關 Agent 蒐集狀態並完成進度報告。"⟩
  | .managerRefused request =>
    studio.emit clock none
      ⟨.manager, .warning, "Manager 拒絕超出白名單的請求：" ++
        (if blank request then "未分類請求" else stripped request)⟩

/-- `QuantStudio.__init__`. -/
def create : QuantStudio × Option StudioError :=
  ({} : QuantStudio).emit clock none
    ⟨.system, .info, "量化工作室控制層已就緒；交易 Agent 維持硬性待機。"⟩

end QuantStudio

end ChainQuantStudio.Workflow
