import ChainQuantStudio.Studio.Gateway
import ChainQuantStudio.Studio.ManagerDecisions
import ChainQuantStudio.Studio.StartSignal

/-!
# Messages to the Manager

Messages are handled side by side. Each is routed over the orders as they were when it came, then
makes an order or makes and awaits one call of the runtime or the worker, and at last writes the
exchange and the order it made. In between, anything else may happen to the gateway. What the router
answers, what a call returns and where a message is given up are inputs.
-/

namespace ChainQuantStudio.Studio

open Patterns PythonText Run

structure ManagerMessage where
  id : ℕ
  author : String
  text : Text
  deriving DecidableEq, Repr

def maxMessages : ℕ := 200

/-- `_append_message`: the last messages are kept. -/
def appendMessage (messages : List ManagerMessage) (said : String × Text) : List ManagerMessage :=
  let identifier := (messages.map ManagerMessage.id).foldl max 0 + 1
  let messages := messages ++ [{ id := identifier, author := said.1, text := said.2 }]
  messages.drop (messages.length - maxMessages)

def numbered (said : List (String × Text)) : List ManagerMessage :=
  (said.zipIdx 1).map fun entry => { id := entry.2, author := entry.1.1, text := entry.1.2 }

def conversation (said : List (String × Text)) : List ManagerMessage :=
  (numbered said).drop (said.length - maxMessages)

theorem numbered_length (said : List (String × Text)) : (numbered said).length = said.length := by
  simp [numbered]

theorem numbered_concat (said : List (String × Text)) (entry : String × Text) :
    numbered (said ++ [entry]) =
      numbered said ++ [{ id := said.length + 1, author := entry.1, text := entry.2 }] := by
  simp [numbered, List.zipIdx_append, Nat.add_comm]

theorem numbered_ids (said : List (String × Text)) :
    (numbered said).map ManagerMessage.id = List.range' 1 said.length := by
  rw [numbered, List.map_map, ← List.zipIdx_map_snd 1 said]
  rfl

theorem foldl_max_range' (first : ℕ) (n : ℕ) :
    (List.range' first n).foldl max 0 = if n = 0 then 0 else first + n - 1 := by
  induction n with
  | zero => rfl
  | succ n ih =>
    rw [List.range'_concat, List.foldl_append, ih, if_neg (Nat.succ_ne_zero n)]
    simp only [List.foldl_cons, List.foldl_nil]
    split <;> omega

theorem appendMessage_conversation (said : List (String × Text)) (entry : String × Text) :
    appendMessage (conversation said) entry = conversation (said ++ [entry]) := by
  have hids : ((conversation said).map ManagerMessage.id).foldl max 0 = said.length := by
    have hmax : maxMessages = 200 := rfl
    rw [conversation, List.map_drop, numbered_ids, List.drop_range', foldl_max_range']
    split <;> omega
  have hlength : (conversation said).length = said.length - (said.length - maxMessages) := by
    rw [conversation, List.length_drop, numbered_length]
  have hbound : said.length - maxMessages ≤ (numbered said).length := by
    rw [numbered_length]
    omega
  have hdrop : said.length - maxMessages +
      (said.length - (said.length - maxMessages) + 1 - maxMessages) =
        said.length + 1 - maxMessages := by
    omega
  rw [appendMessage, hids, List.length_append, hlength, List.length_singleton, conversation,
    conversation, numbered_concat, ← List.drop_append_of_le_length hbound, List.drop_drop, hdrop,
    List.length_append, List.length_singleton]

structure ManagerReads where
  worker : Bool := true
  running : Bool := false
  signalId : Option String := none
  pid : Option ℕ := none
  stores : Stores
  roots : RegistryKind → ImplementedRoot

structure ManagerResult where
  reply : String
  denied : Bool := false
  handoff : Option String := none
  action : Option String := none
  deriving DecidableEq, Repr

inductive ManagerStep
  | finished (result : ManagerResult)
  | creates (work : NewWork) (instruction : Text) (result : String → ManagerResult)
  | stops (result : Bool → ManagerResult)
  | starts (signalId version : String) (result : Option ℕ → ManagerResult)
  | resumes (identifier : Option String) (result : List String → ManagerResult)
  | cancels (identifier : Option String) (result : String → ManagerResult)

def ArtifactKind.display : ArtifactKind → String
  | .signal => "Signal Definition"
  | _ => "Strategy"

def denial (reply : String) (action : Option String) : ManagerStep :=
  .finished { reply, denied := true, action }

/-- `add_signal` and `add_strategy`. -/
def addArtifact (kind : ArtifactKind) (instruction : Text) (backtestRequired : Bool)
    (opening agentWork closing action : String) : ManagerStep :=
  .creates (.research kind backtestRequired .create none false) instruction fun identifier =>
    { reply := opening ++ identifier ++ " 並持久化。" ++ agentWork ++
        (if backtestRequired then "工作會在實作批准後進入回測與證據審查，"
          else "使用者已選擇略過回測；工作只會經過實作與上線批准，") ++ closing
      handoff := some "strategy"
      action := some action }

/-- `modify_signal` and `modify_strategy`. -/
def modifyArtifact (kind : ArtifactKind) (available : List String) (instruction : Text)
    (decision : ManagerDecision) : ManagerStep :=
  let action := some decision.action.value
  match resolveExistingArtifact available decision.artifactId instruction with
  | none =>
    denial ("請指定要修改的既有 " ++ kind.value ++ " ID。目前可用：" ++
      (if available = [] then "none" else ", ".intercalate available) ++ "。") action
  | some artifactId =>
    let backtestRequired := decision.backtestRequired.getD true
    .creates (.research kind backtestRequired .modify (some artifactId) false)
      (("修改既有 " ++ kind.value ++ " `" ++ artifactId ++ "`，建立新的版本化工件。使用者要求：").toList ++
        instruction)
      fun identifier =>
        { reply := "已建立修改 " ++ kind.display ++ " `" ++ artifactId ++ "` 的工作單 " ++ identifier ++
            "。" ++ (if backtestRequired then "實作批准後會執行回測；" else "使用者已選擇略過回測；") ++
            "Strategy Agent 會建立新版本，Review Agent 會獨立檢查，原版本保持不變且不會自動上線。"
          handoff := some "strategy"
          action }

def clarification (rationale : String) : String :=
  let question := strip rationale.toList
  let reply := if question = [] then
      ("我需要更明確的工作目標：請說明要新增 Signal、建立交易策略、啟停 Signal、取消工作單、查看報告，" ++
        "或處理執行錯誤。").toList
    else question
  String.ofList
    (if reply.getLast? = some '?' ∨ reply.getLast? = some '？' then reply
      else "需要使用者補充後才能繼續：".toList ++ reply)

def handleDecision (sha256 : List UInt8 → String) (reads : ManagerReads) (instruction : Text)
    (orders : List WorkOrder) (decision : ManagerDecision) : Except Json.PyError ManagerStep :=
  match decision.action with
  | .prohibitedTrading =>
    .ok (denial ("拒絕：Manager Agent 無權取得憑證、呼叫驗證端點或執行交易；" ++
      "Trading Agent 維持硬鎖定。") none)
  | .prohibitedCoreChange =>
    .ok (denial "拒絕：Manager Agent 不能修改底層系統。請在主要 Codex 開發對話提出此需求。" none)
  | .maintenance =>
    .ok (.creates .maintenance instruction fun identifier =>
      { reply := "已建立 Maintenance Agent 工作單 " ++ identifier ++
          "。Codex worker 會診斷、建立回歸測試並提出最小修正；不會改變已核准策略規則或啟動交易。"
        handoff := some "maintenance"
        action := some "manage_workflow" })
  | .stopSignal =>
    let requested := (decision.strategyId.filter (· ≠ "")).or decision.artifactId
    if requested.isSome ∧ reads.running = true ∧ reads.signalId ≠ requested then
      .ok (denial ("未停止：目前執行的是 " ++ (reads.signalId.filter (· ≠ "")).getD "unknown" ++
        "，不是 " ++ requested.getD "" ++ "。") (some "stop_signal"))
    else
      .ok (.stops fun running =>
        { reply := if running then "Signal Agent 正在關閉。" else "Signal Agent 已完成正常關閉。"
          handoff := some "signal"
          action := some "stop_signal" })
  | .startSignal => do
    match ← startSignal sha256 reads.stores
        { strategyId := decision.strategyId, artifactId := decision.artifactId } with
    | .denied reply => return denial reply none
    | .selected signalId version =>
      return .starts signalId version fun pid =>
        { reply := "Signal Agent 已啟動 " ++ signalId ++ "，PID " ++
            (pid.map toString).getD "None" ++ "；目前只發布 advisory SIGNAL。"
          handoff := some "signal"
          action := some "start_signal" }
  | .resumeCodexWork =>
    if reads.worker = false then
      .ok (denial "目前沒有可用的 Codex 工作單執行器。" (some decision.action.value))
    else
      .ok (.resumes decision.workOrderId fun resumed =>
        { reply := if resumed = [] then
              "已關閉 Codex circuit breaker，但目前沒有受額度限制的工作單。"
            else "已重新探測 Codex 工作佇列並恢復：" ++ ", ".intercalate resumed ++
              "。若額度仍不可用，circuit breaker 會以新的恢復時間再次開啟。"
          handoff := some "review"
          action := some decision.action.value })
  | .cancelWorkOrder =>
    if reads.worker = false then .ok (denial "目前沒有可用的工作單執行器。" none)
    else
      let handoff := activeWorkOrderOwner orders decision.workOrderId
      .ok (.cancels decision.workOrderId fun cancelled =>
        { reply := "已取消工作單 " ++ cancelled ++ "。"
          handoff := handoff.or (some (decision.targetAgent.getD "manager"))
          action := some "cancel_work_order" })
  | .requestAgentData =>
    let count (status : Status) : String :=
      toString (orders.countP fun order => order.status == status)
    -- No order has the status `awaiting_review`, which the report counts last.
    .ok (.finished
      { reply := "即時報告：Signal Runtime " ++ (if reads.running then "執行中" else "已停止") ++
          (if reads.running then "（PID " ++ (reads.pid.map toString).getD "None" ++ "）" else "") ++
          "；工作單待處理 " ++ count .queued ++ " 件、執行中 " ++ count .working ++
          " 件、待審核 0 件；Backtest runner 可用；Trading Agent 硬鎖定。"
        handoff := some "maintenance"
        action := some "request_agent_data" })
  | .addSignal =>
    .ok (addArtifact .signal instruction (decision.backtestRequired.getD true)
      "已建立 Signal Definition 工作單 "
      "Strategy Agent 會實作中性市場條件與測試；Review Agent 會獨立檢查，"
      "不會自動啟動 Runtime 或建立交易策略。" "add_signal")
  | .addStrategy =>
    .ok (addArtifact .strategy instruction (decision.backtestRequired.getD true)
      "已建立 Strategy Agent 工作單 "
      "Codex worker 會建立方向、進出場與風控規則並測試；Review Agent 會獨立檢查，"
      "不會自動送入 Signal Agent。" "add_strategy")
  | .modifySignal =>
    .ok (modifyArtifact .signal (reads.roots .signal).registeredArtifacts instruction decision)
  | .modifyStrategy =>
    .ok (modifyArtifact .strategy (reads.roots .strategy).registeredArtifacts instruction decision)
  | .clarify => .ok (denial (clarification decision.rationale) none)
  | .offTopic =>
    if decision.confidence < confidence60 then
      .ok (denial (clarification decision.rationale) none)
    else .ok (denial "拒絕：這項要求不屬於 Cha!n Quant Studio 的管理範圍。" none)

inductive ManagerCall
  | idle
  | routing (orders : List WorkOrder)
  | acting (step : ManagerStep)
  | persisting (work : Option (NewWork × String)) (reply : String)
  | over

structure ManagerReturn where
  running : Bool := false
  pid : Option ℕ := none
  resumed : List String := []
  cancelled : String := ""

inductive Deed
  | gateway (input : Input)
  | start (signalId version : String)
  | stop

def Deed.input? : Deed → Option Input
  | .gateway input => some input
  | _ => none

/-- `said` and `deeds` list all that was said and done, with the message that did it; `reads` is
what each message read when it was routed. -/
structure ManagerSystem (κ : Type*) where
  gateway : Gateway
  messages : List ManagerMessage := []
  calls : κ → ManagerCall := fun _ => .idle
  instructions : κ → Text := fun _ => []
  reads : κ → Option ManagerReads := fun _ => none
  said : List (String × Text) := []
  deeds : List (Option κ × Deed) := []

/-- `other` is whatever else happens to the gateway and is said about it. -/
inductive ManagerEvent (κ : Type*)
  | receive (caller : κ) (text : Text)
  | route (caller : κ) (router : Option RouterReply) (reads : ManagerReads) (stamp : Option String)
  | act (caller : κ) (outside : Outside) (returned : Option ManagerReturn)
  | persist (caller : κ)
  | abort (caller : κ)
  | other (input : Input) (said : List (String × Text))

def NewWork.kind : NewWork → ArtifactKind
  | .maintenance => .maintenance
  | .research kind _ _ _ _ => kind
  | .adoption kind _ _ _ _ _ => kind

def ManagerStep.reply (returned : ManagerReturn) : ManagerStep → String
  | .finished result => result.reply
  | .creates _ _ _ => ""
  | .stops result => (result returned.running).reply
  | .starts _ _ result => (result returned.pid).reply
  | .resumes _ result => (result returned.resumed).reply
  | .cancels _ result => (result returned.cancelled).reply

def ManagerStep.deed (outside : Outside) : ManagerStep → Option Deed
  | .stops _ => some .stop
  | .starts signalId version _ => some (.start signalId version)
  | .resumes identifier _ => some (.gateway { event := .resumeQuota identifier, outside })
  | .cancels identifier _ => some (.gateway { event := .cancel identifier, outside })
  | _ => none

/-- `none` is an exception that the call raises. -/
def ManagerStep.returns (returned : Option ManagerReturn) (step : ManagerStep) : ManagerCall :=
  match returned with
  | none => .over
  | some returned => .persisting none (step.reply returned)

/-- Nothing is awaited between the decision and the order made on it; `stamp` is `none` where the
directory of the order exists. -/
def routed (sha256 : List UInt8 → String) (isWord : Char → Bool) (instruction : Text)
    (orders : List WorkOrder) (router : Option RouterReply) (reads : ManagerReads)
    (stamp : Option String) : ManagerCall :=
  match routeManagerInstruction isWord (reads.roots .signal).registeredArtifacts orders router
      instruction with
  | none => .over
  | some decision =>
    match handleDecision sha256 reads instruction orders decision with
    | .error _ => .over
    | .ok (.finished result) => .persisting none result.reply
    | .ok (.creates work _ result) =>
      match stamp with
      | none => .over
      | some stamp =>
        .persisting (some (work, stamp)) (result (work.kind.value ++ "-" ++ stamp)).reply
    | .ok step => .acting step

namespace ManagerSystem

variable {κ : Type*} [DecidableEq κ] (config : RunnerConfig) (sha256 : List UInt8 → String)
  (isWord : Char → Bool) (s : ManagerSystem κ)

def put (caller : κ) (call : ManagerCall) : ManagerSystem κ :=
  { s with calls := Function.update s.calls caller call }

def note (caller : κ) (instruction : Text) : ManagerSystem κ :=
  { s with instructions := Function.update s.instructions caller instruction }

def observe (caller : κ) (reads : ManagerReads) : ManagerSystem κ :=
  { s with reads := Function.update s.reads caller (some reads) }

def say (said : List (String × Text)) : ManagerSystem κ :=
  { s with messages := run appendMessage s.messages said, said := s.said ++ said }

def perform (origin : Option κ) (deed : Deed) : ManagerSystem κ :=
  { s with
    gateway := run (Gateway.step config) s.gateway deed.input?.toList
    deeds := s.deeds ++ [(origin, deed)] }

variable {s}

theorem calls_put_self (caller : κ) (call : ManagerCall) :
    (s.put caller call).calls caller = call := Function.update_self _ _ _

theorem calls_put_of_ne {caller other : κ} (h : other ≠ caller) (call : ManagerCall) :
    (s.put caller call).calls other = s.calls other := Function.update_of_ne h _ _

theorem say_put (said : List (String × Text)) (caller : κ) (call : ManagerCall) :
    (s.say said).put caller call = (s.put caller call).say said := rfl

theorem instructions_note_self (caller : κ) (instruction : Text) :
    (s.note caller instruction).instructions caller = instruction := Function.update_self _ _ _

theorem instructions_note_of_ne {caller other : κ} (h : other ≠ caller) (instruction : Text) :
    (s.note caller instruction).instructions other = s.instructions other :=
  Function.update_of_ne h _ _

theorem reads_observe_self (caller : κ) (reads : ManagerReads) :
    (s.observe caller reads).reads caller = some reads := Function.update_self _ _ _

theorem reads_observe_of_ne {caller other : κ} (h : other ≠ caller) (reads : ManagerReads) :
    (s.observe caller reads).reads other = s.reads other := Function.update_of_ne h _ _

variable (s)

/-- `MAX_MESSAGE_LENGTH`. -/
def maxMessageLength : ℕ := 4000

def step : ManagerEvent κ → ManagerSystem κ
  | .receive caller text =>
    match s.calls caller with
    | .idle =>
      let instruction := strip text
      let call := if instruction = [] ∨ maxMessageLength < instruction.length then ManagerCall.over
        else .routing s.gateway.durable.store.workOrders.entries
      (s.note caller instruction).put caller call
    | _ => s
  | .route caller router reads stamp =>
    match s.calls caller with
    | .routing orders =>
      (s.observe caller reads).put caller
        (routed sha256 isWord (s.instructions caller) orders router reads stamp)
    | _ => s
  | .act caller outside returned =>
    match s.calls caller with
    | .acting step =>
      match step.deed outside with
      | none => s.put caller (step.returns returned)
      | some deed => (s.perform config (some caller) deed).put caller (step.returns returned)
    | _ => s
  | .persist caller =>
    match s.calls caller with
    | .persisting work reply =>
      let exchange := [("YOU", s.instructions caller), ("MANAGER", reply.toList)]
      match work with
      | none => (s.say exchange).put caller .over
      | some (work, stamp) =>
        ((s.perform config (some caller) (.gateway { event := .create work stamp })).say
          exchange).put caller .over
    | _ => s
  | .abort caller => s.put caller .over
  | .other input said => (s.perform config none (.gateway input)).say said

end ManagerSystem

end ChainQuantStudio.Studio
