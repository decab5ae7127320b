import ChainQuantStudio.Library.Columns
import ChainQuantStudio.Studio.ManagerMessages

/-!
# What a message can lead to

Whatever the router answers and however the messages interleave, a message does at most one thing,
and never one that the patterns ahead of the router prohibit: it makes one order, which heeds an
explicit word on the backtest, resumes or cancels work, or stops or starts the signal runtime.
-/

namespace ChainQuantStudio.Studio

open Patterns PythonText Run

def RegistryKind.artifactKind : RegistryKind → ArtifactKind
  | .signal => .signal
  | .strategy => .strategy

inductive Permitted (sha256 : List UInt8 → String) (instruction : Text) (reads : ManagerReads) :
    Deed → Prop
  | maintenance (stamp : String) :
    Permitted sha256 instruction reads (.gateway { event := .create .maintenance stamp })
  | create (kind : ArtifactKind) (backtestRequired : Bool) (stamp : String)
      (heeds : ∀ explicit, explicitBacktestPreference instruction = some explicit →
        backtestRequired = explicit) :
    Permitted sha256 instruction reads
      (.gateway { event := .create (.research kind backtestRequired .create none false) stamp })
  | modify (kind : RegistryKind) (backtestRequired : Bool) (artifactId stamp : String)
      (heeds : ∀ explicit, explicitBacktestPreference instruction = some explicit →
        backtestRequired = explicit)
      (registered : artifactId ∈ (reads.roots kind).registeredArtifacts) :
    Permitted sha256 instruction reads (.gateway
      { event := .create (.research kind.artifactKind backtestRequired .modify (some artifactId)
          false) stamp })
  | resume (identifier : Option String) (outside : Outside) :
    Permitted sha256 instruction reads (.gateway { event := .resumeQuota identifier, outside })
  | cancel (identifier : Option String) (outside : Outside) :
    Permitted sha256 instruction reads (.gateway { event := .cancel identifier, outside })
  | start (decision : StartDecision) (signalId version : String)
      (selected : startSignal sha256 reads.stores decision = .ok (.selected signalId version)) :
    Permitted sha256 instruction reads (.start signalId version)
  | stop : Permitted sha256 instruction reads .stop

theorem hardSafetyDecision_eq_none {instruction : Text} :
    hardSafetyDecision instruction = none ↔
      prohibitedTrading.search (lower instruction) = false ∧
        prohibitedCoreChange.search (lower instruction) = false := by
  rw [hardSafetyDecision]
  cases prohibitedTrading.search (lower instruction) <;>
    cases prohibitedCoreChange.search (lower instruction) <;> simp

theorem hardSafetyDecision_action {instruction : Text} {decision : ManagerDecision}
    (h : hardSafetyDecision instruction = some decision) :
    decision.action = .prohibitedTrading ∨ decision.action = .prohibitedCoreChange := by
  rw [hardSafetyDecision] at h
  split_ifs at h
  · left
    rw [← Option.some.inj h]
  · right
    rw [← Option.some.inj h]

theorem lower_piece {piece text : Text} (h : piece <:+: text) : lower piece <:+: lower text := by
  obtain ⟨before, after, rfl⟩ := h
  exact ⟨lower before, lower after, by simp [lower, List.flatMap_append]⟩

theorem search_eq_false_of_piece {pattern : Pattern Char} {piece text : Text} (h : piece <:+: text)
    (hnone : pattern.search text = false) : pattern.search piece = false := by
  rw [Bool.eq_false_iff] at hnone ⊢
  intro hfound
  exact hnone (Pattern.search_of_piece h hfound)

theorem hardSafetyDecision_of_piece {piece text : Text} (h : piece <:+: text)
    (hnone : hardSafetyDecision text = none) : hardSafetyDecision piece = none := by
  rw [hardSafetyDecision_eq_none] at hnone ⊢
  exact ⟨search_eq_false_of_piece (lower_piece h) hnone.1,
    search_eq_false_of_piece (lower_piece h) hnone.2⟩

example : (hardSafetyDecision "Please PLACE an  order".toList).map ManagerDecision.action =
    some .prohibitedTrading := by decide +kernel

def ManagerDecision.Heeds (decision : ManagerDecision) (instruction : Text) : Prop :=
  decision.action.research = true → ∀ explicit,
    explicitBacktestPreference instruction = some explicit →
      decision.backtestRequired.getD true = explicit

theorem withExplicitBacktestPreference_heeds (decision : ManagerDecision) (instruction : Text) :
    (withExplicitBacktestPreference decision instruction).Heeds instruction := by
  intro hresearch explicit hexplicit
  rw [withExplicitBacktestPreference, hexplicit] at hresearch ⊢
  by_cases hdecision : decision.action.research = true
  · simp [hdecision]
  · simp [hdecision] at hresearch

theorem heeds_of_not_research {decision : ManagerDecision} {instruction : Text}
    (h : decision.action.research = false) : decision.Heeds instruction := by
  intro hresearch
  rw [h] at hresearch
  cases hresearch

theorem cancelDecision_action {instruction : Text} {orders : List WorkOrder}
    {decision : ManagerDecision}
    (h : explicitActiveAgentCancelDecision instruction orders = some decision) :
    decision.action = .cancelWorkOrder := by
  rw [explicitActiveAgentCancelDecision] at h
  split_ifs at h
  obtain ⟨named, -, h⟩ := Option.bind_eq_some_iff.mp h
  obtain ⟨order, -, h⟩ := Option.bind_eq_some_iff.mp h
  rw [← Option.some.inj h]

theorem route_heeds {isWord : Char → Bool} {signals : List String} {orders : List WorkOrder}
    {router : Option RouterReply} {instruction : Text} {decision : ManagerDecision}
    (h : routeManagerInstruction isWord signals orders router instruction = some decision) :
    hardSafetyDecision instruction = some decision ∨
      hardSafetyDecision instruction = none ∧ decision.Heeds instruction := by
  unfold routeManagerInstruction at h
  cases hhard : hardSafetyDecision instruction with
  | some denial =>
    left
    rw [hhard] at h
    exact h
  | none =>
    right
    refine ⟨rfl, ?_⟩
    rw [hhard] at h
    dsimp only at h
    cases hcancel : explicitActiveAgentCancelDecision instruction orders with
    | some cancel =>
      rw [hcancel] at h
      obtain rfl := Option.some.inj h
      apply heeds_of_not_research
      rw [cancelDecision_action hcancel]
      rfl
    | none =>
      rw [hcancel] at h
      dsimp only at h
      split at h
      · rw [← Option.some.inj h]
        exact withExplicitBacktestPreference_heeds _ _
      · cases h
      · split_ifs at h
        · rw [← Option.some.inj h]
          exact withExplicitBacktestPreference_heeds _ _
        · rw [← Option.some.inj h]
          exact heeds_of_not_research rfl
      · split_ifs at h
        · rw [← Option.some.inj h]
          exact withExplicitBacktestPreference_heeds _ _
        · rw [← Option.some.inj h]
          exact withExplicitBacktestPreference_heeds _ _

theorem mem_normalized {available : List String} {entries : List (Text × String)}
    {entry : Text × String}
    (h : entry ∈ available.foldl (fun entries identifier =>
      Dict.set entries (artifactKey identifier.toList) identifier) entries) :
    entry ∈ entries ∨ entry.2 ∈ available := by
  induction available generalizing entries with
  | nil => exact Or.inl h
  | cons identifier rest ih =>
    rcases ih h with hmem | hmem
    · rcases Dict.mem_set hmem with hmem | hmem
      · exact Or.inl hmem
      · right
        rw [hmem]
        exact List.mem_cons_self
    · exact Or.inr (List.mem_cons_of_mem identifier hmem)

theorem resolveExistingArtifact_mem {available : List String} {requested : Option String}
    {instruction : Text} {artifactId : String}
    (h : resolveExistingArtifact available requested instruction = some artifactId) :
    artifactId ∈ available := by
  rw [resolveExistingArtifact] at h
  obtain ⟨candidate, -, h⟩ := List.exists_of_findSome?_eq_some h
  dsimp only at h
  split at h
  · rename_i identifier hget
    rw [Option.some.inj h] at hget
    exact (mem_normalized (Dict.mem_of_get? hget)).resolve_left List.not_mem_nil
  · obtain ⟨entry, hfind, rfl⟩ := Option.map_eq_some_iff.mp h
    exact (mem_normalized (List.mem_of_find?_eq_some hfind)).resolve_left List.not_mem_nil

def ManagerStep.Within (sha256 : List UInt8 → String) (instruction : Text) (reads : ManagerReads) :
    ManagerStep → Prop
  | .creates work _ _ => ∀ stamp,
    Permitted sha256 instruction reads (.gateway { event := .create work stamp })
  | step => ∀ outside deed, step.deed outside = some deed →
    Permitted sha256 instruction reads deed

theorem denial_within (sha256 : List UInt8 → String) (instruction : Text) (reads : ManagerReads)
    (reply : String) (action : Option String) :
    (denial reply action).Within sha256 instruction reads := by
  intro outside deed hdeed
  cases hdeed

theorem modifyArtifact_within (sha256 : List UInt8 → String) (reads : ManagerReads)
    (kind : RegistryKind) {instruction : Text} {decision : ManagerDecision}
    (hresearch : decision.action.research = true) (hheeds : decision.Heeds instruction) :
    (modifyArtifact kind.artifactKind (reads.roots kind).registeredArtifacts instruction
      decision).Within sha256 instruction reads := by
  rw [modifyArtifact]
  dsimp only
  split
  · exact denial_within sha256 instruction reads _ _
  · rename_i artifactId hresolve
    intro stamp
    exact .modify kind _ artifactId stamp (hheeds hresearch) (resolveExistingArtifact_mem hresolve)

theorem handleDecision_within {sha256 : List UInt8 → String} {reads : ManagerReads}
    {instruction : Text} {orders : List WorkOrder} {decision : ManagerDecision} {step : ManagerStep}
    (hheeds : decision.Heeds instruction)
    (h : handleDecision sha256 reads instruction orders decision = .ok step) :
    step.Within sha256 instruction reads := by
  rw [handleDecision] at h
  cases haction : decision.action with
  | prohibitedTrading | prohibitedCoreChange =>
    rw [haction] at h
    cases h
    exact denial_within sha256 instruction reads _ _
  | maintenance =>
    rw [haction] at h
    cases h
    exact .maintenance
  | stopSignal =>
    rw [haction] at h
    dsimp only at h
    split_ifs at h
    · cases h
      exact denial_within sha256 instruction reads _ _
    · cases h
      intro outside deed hdeed
      cases hdeed
      exact .stop
  | startSignal =>
    rw [haction] at h
    obtain ⟨outcome, hselected, h⟩ := Columns.bind_eq_ok.mp h
    cases outcome with
    | denied reply =>
      cases h
      exact denial_within sha256 instruction reads _ _
    | selected signalId version =>
      cases h
      intro outside deed hdeed
      cases hdeed
      exact .start _ signalId version hselected
  | resumeCodexWork =>
    rw [haction] at h
    dsimp only at h
    split_ifs at h
    · cases h
      exact denial_within sha256 instruction reads _ _
    · cases h
      intro outside deed hdeed
      cases hdeed
      exact .resume _ _
  | cancelWorkOrder =>
    rw [haction] at h
    dsimp only at h
    split_ifs at h
    · cases h
      exact denial_within sha256 instruction reads _ _
    · cases h
      intro outside deed hdeed
      cases hdeed
      exact .cancel _ _
  | requestAgentData =>
    rw [haction] at h
    cases h
    intro outside deed hdeed
    cases hdeed
  | addSignal =>
    rw [haction] at h
    cases h
    intro stamp
    exact .create .signal _ stamp (hheeds (by rw [haction]; rfl))
  | addStrategy =>
    rw [haction] at h
    cases h
    intro stamp
    exact .create .strategy _ stamp (hheeds (by rw [haction]; rfl))
  | modifySignal =>
    rw [haction] at h
    cases h
    exact modifyArtifact_within sha256 reads .signal (by rw [haction]; rfl) hheeds
  | modifyStrategy =>
    rw [haction] at h
    cases h
    exact modifyArtifact_within sha256 reads .strategy (by rw [haction]; rfl) hheeds
  | clarify =>
    rw [haction] at h
    cases h
    exact denial_within sha256 instruction reads _ _
  | offTopic =>
    rw [haction] at h
    dsimp only at h
    split_ifs at h
    · cases h
      exact denial_within sha256 instruction reads _ _
    · cases h
      exact denial_within sha256 instruction reads _ _

def ManagerCall.credit : ManagerCall → ℕ
  | .idle | .routing _ | .acting _ | .persisting (some _) _ => 1
  | .persisting none _ | .over => 0

def Allowed (sha256 : List UInt8 → String) (instruction : Text) (reads : Option ManagerReads)
    (deed : Deed) : Prop :=
  hardSafetyDecision instruction = none ∧
    ∃ read, reads = some read ∧ Permitted sha256 instruction read deed

def ManagerCall.Within (sha256 : List UInt8 → String) (instruction : Text)
    (reads : Option ManagerReads) : ManagerCall → Prop
  | .acting step => ∀ outside deed, step.deed outside = some deed →
    Allowed sha256 instruction reads deed
  | .persisting (some (work, stamp)) _ =>
    Allowed sha256 instruction reads (.gateway { event := .create work stamp })
  | _ => True

theorem routed_credit (sha256 : List UInt8 → String) (isWord : Char → Bool) (instruction : Text)
    (orders : List WorkOrder) (router : Option RouterReply) (reads : ManagerReads)
    (stamp : Option String) :
    (routed sha256 isWord instruction orders router reads stamp).credit ≤ 1 := by
  cases routed sha256 isWord instruction orders router reads stamp with
  | persisting work reply => cases work <;> simp [ManagerCall.credit]
  | _ => simp [ManagerCall.credit]

theorem returns_credit (returned : Option ManagerReturn) (step : ManagerStep) :
    (step.returns returned).credit = 0 := by
  cases returned <;> rfl

theorem returns_within (sha256 : List UInt8 → String) (instruction : Text)
    (reads : Option ManagerReads) (returned : Option ManagerReturn) (step : ManagerStep) :
    (step.returns returned).Within sha256 instruction reads := by
  cases returned <;> trivial

theorem handleDecision_prohibited {sha256 : List UInt8 → String} {reads : ManagerReads}
    {instruction : Text} {orders : List WorkOrder} {decision : ManagerDecision}
    (h : hardSafetyDecision instruction = some decision) :
    ∃ result, handleDecision sha256 reads instruction orders decision = .ok (.finished result) := by
  rw [handleDecision]
  rcases hardSafetyDecision_action h with haction | haction
  · rw [haction]
    exact ⟨_, rfl⟩
  · rw [haction]
    exact ⟨_, rfl⟩

theorem routed_within (sha256 : List UInt8 → String) (isWord : Char → Bool) (instruction : Text)
    (orders : List WorkOrder) (router : Option RouterReply) (reads : ManagerReads)
    (stamp : Option String) :
    (routed sha256 isWord instruction orders router reads stamp).Within sha256 instruction
      (some reads) := by
  rw [routed]
  split
  · trivial
  · rename_i decision hroute
    rcases route_heeds hroute with hhard | ⟨hhard, hheeds⟩
    · obtain ⟨result, hresult⟩ :=
        @handleDecision_prohibited sha256 reads instruction orders decision hhard
      rw [hresult]
      trivial
    · split
      · trivial
      · trivial
      · rename_i work text result hhandle
        split
        · trivial
        · rename_i stamp
          exact ⟨hhard, reads, rfl, handleDecision_within hheeds hhandle stamp⟩
      · rename_i step _ hcreates hhandle
        intro outside deed hdeed
        have hwithin := handleDecision_within hheeds hhandle
        cases step with
        | creates work text result => exact absurd rfl (hcreates work text result)
        | _ => exact ⟨hhard, reads, rfl, hwithin outside deed hdeed⟩

namespace ManagerSystem

variable {κ : Type*} [DecidableEq κ] {config : RunnerConfig} {sha256 : List UInt8 → String}
  {isWord : Char → Bool} {start : Gateway} {s : ManagerSystem κ}

def deedsOf (caller : κ) (s : ManagerSystem κ) : List (Option κ × Deed) :=
  s.deeds.filter fun entry => entry.1 = some caller

structure Sound (config : RunnerConfig) (sha256 : List UInt8 → String) (start : Gateway)
    (s : ManagerSystem κ) : Prop where
  gateway : s.gateway = run (Gateway.step config) start (s.deeds.filterMap fun entry =>
    entry.2.input?)
  messages : s.messages = conversation s.said
  once : ∀ caller, (s.deedsOf caller).length + (s.calls caller).credit ≤ 1
  within : ∀ caller, (s.calls caller).Within sha256 (s.instructions caller) (s.reads caller)
  allowed : ∀ caller deed, (some caller, deed) ∈ s.deeds →
    Allowed sha256 (s.instructions caller) (s.reads caller) deed

theorem run_appendMessage (said exchange : List (String × Text)) :
    run appendMessage (conversation said) exchange = conversation (said ++ exchange) := by
  induction exchange generalizing said with
  | nil => rw [run_nil, List.append_nil]
  | cons entry rest ih =>
    rw [run_cons, appendMessage_conversation, ih, List.append_assoc, List.singleton_append]

theorem Sound.say (h : Sound config sha256 start s) (said : List (String × Text)) :
    Sound config sha256 start (s.say said) where
  gateway := h.gateway
  messages := by
    change run appendMessage s.messages said = conversation (s.said ++ said)
    rw [h.messages, run_appendMessage]
  once := h.once
  within := h.within
  allowed := h.allowed

theorem Sound.put (h : Sound config sha256 start s) {caller : κ} {call : ManagerCall}
    (hcredit : call.credit ≤ (s.calls caller).credit)
    (hwithin : call.Within sha256 (s.instructions caller) (s.reads caller)) :
    Sound config sha256 start (s.put caller call) where
  gateway := h.gateway
  messages := h.messages
  once other := by
    have honce := h.once other
    by_cases hother : other = caller
    · subst hother
      rw [calls_put_self]
      exact (Nat.add_le_add_left hcredit _).trans honce
    · rw [calls_put_of_ne hother]
      exact honce
  within other := by
    by_cases hother : other = caller
    · subst hother
      rw [calls_put_self]
      exact hwithin
    · rw [calls_put_of_ne hother]
      exact h.within other
  allowed := h.allowed

omit [DecidableEq κ] in
theorem filterMap_concat (deeds : List (Option κ × Deed)) (origin : Option κ) (deed : Deed) :
    (deeds ++ [(origin, deed)]).filterMap (fun entry => entry.2.input?) =
      deeds.filterMap (fun entry => entry.2.input?) ++ deed.input?.toList := by
  rw [List.filterMap_append]
  cases hinput : deed.input? <;> simp [hinput]

theorem Sound.gateway_perform (h : Sound config sha256 start s) (origin : Option κ) (deed : Deed) :
    (s.perform config origin deed).gateway = run (Gateway.step config) start
      ((s.perform config origin deed).deeds.filterMap fun entry => entry.2.input?) := by
  change run (Gateway.step config) s.gateway deed.input?.toList = _
  rw [ManagerSystem.perform, filterMap_concat, run_append, ← h.gateway]

theorem Sound.other (h : Sound config sha256 start s) (deed : Deed) :
    Sound config sha256 start (s.perform config none deed) where
  gateway := h.gateway_perform none deed
  messages := h.messages
  once caller := by
    have honce := h.once caller
    rwa [deedsOf, ManagerSystem.perform, List.filter_append,
      show [((none : Option κ), deed)].filter (fun entry => entry.1 = some caller) = [] by simp,
      List.append_nil]
  within := h.within
  allowed caller mine hmem := by
    rcases List.mem_append.mp hmem with hmem | hmem
    · exact h.allowed caller mine hmem
    · cases List.mem_singleton.mp hmem

theorem Sound.performed (h : Sound config sha256 start s) {caller : κ} {call : ManagerCall}
    {deed : Deed} (hcredit : call.credit + 1 ≤ (s.calls caller).credit)
    (hwithin : call.Within sha256 (s.instructions caller) (s.reads caller))
    (hdeed : Allowed sha256 (s.instructions caller) (s.reads caller) deed) :
    Sound config sha256 start ((s.perform config (some caller) deed).put caller call) where
  gateway := h.gateway_perform (some caller) deed
  messages := h.messages
  once other := by
    have honce := h.once other
    change ((s.deeds ++ [(some caller, deed)]).filter _).length +
      (Function.update s.calls caller call other).credit ≤ 1
    rw [List.filter_append, List.length_append]
    by_cases hother : other = caller
    · subst hother
      rw [Function.update_self]
      have hsingle :
          ([(some other, deed)].filter fun entry => entry.1 = some other).length = 1 := by simp
      rw [hsingle]
      change (s.deedsOf other).length + 1 + call.credit ≤ 1
      omega
    · rw [Function.update_of_ne hother]
      have hnone : ([(some caller, deed)].filter fun entry => entry.1 = some other).length = 0 := by
        simp [Ne.symm hother]
      rw [hnone, Nat.add_zero]
      exact honce
  within other := by
    by_cases hother : other = caller
    · subst hother
      rw [calls_put_self]
      exact hwithin
    · rw [calls_put_of_ne hother]
      exact h.within other
  allowed other mine hmem := by
    rcases List.mem_append.mp hmem with hmem | hmem
    · exact h.allowed other mine hmem
    · cases List.mem_singleton.mp hmem
      exact hdeed

theorem Sound.idle (h : Sound config sha256 start s) {caller : κ}
    (hcredit : (s.calls caller).credit = 1) (deed : Deed) : (some caller, deed) ∉ s.deeds := by
  intro hmem
  have hmine : (some caller, deed) ∈ s.deedsOf caller := List.mem_filter.mpr ⟨hmem, by simp⟩
  have hpositive := List.length_pos_of_mem hmine
  have honce := h.once caller
  omega

theorem Sound.note (h : Sound config sha256 start s) {caller : κ} (instruction : Text)
    (hidle : s.calls caller = .idle) : Sound config sha256 start (s.note caller instruction) where
  gateway := h.gateway
  messages := h.messages
  once := h.once
  within other := by
    by_cases hother : other = caller
    · subst hother
      change (s.calls other).Within sha256 _ _
      rw [hidle]
      trivial
    · rw [instructions_note_of_ne hother]
      exact h.within other
  allowed other deed hmem := by
    have hother : other ≠ caller := by
      rintro rfl
      exact h.idle (by rw [hidle]; rfl) deed hmem
    rw [instructions_note_of_ne hother]
    exact h.allowed other deed hmem

theorem Sound.observe (h : Sound config sha256 start s) {caller : κ} (reads : ManagerReads)
    {orders : List WorkOrder} (hrouting : s.calls caller = .routing orders) :
    Sound config sha256 start (s.observe caller reads) where
  gateway := h.gateway
  messages := h.messages
  once := h.once
  within other := by
    by_cases hother : other = caller
    · subst hother
      change (s.calls other).Within sha256 _ _
      rw [hrouting]
      trivial
    · rw [reads_observe_of_ne hother]
      exact h.within other
  allowed other deed hmem := by
    have hother : other ≠ caller := by
      rintro rfl
      exact h.idle (by rw [hrouting]; rfl) deed hmem
    rw [reads_observe_of_ne hother]
    exact h.allowed other deed hmem

theorem Sound.receive (h : Sound config sha256 start s) (caller : κ) (text : Text) :
    Sound config sha256 start (s.step config sha256 isWord (.receive caller text)) := by
  rw [ManagerSystem.step]
  split
  · rename_i hidle
    have hnoted := h.note (strip text) hidle
    have hcredit : ((s.note caller (strip text)).calls caller).credit = 1 := by
      change (s.calls caller).credit = 1
      rw [hidle]
      rfl
    dsimp only
    split_ifs
    · exact hnoted.put (Nat.zero_le _) trivial
    · exact hnoted.put hcredit.ge trivial
  · exact h

theorem Sound.route (h : Sound config sha256 start s) (caller : κ) (router : Option RouterReply)
    (reads : ManagerReads) (stamp : Option String) :
    Sound config sha256 start
      (s.step config sha256 isWord (.route caller router reads stamp)) := by
  rw [ManagerSystem.step]
  split
  · rename_i orders hrouting
    apply (h.observe reads hrouting).put
    · change _ ≤ (s.calls caller).credit
      rw [hrouting]
      exact routed_credit sha256 isWord _ orders router reads stamp
    · rw [reads_observe_self]
      exact routed_within sha256 isWord _ orders router reads stamp
  · exact h

theorem Sound.act (h : Sound config sha256 start s) (caller : κ) (outside : Outside)
    (returned : Option ManagerReturn) :
    Sound config sha256 start (s.step config sha256 isWord (.act caller outside returned)) := by
  rw [ManagerSystem.step]
  split
  · rename_i step hacting
    have hwithin := h.within caller
    rw [hacting] at hwithin
    split
    · apply h.put
      · rw [returns_credit]
        exact Nat.zero_le _
      · exact returns_within sha256 _ _ returned step
    · rename_i deed hdeed
      apply h.performed
      · rw [returns_credit, hacting]
        rfl
      · exact returns_within sha256 _ _ returned step
      · exact hwithin outside deed hdeed
  · exact h

theorem Sound.persist (h : Sound config sha256 start s) (caller : κ) :
    Sound config sha256 start (s.step config sha256 isWord (.persist caller)) := by
  rw [ManagerSystem.step]
  split
  · rename_i work reply hpersisting
    have hwithin := h.within caller
    rw [hpersisting] at hwithin
    dsimp only
    split
    · have hsaid := h.say [("YOU", s.instructions caller), ("MANAGER", reply.toList)]
      exact hsaid.put (Nat.zero_le _) trivial
    · rename_i work stamp
      have hperformed : Sound config sha256 start
          ((s.perform config (some caller) (.gateway { event := .create work stamp })).put caller
            .over) := by
        apply h.performed
        · rw [hpersisting]
          rfl
        · trivial
        · exact hwithin
      rw [say_put]
      exact hperformed.say _
  · exact h

theorem Sound.step (h : Sound config sha256 start s) (event : ManagerEvent κ) :
    Sound config sha256 start (s.step config sha256 isWord event) := by
  cases event with
  | receive caller text => exact h.receive caller text
  | route caller router reads stamp => exact h.route caller router reads stamp
  | act caller outside returned => exact h.act caller outside returned
  | persist caller => exact h.persist caller
  | abort caller => exact h.put (Nat.zero_le _) trivial
  | other input said => exact (h.other (.gateway input)).say said

theorem sound_start (start : Gateway) (said : List (String × Text)) :
    Sound config sha256 start
      { gateway := start, messages := conversation said, said : ManagerSystem κ } where
  gateway := rfl
  messages := by with_reducible rfl
  once _ := le_refl 1
  within _ := trivial
  allowed _ _ hmem := absurd hmem List.not_mem_nil

theorem reads_step (event : ManagerEvent κ) (caller : κ) :
    (s.step config sha256 isWord event).reads caller = s.reads caller ∨
      ∃ router reads stamp, event = .route caller router reads stamp ∧
        (s.step config sha256 isWord event).reads caller = some reads := by
  cases event with
  | route other router reads stamp =>
    by_cases hother : caller = other
    · subst hother
      rw [ManagerSystem.step]
      split
      · exact Or.inr ⟨router, reads, stamp, rfl, reads_observe_self caller reads⟩
      · exact Or.inl rfl
    · left
      rw [ManagerSystem.step]
      split
      · exact reads_observe_of_ne hother reads
      · rfl
  | receive other text =>
    left
    rw [ManagerSystem.step]
    split <;> rfl
  | act other outside returned =>
    left
    rw [ManagerSystem.step]
    split
    · split <;> rfl
    · rfl
  | persist other =>
    left
    rw [ManagerSystem.step]
    split
    · dsimp only
      split <;> rfl
    · rfl
  | abort other => exact Or.inl rfl
  | other input said => exact Or.inl rfl

theorem reads_of_run {events : List (ManagerEvent κ)} {caller : κ} {reads : ManagerReads}
    (h : (run (step config sha256 isWord) s events).reads caller = some reads) :
    s.reads caller = some reads ∨
      ∃ router stamp, .route caller router reads stamp ∈ events := by
  induction events generalizing s with
  | nil => exact Or.inl h
  | cons event rest ih =>
    rcases ih h with hread | ⟨router, stamp, hmem⟩
    · have hstep := @reads_step _ _ config sha256 isWord s event caller
      rcases hstep with hkept | ⟨router, found, stamp, rfl, hfound⟩
      · exact Or.inl (hkept.symm.trans hread)
      · obtain rfl := Option.some.inj (hfound.symm.trans hread)
        exact Or.inr ⟨router, stamp, List.mem_cons_self⟩
    · exact Or.inr ⟨router, stamp, List.mem_cons_of_mem event hmem⟩

/-- From any gateway and conversation, however messages and everything else interleave: the gateway
is run by what the messages and others did, and the conversation is what was last said; each message
did at most one thing, which is permitted by what it read when it was routed, and nothing where a
piece of it is prohibited. -/
theorem messages_stay_within_bounds (config : RunnerConfig) (sha256 : List UInt8 → String)
    (isWord : Char → Bool) (start : Gateway) (said : List (String × Text))
    (events : List (ManagerEvent κ)) :
    let s := run (step config sha256 isWord)
      { gateway := start, messages := conversation said, said } events
    s.gateway = run (Gateway.step config) start (s.deeds.filterMap fun entry => entry.2.input?) ∧
      s.messages = conversation s.said ∧
      ∀ caller, (s.deedsOf caller).length ≤ 1 ∧
        ∀ deed, (some caller, deed) ∈ s.deeds →
          (∃ router reads stamp, .route caller router reads stamp ∈ events ∧
            Permitted sha256 (s.instructions caller) reads deed) ∧
          ∀ piece, piece <:+: s.instructions caller → hardSafetyDecision piece = none := by
  intro s
  have hsound : Sound config sha256 start s :=
    run_invariant (Sound config sha256 start) (fun _ event h => h.step event)
      (sound_start start said) events
  refine ⟨hsound.gateway, hsound.messages, fun caller => ⟨?_, fun deed hdeed => ?_⟩⟩
  · exact (Nat.le_add_right _ _).trans (hsound.once caller)
  · obtain ⟨hsafe, reads, hreads, hpermitted⟩ := hsound.allowed caller deed hdeed
    refine ⟨?_, fun piece hpiece => hardSafetyDecision_of_piece hpiece hsafe⟩
    rcases reads_of_run hreads with hstart | ⟨router, stamp, hmem⟩
    · cases hstart
    · exact ⟨router, reads, stamp, hmem, hpermitted⟩

/-! Two messages at once: one makes an order; one asks for a credential, and does nothing although
the router takes it for a new signal. -/

example :
    let reads : ManagerReads :=
      { stores := { workOrders := [], records := [], manifest := fun _ _ => none }
        roots := fun _ => {} }
    (run (step defaultRunner (fun _ => "") Char.isAlphanum) { gateway := {} : ManagerSystem ℕ }
      [.receive 0 "traceback".toList, .receive 1 "取得 API key".toList,
        .route 1 (some (.decided { action := .addSignal })) reads (some "1"),
        .route 0 none reads (some "2"), .persist 1, .persist 0]).deeds.map Prod.fst = [some 0] := by
  decide +kernel

end ManagerSystem

end ChainQuantStudio.Studio
