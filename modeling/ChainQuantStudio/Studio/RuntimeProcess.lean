import ChainQuantStudio.Library.Run
import ChainQuantStudio.Studio.LiveRegistry
import Mathlib.Algebra.Order.Field.Rat
import Mathlib.Algebra.Order.Group.Abs

/-!
# The runtime process

The gateway starts one advisory runtime, and adopts it after a restart of its own if the process
under the recorded pid is the one that it started. The machine is part of the model: processes of
others come and go, pids are used again, a process that has exited keeps its pid until it is reaped.
Between the steps of `start` and `stop` everything else may happen. The metadata file is read back
as it was written.
-/

namespace ChainQuantStudio.Studio

open Run

/-- What `select_signal` remembers, and what the environment of a runtime names. -/
structure Selection where
  signalId : String
  version : Option String
  deriving DecidableEq, Repr

structure MachineProcess where
  birth : ℚ
  launch : Option Selection := none
  permitted : Bool := true
  exited : Bool := false
  deriving DecidableEq

structure Machine where
  table : ℕ → Option MachineProcess := fun _ => none
  born : ℕ → Option ℚ := fun _ => none

structure LaunchRecord where
  pid : ℕ
  processBirthMarker : Option ℚ
  selected : Option Selection
  deriving DecidableEq

/-- The metadata file, whose `state` is `running` or `stopped`. -/
structure RuntimeMetadata extends LaunchRecord where
  running : Bool
  deriving DecidableEq

/-- `_process`, with the birth that tells which process of the pid it is. -/
structure ProcessHandle where
  pid : ℕ
  birth : ℚ
  returned : Bool := false
  deriving DecidableEq

inductive Holder
  | starting (launch : Selection) (child : Option (ℕ × ℚ))
  | stopping
  deriving DecidableEq

/-- `ended` counts the tasks of `_watch_process` whose process has returned. -/
structure SignalRuntimeController where
  selected : Option Selection := none
  process : Option ProcessHandle := none
  lock : Option Holder := none
  ended : ℕ := 0
  deriving DecidableEq

structure ReportedStatus extends RuntimeStatus where
  pid : Option ℕ

structure RuntimeSystem where
  machine : Machine := {}
  metadata : Option RuntimeMetadata := none
  shutdownFile : Bool := false
  controller : SignalRuntimeController := {}

inductive RuntimeAction
  | select (selection : Selection)
  | start
  | spawn (pid : ℕ) (birth : ℚ)
  | spawned
  | spawnFails
  | stop
  | poll
  | timesOut
  | status
  | noticed
  | watched
  | restart
  | appears (pid : ℕ) (birth : ℚ) (permitted : Bool)
  | exits (pid : ℕ)
  | reaped (pid : ℕ)

namespace Machine

def processBirthMarker (machine : Machine) (pid : ℕ) : Option ℚ :=
  (machine.table pid).map MachineProcess.birth

def pidIsRunning (machine : Machine) (pid : ℕ) : Bool :=
  match machine.table pid with
  | some process => process.permitted
  | none => false

def persistedProcessIsRunning (machine : Machine) (pid : ℕ) (marker : Option ℚ) : Bool :=
  match marker, machine.processBirthMarker pid with
  | some marker, some current => machine.pidIsRunning pid && decide (|current - marker| < 1)
  | _, _ => false

def add (machine : Machine) (pid : ℕ) (process : MachineProcess) : Machine where
  table := Function.update machine.table pid (some process)
  born := Function.update machine.born pid (some process.birth)

def set (machine : Machine) (pid : ℕ) (process : Option MachineProcess) : Machine :=
  { machine with table := Function.update machine.table pid process }

def runs (machine : Machine) (pid : ℕ) (birth : ℚ) : Bool :=
  match machine.table pid with
  | some process => decide (process.birth = birth) && !process.exited
  | none => false

end Machine

namespace RuntimeSystem

def isRunning (s : RuntimeSystem) : Bool :=
  match s.controller.process with
  | some handle => !handle.returned
  | none =>
    match s.metadata with
    | some metadata =>
      s.machine.persistedProcessIsRunning metadata.pid metadata.processBirthMarker
    | none => false

def knownPid (s : RuntimeSystem) : Option ℕ :=
  match s.controller.process with
  | some handle => some handle.pid
  | none => s.metadata.map fun metadata => metadata.pid

def withMetadata (s : RuntimeSystem) (change : RuntimeMetadata → RuntimeMetadata) : RuntimeSystem :=
  { s with metadata := s.metadata.map change }

/-- `status` writes a state that it finds out of date. -/
def settled (s : RuntimeSystem) : RuntimeSystem :=
  s.withMetadata fun metadata =>
    if !s.isRunning && metadata.running then { metadata with running := false } else metadata

/-- What `status` returns. -/
def status (s : RuntimeSystem) : ReportedStatus :=
  let named := if s.isRunning then s.metadata.bind fun metadata => metadata.selected else none
  { running := s.isRunning
    pid := if s.isRunning then s.knownPid else none
    signalId := (named.map Selection.signalId).filter (· ≠ "")
    signalVersion := (named.bind Selection.version).filter (· ≠ "") }

def withController (s : RuntimeSystem) (controller : SignalRuntimeController) : RuntimeSystem :=
  { s with controller }

def withLock (s : RuntimeSystem) (lock : Option Holder) : RuntimeSystem :=
  s.withController { s.controller with lock }

/-- `start` up to the call of the process factory. -/
def start (s : RuntimeSystem) : RuntimeSystem :=
  if s.isRunning then s.settled
  else
    let cleared := { s.settled with shutdownFile := false }
    match s.controller.selected with
    | some launch => cleared.withLock (some (.starting launch none))
    | none => cleared

/-- `start` from the return of the process factory on. -/
def started (s : RuntimeSystem) (pid : ℕ) (birth : ℚ) : RuntimeSystem :=
  { s with
    metadata := some
      { pid, processBirthMarker := s.machine.processBirthMarker pid,
        selected := s.controller.selected, running := true }
    controller := { s.controller with process := some { pid, birth }, lock := none } }

def step (s : RuntimeSystem) : RuntimeAction → RuntimeSystem
  | .select selection => s.withController { s.controller with selected := some selection }
  | .start => if s.controller.lock = none then s.start else s
  | .spawn pid birth =>
    match s.controller.lock with
    | some (.starting launch none) =>
      { s with machine := s.machine.add pid { birth, launch := some launch } }.withLock
        (some (.starting launch (some (pid, birth))))
    | _ => s
  | .spawned =>
    match s.controller.lock with
    | some (.starting _ (some (pid, birth))) => s.started pid birth
    | _ => s
  | .spawnFails =>
    match s.controller.lock with
    | some (.starting _ _) => s.withLock none
    | _ => s
  | .stop =>
    if s.controller.lock = none then
      if s.isRunning then { s.settled with shutdownFile := true }.withLock (some .stopping)
      else s.settled
    else s
  | .poll =>
    if s.controller.lock = some .stopping then
      if s.isRunning then s.settled else s.settled.withLock none
    else s
  | .timesOut => if s.controller.lock = some .stopping then s.withLock none else s
  | .status => s.settled
  | .noticed =>
    match s.controller.process with
    | some handle =>
      if handle.returned || s.machine.runs handle.pid handle.birth then s
      else s.withController
        { s.controller with
          process := some { handle with returned := true }, ended := s.controller.ended + 1 }
    | none => s
  | .watched =>
    match s.controller.ended with
    | left + 1 =>
      (s.withMetadata fun metadata => { metadata with running := false }).withController
        { s.controller with ended := left }
    | 0 => s
  | .restart => s.withController {}
  | .appears pid birth permitted =>
    { s with machine := s.machine.add pid { birth, permitted } }
  | .exits pid =>
    let process := (s.machine.table pid).map fun process => { process with exited := true }
    { s with machine := s.machine.set pid process }
  | .reaped pid =>
    match s.machine.table pid with
    | some process => if process.exited then { s with machine := s.machine.set pid none } else s
    | none => s

def spawning (s : RuntimeSystem) : Option (Selection × Option (ℕ × ℚ)) :=
  match s.controller.lock with
  | some (.starting launch child) => some (launch, child)
  | _ => none

def awaited (s : RuntimeSystem) : Option (ℕ × ℚ) := s.spawning.bind Prod.snd

def Free (s : RuntimeSystem) (pid : ℕ) (birth : ℚ) : Prop :=
  s.machine.table pid = none ∧ ∀ earlier ∈ s.machine.born pid, earlier + 1 ≤ birth

/-- Pids are used again only when they are free. A process factory that fails leaves no process
behind, and the gateway is not restarted between the birth of a process and the record of it. -/
def Sound (s : RuntimeSystem) : RuntimeAction → Prop
  | .spawn pid birth => s.Free pid birth
  | .appears pid birth _ => s.Free pid birth ∧ ∀ child ∈ s.awaited, child.1 ≠ pid
  | .spawnFails => ∀ child ∈ s.awaited, s.machine.runs child.1 child.2 = false
  | .restart => ∀ child ∈ s.awaited, s.machine.runs child.1 child.2 = false
  | _ => True

/-- No signal is selected while a start awaits its process. -/
def Undisturbed (s : RuntimeSystem) : RuntimeAction → Prop
  | .select _ => s.spawning = none
  | _ => True

instance (s : RuntimeSystem) (pid : ℕ) (birth : ℚ) : Decidable (s.Free pid birth) :=
  inferInstanceAs (Decidable (_ ∧ _))

instance (s : RuntimeSystem) : ∀ action, Decidable (s.Sound action)
  | .spawn _ _ => inferInstanceAs (Decidable (_ ∧ _))
  | .appears _ _ _ => inferInstanceAs (Decidable (_ ∧ _))
  | .spawnFails => inferInstanceAs (Decidable (∀ child ∈ s.awaited, _))
  | .restart => inferInstanceAs (Decidable (∀ child ∈ s.awaited, _))
  | .select _ | .start | .spawned | .stop | .poll | .timesOut | .status | .noticed | .watched
  | .exits _ | .reaped _ => inferInstanceAs (Decidable True)

instance (s : RuntimeSystem) : ∀ action, Decidable (s.Undisturbed action)
  | .select _ => inferInstanceAs (Decidable (_ = _))
  | .spawn _ _ | .appears _ _ _ | .spawnFails | .restart | .start | .spawned | .stop | .poll
  | .timesOut | .status | .noticed | .watched | .exits _ | .reaped _ =>
    inferInstanceAs (Decidable True)

def Live (s : RuntimeSystem) (pid : ℕ) (process : MachineProcess) : Prop :=
  s.machine.table pid = some process ∧ process.launch.isSome ∧ process.exited = false

def recorded (s : RuntimeSystem) : Option LaunchRecord :=
  s.metadata.map RuntimeMetadata.toLaunchRecord

def Kept (s : RuntimeSystem) (pid : ℕ) (birth : ℚ) : Prop :=
  s.spawning = none ∧
  (∃ record, s.recorded = some record ∧ record.pid = pid ∧
    record.processBirthMarker = some birth) ∧
  ∀ handle, s.controller.process = some handle →
    handle.pid = pid ∧ handle.birth = birth ∧ handle.returned = false

structure Owned (s : RuntimeSystem) : Prop where
  births : ∀ pid process, s.machine.table pid = some process →
    s.machine.born pid = some process.birth
  permitted : ∀ pid process, s.machine.table pid = some process → process.launch.isSome →
    process.permitted = true
  child : ∀ launch pid birth, s.spawning = some (launch, some (pid, birth)) →
    s.machine.born pid = some birth ∧
      ∀ process, s.machine.table pid = some process → process.launch = some launch
  record : ∀ record marker, s.recorded = some record → record.processBirthMarker = some marker →
    (∃ birth, s.machine.born record.pid = some birth ∧ marker ≤ birth) ∧
      ∀ process, s.machine.table record.pid = some process →
        (process.birth = marker ∧ process.launch.isSome) ∨ marker + 1 ≤ process.birth
  live : ∀ pid process, s.Live pid process →
    (∃ launch, s.spawning = some (launch, some (pid, process.birth))) ∨ s.Kept pid process.birth
  cleared : s.spawning ≠ none → s.shutdownFile = false

structure Named (s : RuntimeSystem) : Prop where
  chosen : ∀ launch child, s.spawning = some (launch, child) → s.controller.selected = some launch
  named : ∀ process record, s.recorded = some record →
    s.machine.table record.pid = some process → process.launch.isSome →
      record.processBirthMarker = some process.birth → record.selected = process.launch

variable {s : RuntimeSystem}

theorem recorded_withMetadata (s : RuntimeSystem) {change : RuntimeMetadata → RuntimeMetadata}
    (hchange : ∀ metadata, (change metadata).toLaunchRecord = metadata.toLaunchRecord) :
    (s.withMetadata change).recorded = s.recorded := by
  cases hmetadata : s.metadata with
  | none => simp [recorded, withMetadata, hmetadata]
  | some metadata => simp [recorded, withMetadata, hmetadata, hchange]

@[simp] theorem recorded_settled (s : RuntimeSystem) : s.settled.recorded = s.recorded := by
  refine s.recorded_withMetadata fun metadata => ?_
  split_ifs <;> rfl

theorem Owned.congr (h : s.Owned) {after : RuntimeSystem} (hmachine : after.machine = s.machine)
    (hrecorded : after.recorded = s.recorded)
    (hprocess : after.controller.process = s.controller.process)
    (hspawning : after.spawning = s.spawning)
    (hfile : s.spawning ≠ none → after.shutdownFile = s.shutdownFile) : after.Owned where
  births := by rw [hmachine]; exact h.births
  permitted := by rw [hmachine]; exact h.permitted
  child := by rw [hmachine, hspawning]; exact h.child
  record := by rw [hmachine, hrecorded]; exact h.record
  live pid process hlive := by
    have hbefore : s.Live pid process := by
      rw [Live, hmachine] at hlive
      exact hlive
    rw [Kept, hspawning, hrecorded, hprocess]
    exact h.live pid process hbefore
  cleared hne := by
    rw [hspawning] at hne
    rw [hfile hne]
    exact h.cleared hne

theorem Named.congr (h : s.Named) {after : RuntimeSystem} (hmachine : after.machine = s.machine)
    (hrecorded : after.recorded = s.recorded)
    (hspawning : ∀ launch child, after.spawning = some (launch, child) →
      ∃ child, s.spawning = some (launch, child))
    (hselected : s.spawning ≠ none → after.controller.selected = s.controller.selected) :
    after.Named where
  chosen launch child hstart := by
    obtain ⟨child', hbefore⟩ := hspawning launch child hstart
    rw [hselected (by rw [hbefore]; exact Option.some_ne_none _)]
    exact h.chosen launch child' hbefore
  named := by rw [hmachine, hrecorded]; exact h.named

theorem Owned.isRunning_of_live (h : s.Owned) (hspawning : s.spawning = none) {pid : ℕ}
    {process : MachineProcess} (hlive : s.Live pid process) :
    s.isRunning = true ∧ s.knownPid = some pid ∧
      ∃ record, s.recorded = some record ∧ record.pid = pid ∧
        record.processBirthMarker = some process.birth := by
  obtain ⟨htable, hlaunch, hexited⟩ := hlive
  rcases h.live pid process ⟨htable, hlaunch, hexited⟩ with ⟨launch, hstart⟩ |
    ⟨-, ⟨record, hrecord, hpid, hmarker⟩, hhandle⟩
  · rw [hspawning] at hstart
    cases hstart
  · have hknown : s.isRunning = true ∧ s.knownPid = some pid := by
      unfold isRunning knownPid
      cases hprocess : s.controller.process with
      | some handle =>
        obtain ⟨rfl, -, hreturned⟩ := hhandle handle hprocess
        exact ⟨by simp [hreturned], rfl⟩
      | none =>
        obtain ⟨metadata, hmetadata, rfl⟩ := Option.map_eq_some_iff.mp hrecord
        have hpermitted := h.permitted pid process htable hlaunch
        subst hpid
        simp [hmetadata, Machine.persistedProcessIsRunning, Machine.processBirthMarker,
          Machine.pidIsRunning, hmarker, htable, hpermitted]
    exact ⟨hknown.1, hknown.2, record, hrecord, hpid, hmarker⟩

theorem Owned.fewer (h : s.Owned) {machine : Machine} (hborn : machine.born = s.machine.born)
    (htable : ∀ pid process, machine.table pid = some process → ∃ before,
      s.machine.table pid = some before ∧ before.birth = process.birth ∧
        before.launch = process.launch ∧ before.permitted = process.permitted ∧
          (process.exited = false → before.exited = false)) :
    { s with machine }.Owned where
  births pid process hprocess := by
    obtain ⟨before, hbefore, hbirth, -⟩ := htable pid process hprocess
    simp only [hborn, h.births pid before hbefore, hbirth]
  permitted pid process hprocess hlaunch := by
    obtain ⟨before, hbefore, -, hsame, hpermitted, -⟩ := htable pid process hprocess
    rw [← hpermitted]
    exact h.permitted pid before hbefore (hsame ▸ hlaunch)
  child launch pid birth hstart := by
    obtain ⟨hlast, hchild⟩ := h.child launch pid birth hstart
    refine ⟨by simpa only [hborn] using hlast, fun process hprocess => ?_⟩
    obtain ⟨before, hbefore, -, hsame, -⟩ := htable pid process hprocess
    rw [← hsame]
    exact hchild before hbefore
  record record marker hrecord hmarker := by
    obtain ⟨hlast, hunder⟩ := h.record record marker hrecord hmarker
    refine ⟨by simpa only [hborn] using hlast, fun process hprocess => ?_⟩
    obtain ⟨before, hbefore, hbirth, hsame, -⟩ := htable _ process hprocess
    rw [← hbirth, ← hsame]
    exact hunder before hbefore
  live pid process hlive := by
    obtain ⟨hprocess, hlaunch, hexited⟩ := hlive
    obtain ⟨before, hbefore, hbirth, hsame, -, hstill⟩ := htable pid process hprocess
    have hcases := h.live pid before ⟨hbefore, hsame ▸ hlaunch, hstill hexited⟩
    rw [hbirth] at hcases
    exact hcases
  cleared := h.cleared

theorem Named.fewer (h : s.Named) {machine : Machine}
    (htable : ∀ pid process, machine.table pid = some process → ∃ before,
      s.machine.table pid = some before ∧ before.birth = process.birth ∧
        before.launch = process.launch ∧ before.permitted = process.permitted ∧
          (process.exited = false → before.exited = false)) :
    { s with machine }.Named where
  chosen := h.chosen
  named process record hrecord hprocess hlaunch hmarker := by
    obtain ⟨before, hbefore, hbirth, hsame, -⟩ := htable _ process hprocess
    rw [← hsame]
    refine h.named before record hrecord hbefore (hsame ▸ hlaunch) ?_
    rw [hbirth]
    exact hmarker

theorem table_exits {machine : Machine} {pid other : ℕ} {process : MachineProcess}
    (h : (machine.set pid ((machine.table pid).map fun process =>
      { process with exited := true })).table other = some process) :
    ∃ before, machine.table other = some before ∧ before.birth = process.birth ∧
      before.launch = process.launch ∧ before.permitted = process.permitted ∧
        (process.exited = false → before.exited = false) := by
  by_cases hpid : other = pid
  · subst hpid
    simp only [Machine.set, Function.update_self] at h
    obtain ⟨before, hbefore, rfl⟩ := Option.map_eq_some_iff.mp h
    exact ⟨before, hbefore, rfl, rfl, rfl, fun hexited => by cases hexited⟩
  · simp only [Machine.set, Function.update_of_ne hpid] at h
    exact ⟨process, h, rfl, rfl, rfl, id⟩

theorem table_reaped {machine : Machine} {pid other : ℕ} {process : MachineProcess}
    (h : (machine.set pid none).table other = some process) :
    ∃ before, machine.table other = some before ∧ before.birth = process.birth ∧
      before.launch = process.launch ∧ before.permitted = process.permitted ∧
        (process.exited = false → before.exited = false) := by
  by_cases hpid : other = pid
  · subst hpid
    simp only [Machine.set, Function.update_self] at h
    cases h
  · simp only [Machine.set, Function.update_of_ne hpid] at h
    exact ⟨process, h, rfl, rfl, rfl, id⟩

section

variable {pid : ℕ} {process : MachineProcess}

theorem table_add {machine : Machine} {other : ℕ} {added : MachineProcess}
    (h : (machine.add pid process).table other = some added) :
    (other = pid ∧ process = added) ∨ (other ≠ pid ∧ machine.table other = some added) := by
  by_cases hpid : other = pid
  · subst hpid
    simp only [Machine.add, Function.update_self, Option.some.injEq] at h
    exact Or.inl ⟨rfl, h⟩
  · simp only [Machine.add, Function.update_of_ne hpid] at h
    exact Or.inr ⟨hpid, h⟩

theorem born_add_self (machine : Machine) (pid : ℕ) (process : MachineProcess) :
    (machine.add pid process).born pid = some process.birth := Function.update_self ..

theorem born_add_of_ne (machine : Machine) (process : MachineProcess) {other : ℕ}
    (hne : other ≠ pid) : (machine.add pid process).born other = machine.born other :=
  Function.update_of_ne hne ..

theorem Owned.births_add (h : s.Owned) (other : ℕ) (added : MachineProcess)
    (hadded : (s.machine.add pid process).table other = some added) :
    (s.machine.add pid process).born other = some added.birth := by
  rcases table_add hadded with ⟨rfl, rfl⟩ | ⟨hpid, hbefore⟩
  · exact born_add_self ..
  · rw [born_add_of_ne _ _ hpid]
    exact h.births other added hbefore

theorem Owned.permitted_add (h : s.Owned)
    (hpermitted : process.launch.isSome → process.permitted = true) (other : ℕ)
    (added : MachineProcess) (hadded : (s.machine.add pid process).table other = some added)
    (hlaunch : added.launch.isSome) : added.permitted = true := by
  rcases table_add hadded with ⟨rfl, rfl⟩ | ⟨-, hbefore⟩
  · exact hpermitted hlaunch
  · exact h.permitted other added hbefore hlaunch

theorem Owned.record_add (h : s.Owned) (hfree : s.Free pid process.birth) (record : LaunchRecord)
    (marker : ℚ) (hrecord : s.recorded = some record)
    (hmarker : record.processBirthMarker = some marker) :
    (∃ birth, (s.machine.add pid process).born record.pid = some birth ∧ marker ≤ birth) ∧
      ∀ added, (s.machine.add pid process).table record.pid = some added →
        (added.birth = marker ∧ added.launch.isSome) ∨ marker + 1 ≤ added.birth := by
  obtain ⟨⟨birth, hborn, hle⟩, hunder⟩ := h.record record marker hrecord hmarker
  by_cases hpid : record.pid = pid
  · have hlater : marker + 1 ≤ process.birth := by
      have hreused := hfree.2 birth (hpid ▸ hborn)
      linarith
    rw [hpid, born_add_self]
    refine ⟨⟨process.birth, rfl, by linarith⟩, fun added hadded => Or.inr ?_⟩
    rcases table_add hadded with ⟨-, rfl⟩ | ⟨hne, -⟩
    · exact hlater
    · exact absurd rfl hne
  · rw [born_add_of_ne _ _ hpid]
    refine ⟨⟨birth, hborn, hle⟩, fun added hadded => ?_⟩
    rcases table_add hadded with ⟨hsame, -⟩ | ⟨-, hbefore⟩
    · exact absurd hsame hpid
    · exact hunder added hbefore

theorem Owned.appears (h : s.Owned) {birth : ℚ} (hfree : s.Free pid birth)
    (hawaited : ∀ child ∈ s.awaited, child.1 ≠ pid) (permitted : Bool) :
    { s with machine := s.machine.add pid { birth, permitted } }.Owned where
  births := h.births_add
  permitted := h.permitted_add fun hlaunch => by cases hlaunch
  child launch other started hstart := by
    have hpid : other ≠ pid := by
      refine hawaited (other, started) ?_
      rw [awaited, show s.spawning = _ from hstart]
      rfl
    obtain ⟨hborn, hunder⟩ := h.child launch other started hstart
    refine ⟨(born_add_of_ne _ _ hpid).trans hborn, fun added hadded => ?_⟩
    rcases table_add hadded with ⟨hsame, -⟩ | ⟨-, hbefore⟩
    · exact absurd hsame hpid
    · exact hunder added hbefore
  record := h.record_add hfree
  live other added hlive := by
    obtain ⟨hadded, hlaunch, hexited⟩ := hlive
    rcases table_add hadded with ⟨-, rfl⟩ | ⟨-, hbefore⟩
    · cases hlaunch
    · exact h.live other added ⟨hbefore, hlaunch, hexited⟩
  cleared := h.cleared

theorem Owned.spawn (h : s.Owned) {birth : ℚ} (hfree : s.Free pid birth) {launch : Selection}
    (hspawning : s.spawning = some (launch, none)) :
    ({ s with machine := s.machine.add pid { birth, launch := some launch } }.withLock
      (some (.starting launch (some (pid, birth))))).Owned where
  births := h.births_add
  permitted := h.permitted_add fun _ => rfl
  child launch' other started hstart := by
    cases hstart
    refine ⟨born_add_self .., fun added hadded => ?_⟩
    rcases table_add hadded with ⟨-, rfl⟩ | ⟨hne, -⟩
    · rfl
    · exact absurd rfl hne
  record := h.record_add hfree
  live other added hlive := by
    obtain ⟨hadded, hlaunch, hexited⟩ := hlive
    rcases table_add hadded with ⟨rfl, rfl⟩ | ⟨-, hbefore⟩
    · exact Or.inl ⟨launch, rfl⟩
    · rcases h.live other added ⟨hbefore, hlaunch, hexited⟩ with ⟨launch', hstart⟩ | hkept
      · rw [hspawning] at hstart
        cases hstart
      · cases hspawning.symm.trans hkept.1
  cleared _ := h.cleared (by rw [hspawning]; exact Option.some_ne_none _)

theorem Named.appears (h : s.Named) (birth : ℚ) (permitted : Bool) :
    { s with machine := s.machine.add pid { birth, permitted } }.Named where
  chosen := h.chosen
  named added record hrecord hadded hlaunch hmarker := by
    rcases table_add hadded with ⟨-, rfl⟩ | ⟨-, hbefore⟩
    · cases hlaunch
    · exact h.named added record hrecord hbefore hlaunch hmarker

theorem Named.spawn (h : s.Named) (howned : s.Owned) {birth : ℚ} (hfree : s.Free pid birth)
    {launch : Selection} (hspawning : s.spawning = some (launch, none)) :
    ({ s with machine := s.machine.add pid { birth, launch := some launch } }.withLock
      (some (.starting launch (some (pid, birth))))).Named where
  chosen launch' child hstart := by
    cases hstart
    exact h.chosen launch none hspawning
  named added record hrecord hadded hlaunch hmarker := by
    rcases table_add hadded with ⟨rfl, rfl⟩ | ⟨-, hbefore⟩
    · -- The marker of an earlier process is not the birth of this one.
      obtain ⟨⟨earlier, hborn, hle⟩, -⟩ := howned.record record birth hrecord hmarker
      have hreused := hfree.2 earlier hborn
      linarith
    · exact h.named added record hrecord hbefore hlaunch hmarker

end

theorem Owned.restart (h : s.Owned)
    (hleft : ∀ child ∈ s.awaited, s.machine.runs child.1 child.2 = false) {after : RuntimeSystem}
    (hmachine : after.machine = s.machine) (hrecorded : after.recorded = s.recorded)
    (hprocess : ∀ handle, after.controller.process = some handle →
      s.controller.process = some handle)
    (hspawning : after.spawning = none) : after.Owned where
  births := by rw [hmachine]; exact h.births
  permitted := by rw [hmachine]; exact h.permitted
  child launch pid birth hstart := by
    rw [hspawning] at hstart
    cases hstart
  record := by rw [hmachine, hrecorded]; exact h.record
  live pid process hlive := by
    obtain ⟨htable, hlaunch, hexited⟩ := hlive
    rw [hmachine] at htable
    rcases h.live pid process ⟨htable, hlaunch, hexited⟩ with ⟨launch, hstart⟩ |
      ⟨-, hrecord, hhandle⟩
    · have hruns := hleft (pid, process.birth) (by rw [awaited, hstart]; rfl)
      simp [Machine.runs, htable, hexited] at hruns
    · exact Or.inr ⟨hspawning, hrecorded ▸ hrecord, fun handle hafter =>
        hhandle handle (hprocess handle hafter)⟩
  cleared hne := absurd hspawning hne

theorem Owned.noticed (h : s.Owned) {handle : ProcessHandle}
    (hprocess : s.controller.process = some handle)
    (hruns : s.machine.runs handle.pid handle.birth = false) :
    (s.withController
      { s.controller with
        process := some { handle with returned := true }
        ended := s.controller.ended + 1 }).Owned where
  births := h.births
  permitted := h.permitted
  child := h.child
  record := h.record
  live pid process hlive := by
    rcases h.live pid process hlive with hstart | ⟨-, -, hhandle⟩
    · exact Or.inl hstart
    · obtain ⟨rfl, hbirth, -⟩ := hhandle handle hprocess
      have htable : s.machine.table handle.pid = some process := hlive.1
      simp [Machine.runs, htable, hbirth, hlive.2.2] at hruns
  cleared := h.cleared

theorem Owned.starting (h : s.Owned) (hspawning : s.spawning = none) (hidle : s.isRunning = false)
    (launch : Selection) :
    ({ s.settled with shutdownFile := false }.withLock (some (.starting launch none))).Owned where
  births := h.births
  permitted := h.permitted
  child launch' pid birth hstart := by cases hstart
  record record marker hrecord hmarker :=
    h.record record marker ((recorded_settled s).symm.trans hrecord) hmarker
  live pid process hlive := by
    have hrunning := (h.isRunning_of_live hspawning hlive).1
    rw [hidle] at hrunning
    cases hrunning
  cleared _ := rfl

theorem Owned.started (h : s.Owned) {launch : Selection} {pid : ℕ} {birth : ℚ}
    (hspawning : s.spawning = some (launch, some (pid, birth))) : (s.started pid birth).Owned where
  births := h.births
  permitted := h.permitted
  child launch' other started hstart := by cases hstart
  record record marker hrecord hmarker := by
    cases hrecord
    obtain ⟨process, hprocess, rfl⟩ := Option.map_eq_some_iff.mp hmarker
    refine ⟨⟨process.birth, h.births pid process hprocess, le_rfl⟩, fun other hother => Or.inl ?_⟩
    cases hprocess.symm.trans hother
    exact ⟨rfl, by rw [(h.child launch pid birth hspawning).2 process hprocess]; rfl⟩
  live other process hlive := by
    rcases h.live other process hlive with ⟨launch', hstart⟩ | ⟨hnone, -⟩
    · cases hspawning.symm.trans hstart
      have htable : s.machine.table pid = some process := hlive.1
      refine Or.inr ⟨rfl, ⟨_, rfl, rfl, ?_⟩, fun handle hhandle => ?_⟩
      · exact congrArg (Option.map MachineProcess.birth) htable
      · cases hhandle
        exact ⟨rfl, rfl, rfl⟩
    · cases hspawning.symm.trans hnone
  cleared hne := absurd rfl hne

theorem Named.started (h : s.Named) (howned : s.Owned) {launch : Selection} {pid : ℕ} {birth : ℚ}
    (hspawning : s.spawning = some (launch, some (pid, birth))) : (s.started pid birth).Named where
  chosen launch' child hstart := by cases hstart
  named process record hrecord htable hlaunch hmarker := by
    cases hrecord
    rw [show process.launch = _ from (howned.child launch pid birth hspawning).2 process htable]
    exact h.chosen launch _ hspawning

theorem spawning_of_lock (hlock : s.controller.lock = none ∨ s.controller.lock = some .stopping) :
    s.spawning = none := by
  unfold spawning
  rcases hlock with hlock | hlock <;> rw [hlock]

theorem Owned.step (h : s.Owned) {action : RuntimeAction} (hsound : s.Sound action) :
    (s.step action).Owned := by
  cases action with
  | select selection => exact h.congr rfl rfl rfl rfl fun _ => rfl
  | start =>
    simp only [RuntimeSystem.step]
    split_ifs with hlock
    · have hspawning := spawning_of_lock (Or.inl hlock)
      unfold start
      split_ifs with hrunning
      · exact h.congr rfl (recorded_settled s) rfl rfl fun _ => rfl
      · dsimp only
        cases s.controller.selected with
        | none =>
          exact h.congr rfl (recorded_settled s) rfl rfl fun hne => absurd hspawning hne
        | some launch => exact h.starting hspawning (Bool.eq_false_of_not_eq_true hrunning) launch
    · exact h
  | spawn pid birth =>
    simp only [RuntimeSystem.step]
    split
    · next launch hlock => exact h.spawn hsound (by rw [spawning, hlock])
    · exact h
  | spawned =>
    simp only [RuntimeSystem.step]
    split
    · next launch pid birth hlock => exact h.started (by rw [spawning, hlock])
    · exact h
  | spawnFails =>
    simp only [RuntimeSystem.step]
    split
    · exact h.restart hsound rfl rfl (fun _ hhandle => hhandle) rfl
    · exact h
  | stop =>
    simp only [RuntimeSystem.step]
    split_ifs with hlock hrunning
    · have hspawning := spawning_of_lock (Or.inl hlock)
      exact h.congr rfl (recorded_settled s) rfl hspawning.symm fun hne => absurd hspawning hne
    · exact h.congr rfl (recorded_settled s) rfl rfl fun _ => rfl
    · exact h
  | poll =>
    simp only [RuntimeSystem.step]
    split_ifs with hlock hrunning
    · exact h.congr rfl (recorded_settled s) rfl rfl fun _ => rfl
    · have hspawning := spawning_of_lock (Or.inr hlock)
      exact h.congr rfl (recorded_settled s) rfl hspawning.symm fun hne => absurd hspawning hne
    · exact h
  | timesOut =>
    simp only [RuntimeSystem.step]
    split_ifs with hlock
    · have hspawning := spawning_of_lock (Or.inr hlock)
      exact h.congr rfl rfl rfl hspawning.symm fun hne => absurd hspawning hne
    · exact h
  | status => exact h.congr rfl (recorded_settled s) rfl rfl fun _ => rfl
  | noticed =>
    simp only [RuntimeSystem.step]
    split
    · next handle hprocess =>
      split_ifs with hcase
      · exact h
      · simp only [Bool.or_eq_true, not_or, Bool.not_eq_true] at hcase
        exact h.noticed hprocess hcase.2
    · exact h
  | watched =>
    simp only [RuntimeSystem.step]
    split
    · refine h.congr rfl ?_ rfl rfl fun _ => rfl
      exact s.recorded_withMetadata fun _ => rfl
    · exact h
  | restart => exact h.restart hsound rfl rfl (fun _ hhandle => by cases hhandle) rfl
  | appears pid birth permitted => exact h.appears hsound.1 hsound.2 permitted
  | exits pid => exact h.fewer rfl fun _ _ => table_exits
  | reaped pid =>
    simp only [RuntimeSystem.step]
    split
    · split_ifs
      · exact h.fewer rfl fun _ _ => table_reaped
      · exact h
    · exact h

theorem Named.step (h : s.Named) (howned : s.Owned) {action : RuntimeAction}
    (hsound : s.Sound action) (hundisturbed : s.Undisturbed action) : (s.step action).Named := by
  have hsame {after : RuntimeSystem} (hspawning : after.spawning = none) (launch : Selection)
      (child : Option (ℕ × ℚ)) (hstart : after.spawning = some (launch, child)) :
      ∃ child, s.spawning = some (launch, child) := by
    rw [hspawning] at hstart
    cases hstart
  cases action with
  | select selection =>
    exact h.congr rfl rfl (fun launch child hstart => ⟨child, hstart⟩) fun hne =>
      absurd hundisturbed hne
  | start =>
    simp only [RuntimeSystem.step]
    split_ifs with hlock
    · have hspawning := spawning_of_lock (Or.inl hlock)
      unfold start
      split_ifs with hrunning
      · exact h.congr rfl (recorded_settled s) (hsame hspawning) fun _ => rfl
      · dsimp only
        cases hselected : s.controller.selected with
        | none => exact h.congr rfl (recorded_settled s) (hsame hspawning) fun _ => rfl
        | some launch =>
          refine ⟨fun launch' child hstart => ?_, fun process record hrecord => ?_⟩
          · cases hstart
            exact hselected
          · exact h.named process record ((recorded_settled s).symm.trans hrecord)
    · exact h
  | spawn pid birth =>
    simp only [RuntimeSystem.step]
    split
    · next launch hlock => exact h.spawn howned hsound (by rw [spawning, hlock])
    · exact h
  | spawned =>
    simp only [RuntimeSystem.step]
    split
    · next launch pid birth hlock =>
      exact h.started howned (by rw [spawning, hlock])
    · exact h
  | spawnFails =>
    simp only [RuntimeSystem.step]
    split
    · exact h.congr rfl rfl (hsame rfl) fun _ => rfl
    · exact h
  | stop =>
    simp only [RuntimeSystem.step]
    split_ifs with hlock hrunning
    · exact h.congr rfl (recorded_settled s) (hsame rfl) fun _ => rfl
    · exact h.congr rfl (recorded_settled s) (fun _ child hstart => ⟨child, hstart⟩) fun _ => rfl
    · exact h
  | poll =>
    simp only [RuntimeSystem.step]
    split_ifs with hlock hrunning
    · exact h.congr rfl (recorded_settled s) (fun _ child hstart => ⟨child, hstart⟩) fun _ => rfl
    · exact h.congr rfl (recorded_settled s) (hsame rfl) fun _ => rfl
    · exact h
  | timesOut =>
    simp only [RuntimeSystem.step]
    split_ifs with hlock
    · exact h.congr rfl rfl (hsame rfl) fun _ => rfl
    · exact h
  | status =>
    exact h.congr rfl (recorded_settled s) (fun _ child hstart => ⟨child, hstart⟩) fun _ => rfl
  | noticed =>
    simp only [RuntimeSystem.step]
    split
    · split_ifs
      · exact h
      · exact h.congr rfl rfl (fun _ child hstart => ⟨child, hstart⟩) fun _ => rfl
    · exact h
  | watched =>
    simp only [RuntimeSystem.step]
    split
    · refine h.congr rfl ?_ (fun _ child hstart => ⟨child, hstart⟩) fun _ => rfl
      exact s.recorded_withMetadata fun _ => rfl
    · exact h
  | restart =>
    exact ⟨fun _ _ hstart => (by cases hstart), h.named⟩
  | appears pid birth permitted => exact h.appears birth permitted
  | exits pid => exact h.fewer fun _ _ => table_exits
  | reaped pid =>
    simp only [RuntimeSystem.step]
    split
    · split_ifs
      · exact h.fewer fun _ _ => table_reaped
      · exact h
    · exact h

theorem Owned.unique (h : s.Owned) {pid other : ℕ} {process added : MachineProcess}
    (hprocess : s.Live pid process) (hadded : s.Live other added) :
    pid = other ∧ process = added := by
  have hpid : pid = other := by
    rcases h.live pid process hprocess with ⟨launch, hstart⟩ | ⟨hnone, hrecord, -⟩ <;>
      rcases h.live other added hadded with ⟨launch', hstart'⟩ | ⟨hnone', hrecord', -⟩
    · have hchild := Option.some.inj (hstart.symm.trans hstart')
      simp only [Prod.mk.injEq, Option.some.injEq] at hchild
      exact hchild.2.1
    · cases hstart.symm.trans hnone'
    · cases hnone.symm.trans hstart'
    · obtain ⟨record, hsome, hpid, -⟩ := hrecord
      obtain ⟨record', hsome', hpid', -⟩ := hrecord'
      cases hsome.symm.trans hsome'
      exact hpid.symm.trans hpid'
  subst hpid
  exact ⟨rfl, Option.some.inj (hprocess.1.symm.trans hadded.1)⟩

section

end

end RuntimeSystem

end ChainQuantStudio.Studio
