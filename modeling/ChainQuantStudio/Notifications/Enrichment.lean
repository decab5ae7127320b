import ChainQuantStudio.Notifications.Dispatcher

/-!
# Enrichment behind accepted signals

Signals of allowlisted strategies wait for context, and are passed on with it or without it. All
others are passed on at once. What follows from a queue with one worker holds for this worker and
for the dispatcher alike.
-/

namespace ChainQuantStudio.Notifications

open QueueWorker Signals

structure CoinGlassMarketContext where
  canonicalSymbol : String
  lines : Option (List String)

structure EnrichmentStats where
  queued : ℕ := 0
  enriched : ℕ := 0
  fallback : ℕ := 0
  queueFull : ℕ := 0
  bypassed : ℕ := 0
  deriving DecidableEq, Repr

structure EnricherConfig where
  queueSize : ℕ := 10
  strategyNames : List String
  /-- The text of a signal, if it can be formatted. -/
  signalText : Signal → Option String
  queueSize_pos : 1 ≤ queueSize
  strategyNames_ne_nil : strategyNames ≠ []

structure EnricherMemory where
  stats : EnrichmentStats := {}
  passed : List (Signal × Notification) := []
  deriving DecidableEq

inductive FetchOutcome
  | fetched (context : CoinGlassMarketContext)
  | exception
  | cancelled

structure Fetch where
  outcome : FetchOutcome
  handlerReturns : Bool

def truncated (maxLength : ℕ) (text : String) : String :=
  if maxLength < text.length then String.ofList (text.toList.take (maxLength - 1)) ++ "…" else text

variable (config : EnricherConfig)

def formatSignal (maxLength : ℕ) (signal : Signal) : Option Notification :=
  if maxLength < 32 then none
  else (config.signalText signal).map fun text => ⟨truncated maxLength text, some signal⟩

def formatSignalWithCoinglass (signal : Signal) (context : CoinGlassMarketContext) :
    Option Notification :=
  if context.canonicalSymbol ≠ signal.canonicalSymbol then none
  else do
    let base ← formatSignal config 100000 signal
    let lines ← context.lines
    let text := "\n".intercalate
      (base.text :: "CoinGlass supplemental context (not a trigger):" :: lines)
    return ⟨truncated 4096 text, some signal⟩

def passOn (memory : EnricherMemory) (signal : Signal) (notification : Option Notification)
    (returns : Bool) : EnricherMemory × Option Notification :=
  match notification with
  | some notification =>
    ({ memory with passed := memory.passed ++ [(signal, notification)] },
      if returns then some notification else none)
  | none => (memory, none)

def passOnPlain (memory : EnricherMemory) (signal : Signal) (returns : Bool) :
    EnricherMemory × Option Notification :=
  passOn memory signal (formatSignal config 4096 signal) returns

def handlingOf : EnricherMemory × Option Notification → EnricherMemory × Handling Unit Notification
  | (memory, some notification) => (memory, .finished notification)
  | (memory, none) => (memory, .raised)

/-- `_enrich` from the end of its fetch. -/
def resumeEnrichment (memory : EnricherMemory) (signal : Signal) (fetch : Fetch) :
    EnricherMemory × Handling Unit Notification :=
  match fetch.outcome with
  | .cancelled => (memory, .raised)
  | .exception =>
    let memory := { memory with stats := { memory.stats with fallback := memory.stats.fallback + 1 } }
    handlingOf (passOnPlain config memory signal fetch.handlerReturns)
  | .fetched context =>
    let memory := { memory with stats := { memory.stats with enriched := memory.stats.enriched + 1 } }
    handlingOf
      (passOn memory signal (formatSignalWithCoinglass config signal context) fetch.handlerReturns)

def enricher : Service Signal EnricherMemory Unit Fetch Notification where
  size := config.queueSize
  front memory signal returns :=
    if signal.strategyName ∈ config.strategyNames then (memory, .offered)
    else
      let memory := { memory with stats := { memory.stats with bypassed := memory.stats.bypassed + 1 } }
      let (memory, passed) := passOnPlain config memory signal returns
      (memory, if passed.isSome then .refused else .raised)
  accept memory := { memory with stats := { memory.stats with queued := memory.stats.queued + 1 } }
  refuse memory signal returns full :=
    let memory := { memory with stats := { memory.stats with
      queueFull := memory.stats.queueFull + if full then 1 else 0,
      fallback := memory.stats.fallback + 1 } }
    let (memory, passed) := passOnPlain config memory signal returns
    (memory, passed.isSome)
  begin memory _ _ := (memory, .suspended ())
  resume memory signal _ fetch := resumeEnrichment config memory signal fetch
  closeFailed memory := memory

abbrev EnricherState := State Signal EnricherMemory Unit Notification

def NotificationOf (signal : Signal) (notification : Notification) : Prop :=
  formatSignal config 4096 signal = some notification ∨
    ∃ context, formatSignalWithCoinglass config signal context = some notification

structure Passes (memory : EnricherMemory) (published : List (Signal × Fate))
    (handed : List (Signal × Notification)) : Prop where
  queued : memory.stats.queued = published.countP (·.2 = .queued)
  passed : ∃ plain, memory.passed.Perm (handed ++ plain) ∧
    plain.map Prod.fst = (published.filter (·.2 = .refused)).map Prod.fst ∧
    ∀ entry ∈ plain, formatSignal config 4096 entry.1 = some entry.2
  notifications : ∀ entry ∈ handed, NotificationOf config entry.1 entry.2
  counted : memory.stats.enriched + memory.stats.fallback + memory.stats.bypassed =
    memory.passed.length

variable {config} {memory : EnricherMemory} {published : List (Signal × Fate)}
  {handed : List (Signal × Notification)} {signal : Signal}

theorem passes_init : Passes config {} [] [] :=
  ⟨rfl, ⟨[], .refl [], rfl, by simp⟩, by simp, rfl⟩

theorem passOn_eq_some {memory' : EnricherMemory} {formatted : Option Notification} {returns : Bool}
    {notification : Notification}
    (h : passOn memory signal formatted returns = (memory', some notification)) :
    formatted = some notification ∧
      memory' = { memory with passed := memory.passed ++ [(signal, notification)] } := by
  unfold passOn at h
  cases formatted with
  | none => cases h
  | some found =>
    cases returns with
    | false => cases h
    | true =>
      cases h
      exact ⟨rfl, rfl⟩

theorem Passes.refuse {memory' : EnricherMemory} {notification : Notification}
    (h : Passes config memory published handed)
    (hformat : formatSignal config 4096 signal = some notification)
    (hpassed : memory'.passed = memory.passed ++ [(signal, notification)])
    (hqueued : memory'.stats.queued = memory.stats.queued)
    (hcounted : memory'.stats.enriched + memory'.stats.fallback + memory'.stats.bypassed =
      memory.stats.enriched + memory.stats.fallback + memory.stats.bypassed + 1) :
    Passes config memory' (published ++ [(signal, .refused)]) handed := by
  obtain ⟨plain, hperm, hplain, hall⟩ := h.passed
  refine ⟨?_, ⟨plain ++ [(signal, notification)], ?_, ?_, ?_⟩, h.notifications, ?_⟩
  · rw [hqueued, h.queued, List.countP_append]
    simp
  · rw [hpassed, ← List.append_assoc]
    exact hperm.append_right _
  · rw [List.map_append, hplain, List.filter_append, List.map_append]
    simp
  · intro entry hentry
    rcases List.mem_append.mp hentry with hold | hnew
    · exact hall entry hold
    · rw [List.mem_singleton.mp hnew]
      exact hformat
  · rw [hcounted, h.counted, hpassed, List.length_append, List.length_singleton]

theorem Passes.finish {memory' : EnricherMemory} {notification : Notification}
    (h : Passes config memory published handed)
    (hnotification : NotificationOf config signal notification)
    (hpassed : memory'.passed = memory.passed ++ [(signal, notification)])
    (hqueued : memory'.stats.queued = memory.stats.queued)
    (hcounted : memory'.stats.enriched + memory'.stats.fallback + memory'.stats.bypassed =
      memory.stats.enriched + memory.stats.fallback + memory.stats.bypassed + 1) :
    Passes config memory' published (handed ++ [(signal, notification)]) := by
  obtain ⟨plain, hperm, hplain, hall⟩ := h.passed
  refine ⟨hqueued.trans h.queued, ⟨plain, ?_, hplain, hall⟩, ?_, ?_⟩
  · rw [hpassed]
    refine (hperm.append_right _).trans ?_
    rw [List.append_assoc, List.append_assoc]
    exact (List.perm_append_comm).append_left handed
  · intro entry hentry
    rcases List.mem_append.mp hentry with hold | hnew
    · exact h.notifications entry hold
    · rw [List.mem_singleton.mp hnew]
      exact hnotification
  · rw [hcounted, h.counted, hpassed, List.length_append, List.length_singleton]

variable (config) in
def passes : State.Tally Signal EnricherMemory Unit Notification :=
  fun memory published handed _ _ => Passes config memory published handed

theorem Passes.resumeEnrichment {fetch : Fetch} {failures : ℕ}
    (h : Passes config memory published handed) :
    State.Settled (passes config) published handed failures signal
      (resumeEnrichment config memory signal fetch) := by
  unfold Notifications.resumeEnrichment
  split
  · trivial
  · simp only
    generalize hpass : passOnPlain config _ signal fetch.handlerReturns = result
    obtain ⟨memory', _ | notification⟩ := result
    · trivial
    · obtain ⟨hformat, rfl⟩ := passOn_eq_some hpass
      exact h.finish (.inl hformat) rfl rfl (by simp only; omega)
  · rename_i context houtcome
    simp only
    generalize hpass : passOn _ signal _ fetch.handlerReturns = result
    obtain ⟨memory', _ | notification⟩ := result
    · trivial
    · obtain ⟨hformat, rfl⟩ := passOn_eq_some hpass
      exact h.finish (.inr ⟨context, hformat⟩) rfl rfl (by simp only; omega)

theorem passes_keeps : State.Keeps (enricher config) (passes config) where
  passed := by
    intro memory memory' published handed work failures signal returns h hfront
    simp only [enricher] at hfront
    split at hfront
    · cases hfront
    · generalize hpass : passOnPlain config _ signal returns = result at hfront
      obtain ⟨memory'', _ | notification⟩ := result
      · cases hfront
      · cases hfront
        obtain ⟨hformat, rfl⟩ := passOn_eq_some hpass
        exact h.refuse hformat rfl rfl (by simp only; omega)
  accepted := by
    intro memory memory' published handed work failures signal returns h hfront
    simp only [enricher] at hfront
    split at hfront
    · cases hfront
      refine ⟨?_, ?_, h.notifications, h.counted⟩
      · simp [enricher, h.queued, List.countP_append]
      · obtain ⟨plain, hperm, hplain, hall⟩ := h.passed
        refine ⟨plain, hperm, ?_, hall⟩
        rw [hplain, List.filter_append]
        simp
    · generalize passOnPlain config _ signal returns = result at hfront
      obtain ⟨memory'', _ | notification⟩ := result <;> cases hfront
  refused := by
    intro memory memory' memory'' published handed work failures signal returns full h hfront hrefuse
    simp only [enricher] at hfront hrefuse
    split at hfront
    · cases hfront
      generalize hpass : passOnPlain config _ signal returns = result at hrefuse
      obtain ⟨memory'', _ | notification⟩ := result
      · cases hrefuse
      · cases hrefuse
        obtain ⟨hformat, rfl⟩ := passOn_eq_some hpass
        exact h.refuse hformat rfl rfl (by simp only; omega)
    · generalize passOnPlain config _ signal returns = result at hfront
      obtain ⟨memory'', _ | notification⟩ := result <;> cases hfront
  began _ _ h := h
  resumed _ _ _ h := Passes.resumeEnrichment h
  closeFailed h := h

/-- Without a publication behind the sentinel and without an exception that escapes, both the
dispatcher and the enricher hand on every item they have queued, in every run. -/
theorem published_handed_on (dispatching : DispatcherConfig) (enriching : EnricherConfig) :
    (∀ actions : List (Action Notification Resumption),
      Run.Guarded (State.step (dispatcher dispatching)) (State.Orderly (dispatcher dispatching))
        { memory := {} } actions →
      let s := Run.run (State.step (dispatcher dispatching)) { memory := {} } actions
      State.HandsOn s ∧
        Accounts dispatching s.memory s.published s.handed s.worker.busy? s.closeFailures) ∧
    ∀ actions : List (Action Signal Fetch),
      Run.Guarded (State.step (enricher enriching)) (State.Orderly (enricher enriching))
        { memory := {} } actions →
      let s := Run.run (State.step (enricher enriching)) { memory := {} } actions
      State.HandsOn s ∧ Passes enriching s.memory s.published s.handed := by
  constructor
  · intro actions h
    exact ⟨State.handsOn_run _ _ h, State.tallies_run accounts_keeps accounts_init h⟩
  · intro actions h
    exact ⟨State.handsOn_run _ _ h, State.tallies_run passes_keeps passes_init h⟩

section

def plainDispatcher : DispatcherConfig where
  queueSize_pos := by decide
  maxAttempts_pos := by decide
  retryBase_pos := by decide
  maxRetryDelay_pos := by decide
  minimumInterval_nonneg := by decide

def plainEnricher : EnricherConfig where
  strategyNames := ["touch"]
  signalText signal := some signal.strategyName
  queueSize_pos := by decide
  strategyNames_ne_nil := by decide

def touch : Signal := ⟨"touch", "1", "BTC/USDT", 0, "touch"⟩

def returned : Resumption := ⟨.returned, 0, 0⟩

/-- A signal is published, handed on while `close` waits, and followed by the sentinel. -/
theorem published_handed_on_once :
    State.HandsOn (Run.run (State.step (dispatcher plainDispatcher)) { memory := {} }
      [.start, .publish ⟨"touch", some touch⟩ true, .take returned, .close, .resume returned, .proceed,
        .take returned, .proceed, .transportClosed true]) ∧
    State.HandsOn (Run.run (State.step (enricher plainEnricher)) { memory := {} }
      [.start, .publish touch true, .take ⟨.exception, true⟩, .close, .resume ⟨.exception, true⟩,
        .proceed, .take ⟨.exception, true⟩, .proceed, .transportClosed true]) := by
  have htheorem := published_handed_on plainDispatcher plainEnricher
  refine ⟨(htheorem.1 _ ?_).1, (htheorem.2 _ ?_).1⟩
  · refine ⟨trivial, List.not_mem_nil, ?_, trivial, ?_, trivial, ?_, trivial, trivial, trivial⟩
    · intro item rest hqueue
      cases hqueue
      decide
    · intro item progress hworker
      cases hworker
      decide
    · intro item rest hqueue
      cases hqueue
  · refine ⟨trivial, List.not_mem_nil, ?_, trivial, ?_, trivial, ?_, trivial, trivial, trivial⟩
    · intro item rest hqueue
      cases hqueue
      decide
    · intro item progress hworker
      cases hworker
      decide
    · intro item rest hqueue
      cases hqueue

/-- What is published between the sentinel and the end of the worker is counted as queued and never
handed on. -/
theorem published_behind_sentinel :
    (let s := Run.run (State.step (dispatcher plainDispatcher)) { memory := {} }
      [.start, .close, .publish ⟨"touch", some touch⟩ true, .take returned, .proceed,
        .transportClosed true]
     s.closing = .returned ∧ s.memory.stats.queued = 1 ∧ s.memory.stats.sent = 0 ∧
       s.memory.stats.failed = 0 ∧ s.memory.sends = [] ∧ s.handed = []) ∧
    (let s := Run.run (State.step (enricher plainEnricher)) { memory := {} }
      [.start, .close, .publish touch true, .take ⟨.exception, true⟩, .proceed, .transportClosed true]
     s.closing = .returned ∧ s.memory.stats.queued = 1 ∧ s.memory.passed = [] ∧ s.handed = []) := by
  decide +kernel

end

end ChainQuantStudio.Notifications
