import ChainQuantStudio.Library.PumpedQueues
import Mathlib.Data.List.Induction

/-!
# Order books bridged from a stream that is already open

One generation of a depth stream: a pump fills bounded queues while the consumer of each queue waits
for a delta of every instrument it is for, fetches their snapshots, applies these, and only then
processes what it has buffered and what the queue still brings. The consumer of all instruments and
the consumers of one instrument each are both of this form.
-/

namespace ChainQuantStudio.State.Supervisor

open PumpedQueues Run

/-- A generation: what goes into which queue, which instruments the consumer of a queue is for, and
how the market takes a snapshot and an event. -/
structure Generation (κ ι ε E σ S In : Type*) where
  routing : Routing κ ε
  instruments : κ → List ι
  /-- The instruments still without a delta, after an event. -/
  discard : List ι → ε → List ι
  bufferFilled : String
  applySnapshot : σ → S → σ × Option E
  processEvent : σ → ε → In → σ × Option E

inductive Consumer (ι ε : Type*)
  | awaiting (awaitingDepth : List ι) (buffered : List ε)
  | fetching (buffered : List ε)
  | processing (buffered : List ε)
  deriving DecidableEq, Repr

/-- Why a generation is over. Without an error, `terminated` is the `RuntimeError` of a stream that
ended. -/
inductive Ending (E : Type*)
  | terminated (error : Option E)
  | bufferFilled (message : String)
  | raised (error : E)
  | cancelled
  deriving DecidableEq, Repr

inductive Call (ε S In : Type*)
  | snapshot (snapshot : S)
  | event (event : ε) (input : In)
  deriving DecidableEq, Repr

structure Streaming (κ ι ε E σ S In : Type*) where
  feed : Feed κ ε E := {}
  consumers : κ → Consumer ι ε
  market : σ
  calls : List (κ × Call ε S In) := []
  ending : Option (Ending E) := none

/-- The source answers the pump, the pump goes on, a consumer goes on, a request for snapshots is
answered, or the generation is cancelled. -/
inductive BootstrapAction (κ ε E S In : Type*)
  | answer (answer : Answer ε E)
  | enqueue
  | proceed (key : κ) (input : In)
  | fetched (key : κ) (answer : Except E (List S))
  | cancel

variable {κ ι ε E σ S In : Type*}

def Consumer.settle (awaitingDepth : List ι) (buffered : List ε) : Consumer ι ε :=
  if awaitingDepth = [] then .fetching buffered else .awaiting awaitingDepth buffered

namespace Generation

variable [DecidableEq κ] (generation : Generation κ ι ε E σ S In)

def start (market : σ) : Streaming κ ι ε E σ S In where
  consumers key := .settle (generation.instruments key) []
  market := market

def call (market : σ) : Call ε S In → σ × Option E
  | .snapshot snapshot => generation.applySnapshot market snapshot
  | .event event input => generation.processEvent market event input

def perform (key : κ) (streaming : Streaming κ ι ε E σ S In) (call : Call ε S In) :
    Streaming κ ι ε E σ S In :=
  if streaming.ending.isSome then streaming
  else
    let (market, raised) := generation.call streaming.market call
    { streaming with
      market
      calls := streaming.calls ++ [(key, call)]
      ending := raised.map .raised }

def buffer (key : κ) (awaitingDepth : List ι) (buffered : List ε) (event : ε)
    (streaming : Streaming κ ι ε E σ S In) : Streaming κ ι ε E σ S In :=
  let buffered := buffered ++ [event]
  if generation.routing.size ≤ buffered.length then
    { streaming with
      consumers := Function.update streaming.consumers key (.awaiting awaitingDepth buffered)
      ending := some (.bufferFilled generation.bufferFilled) }
  else
    { streaming with
      consumers := Function.update streaming.consumers key
        (.settle (generation.discard awaitingDepth event) buffered) }

def receive (key : κ) (handle : ε → Streaming κ ι ε E σ S In → Streaming κ ι ε E σ S In)
    (streaming : Streaming κ ι ε E σ S In) : Streaming κ ι ε E σ S In :=
  match streaming.feed.take key with
  | none => streaming
  | some (.termination error, feed) =>
    { streaming with feed, ending := some (.terminated error) }
  | some (.event event, feed) => handle event { streaming with feed }

def proceed (key : κ) (input : In) (streaming : Streaming κ ι ε E σ S In) :
    Streaming κ ι ε E σ S In :=
  match streaming.consumers key with
  | .awaiting awaitingDepth buffered =>
    receive key (generation.buffer key awaitingDepth buffered) streaming
  | .fetching _ => streaming
  | .processing (event :: rest) =>
    generation.perform key
      { streaming with
        consumers := Function.update streaming.consumers key (.processing rest) }
      (.event event input)
  | .processing [] =>
    receive key (fun event streaming => generation.perform key streaming (.event event input))
      streaming

def snapshotsFetched (key : κ) (answer : Except E (List S))
    (streaming : Streaming κ ι ε E σ S In) : Streaming κ ι ε E σ S In :=
  match streaming.consumers key, answer with
  | .fetching _, .error error => { streaming with ending := some (.raised error) }
  | .fetching buffered, .ok snapshots =>
    (snapshots.map Call.snapshot).foldl (generation.perform key)
      { streaming with
        consumers := Function.update streaming.consumers key (.processing buffered) }
  | _, _ => streaming

def step (streaming : Streaming κ ι ε E σ S In) (action : BootstrapAction κ ε E S In) :
    Streaming κ ι ε E σ S In :=
  if streaming.ending.isSome then streaming
  else
    match action with
    | .answer answer =>
      { streaming with feed := streaming.feed.answered generation.routing answer }
    | .enqueue => { streaming with feed := streaming.feed.enqueue generation.routing }
    | .proceed key input => generation.proceed key input streaming
    | .fetched key answer => generation.snapshotsFetched key answer streaming
    | .cancel => { streaming with ending := some .cancelled }

end Generation

namespace Streaming

variable [DecidableEq κ] (streaming : Streaming κ ι ε E σ S In)

def callsOf (key : κ) : List (Call ε S In) :=
  (streaming.calls.filter fun call => call.1 = key).map Prod.snd

end Streaming

namespace Call

end Call

def callsFor (snapshots : List S) (events : List (ε × In)) : List (Call ε S In) :=
  snapshots.map .snapshot ++ events.map fun event => .event event.1 event.2

namespace Generation

variable (generation : Generation κ ι ε E σ S In) (depthOf : ε → Option ι)

/-- An instrument stops being awaited only with a delta of its own. -/
def Awaits : Prop :=
  ∀ key event awaitingDepth instrument, generation.routing.route event = some key →
    instrument ∈ generation.instruments key → instrument ∈ awaitingDepth →
    instrument ∉ generation.discard awaitingDepth event → depthOf event = some instrument

/-- Every instrument of the queue that is not among `awaitingDepth` has a delta among the events. -/
def Seen (key : κ) (awaitingDepth : List ι) (events : List ε) : Prop :=
  ∀ instrument ∈ generation.instruments key, instrument ∉ awaitingDepth →
    ∃ event ∈ events, depthOf event = some instrument

def Explains (key : κ) (taken : List ε) (calls : List (Call ε S In)) : Consumer ι ε → Prop
  | .awaiting awaitingDepth buffered => calls = [] ∧ taken = buffered ∧
    buffered.length ≤ generation.routing.size ∧ generation.Seen depthOf key awaitingDepth buffered
  | .fetching buffered => calls = [] ∧ taken = buffered ∧
    buffered.length ≤ generation.routing.size ∧ generation.Seen depthOf key [] buffered
  | .processing rest => ∃ snapshots events, calls = callsFor snapshots events ∧
    taken = events.map Prod.fst ++ rest ∧ rest.length ≤ generation.routing.size ∧
    generation.Seen depthOf key [] taken

variable {generation depthOf}

theorem Seen.mono {key : κ} {awaitingDepth : List ι} {events more : List ε}
    (h : generation.Seen depthOf key awaitingDepth events) (hsub : events ⊆ more) :
    generation.Seen depthOf key awaitingDepth more := by
  intro instrument hmem hnot
  obtain ⟨event, hevent, hdepth⟩ := h instrument hmem hnot
  exact ⟨event, hsub hevent, hdepth⟩

theorem explains_settle {key : κ} {awaitingDepth : List ι} {buffered : List ε}
    (hlength : buffered.length ≤ generation.routing.size)
    (hseen : generation.Seen depthOf key awaitingDepth buffered) :
    generation.Explains depthOf key buffered [] (.settle awaitingDepth buffered) := by
  unfold Consumer.settle
  split_ifs with hnil
  · subst hnil
    exact ⟨rfl, rfl, hlength, hseen⟩
  · exact ⟨rfl, rfl, hlength, hseen⟩

theorem settle_awaiting {awaitingDepth other : List ι} {buffered events : List ε}
    (h : Consumer.settle awaitingDepth events = .awaiting other buffered) : buffered = events := by
  unfold Consumer.settle at h
  split_ifs at h
  cases h
  rfl

theorem settle_ne_processing (awaitingDepth : List ι) (events rest : List ε) :
    Consumer.settle awaitingDepth events ≠ .processing rest := by
  unfold Consumer.settle
  split_ifs
  · intro h
    cases h
  · intro h
    cases h

theorem callsFor_concat (snapshots : List S) (events : List (ε × In)) (event : ε) (input : In) :
    callsFor snapshots events ++ [.event event input] =
      callsFor snapshots (events ++ [(event, input)]) := by
  simp [callsFor]

variable [DecidableEq κ]

variable (generation depthOf) in
/-- What is known in every state of a run that began in `market`. -/
structure Keeps (market : σ) (streaming : Streaming κ ι ε E σ S In) : Prop where
  feed : streaming.feed.Inv generation.routing
  explains : ∀ key, generation.Explains depthOf key (eventsOf (streaming.feed.taken key))
    (streaming.callsOf key) (streaming.consumers key)
  market_eq : streaming.market =
    run (fun market call => (generation.call market call).1) market
      (streaming.calls.map Prod.snd)
  room : streaming.ending = none → ∀ key awaitingDepth buffered,
    streaming.consumers key = .awaiting awaitingDepth buffered →
      buffered.length < generation.routing.size
  terminated : ∀ error, streaming.ending = some (.terminated error) →
    ∃ key, streaming.feed.routed generation.routing key = eventsOf (streaming.feed.taken key) ∧
      ∀ rest, streaming.consumers key = .processing rest → rest = []

variable {market : σ} {streaming : Streaming κ ι ε E σ S In}

theorem keeps_start (market : σ) : generation.Keeps depthOf market (generation.start market) where
  feed := Feed.inv_start
  explains key := explains_settle (Nat.zero_le _) fun _ hmem hnot => absurd hmem hnot
  market_eq := rfl
  room _ key awaitingDepth buffered hconsumer := by
    have hnil : buffered = [] := settle_awaiting hconsumer
    rw [hnil]
    exact generation.routing.size_pos
  terminated error h := by cases h

theorem callsOf_concat (key other : κ) (call : Call ε S In) (calls : List (κ × Call ε S In)) :
    ((calls ++ [(key, call)]).filter (fun call => call.1 = other)).map Prod.snd =
      (calls.filter fun call => call.1 = other).map Prod.snd ++
        if key = other then [call] else [] := by
  by_cases hkey : key = other <;> simp [hkey]

theorem Keeps.withFeed (h : generation.Keeps depthOf market streaming) {feed : Feed κ ε E}
    (hfeed : feed.Inv generation.routing) (htaken : feed.taken = streaming.feed.taken)
    (hrunning : streaming.ending = none) :
    generation.Keeps depthOf market { streaming with feed } where
  feed := hfeed
  explains key := by
    rw [htaken]
    exact h.explains key
  market_eq := h.market_eq
  room := h.room
  terminated error hended := by
    rw [hrunning] at hended
    cases hended

theorem Keeps.withEnding (h : generation.Keeps depthOf market streaming) {ending : Ending E}
    (hending : ∀ error, ending ≠ .terminated error) :
    generation.Keeps depthOf market { streaming with ending := some ending } where
  feed := h.feed
  explains := h.explains
  market_eq := h.market_eq
  room hnone := by cases hnone
  terminated error hended := absurd (Option.some.inj hended) (hending error)

omit [DecidableEq κ] in
theorem perform_ended {key : κ} {call : Call ε S In} (hended : streaming.ending.isSome) :
    generation.perform key streaming call = streaming := by
  rw [Generation.perform, if_pos hended]

omit [DecidableEq κ] in
theorem perform_running {key : κ} {call : Call ε S In} (hrunning : streaming.ending = none) :
    generation.perform key streaming call =
      { streaming with
        market := (generation.call streaming.market call).1
        calls := streaming.calls ++ [(key, call)]
        ending := (generation.call streaming.market call).2.map .raised } := by
  rw [Generation.perform, if_neg (by simp [hrunning])]

theorem Keeps.perform {key : κ} {call : Call ε S In} (hfeed : streaming.feed.Inv generation.routing)
    (hothers : ∀ other, other ≠ key → generation.Explains depthOf other
      (eventsOf (streaming.feed.taken other)) (streaming.callsOf other) (streaming.consumers other))
    (hkey : generation.Explains depthOf key (eventsOf (streaming.feed.taken key))
      (streaming.callsOf key ++ [call]) (streaming.consumers key))
    (hmarket : streaming.market = run (fun market call => (generation.call market call).1) market
      (streaming.calls.map Prod.snd))
    (hrunning : streaming.ending = none)
    (hroom : ∀ key awaitingDepth buffered,
      streaming.consumers key = .awaiting awaitingDepth buffered →
        buffered.length < generation.routing.size) :
    generation.Keeps depthOf market (generation.perform key streaming call) := by
  rw [perform_running hrunning]
  refine ⟨hfeed, fun other => ?_, ?_, fun _ => hroom, fun error hended => ?_⟩
  · simp only [Streaming.callsOf]
    rw [callsOf_concat]
    by_cases hother : other = key
    · subst hother
      simpa [Streaming.callsOf] using hkey
    · simpa [Ne.symm hother, Streaming.callsOf] using hothers other hother
  · simp [hmarket]
  · cases hraised : (generation.call streaming.market call).2 <;> simp [hraised] at hended

theorem Keeps.performAll {key : κ} {rest : List ε} (snapshots done : List S)
    (h : generation.Keeps depthOf market streaming)
    (hconsumer : streaming.consumers key = .processing rest)
    (hcalls : streaming.callsOf key = callsFor done []) :
    generation.Keeps depthOf market
      ((snapshots.map Call.snapshot).foldl (generation.perform key) streaming) := by
  induction snapshots generalizing streaming done with
  | nil => exact h
  | cons snapshot snapshots ih =>
    rw [List.map_cons, List.foldl_cons]
    by_cases hended : streaming.ending.isSome
    · rw [perform_ended hended]
      exact ih done h hconsumer hcalls
    · have hrunning : streaming.ending = none := Option.not_isSome_iff_eq_none.mp hended
      have hexplains := h.explains key
      rw [hconsumer] at hexplains
      obtain ⟨snapshots', events, hcalls', htaken, hlength, hseen⟩ := hexplains
      have hevents : events = [] := by
        have hmem : ∀ event ∈ events, False := by
          intro event hevent
          have hin : Call.event event.1 event.2 ∈ callsFor done ([] : List (ε × In)) := by
            rw [← hcalls, hcalls', callsFor]
            exact List.mem_append_right _ (List.mem_map_of_mem hevent)
          simp [callsFor] at hin
        exact List.eq_nil_iff_forall_not_mem.mpr hmem
      subst hevents
      have hcalls'' : streaming.callsOf key ++ [.snapshot snapshot] =
          callsFor (done ++ [snapshot]) [] := by
        rw [hcalls]
        simp [callsFor]
      have hstep : generation.Keeps depthOf market
          (generation.perform key streaming (.snapshot snapshot)) := by
        apply Keeps.perform h.feed (fun other _ => h.explains other) _ h.market_eq hrunning
          (h.room hrunning)
        rw [hconsumer, hcalls'']
        exact ⟨_, [], rfl, htaken, hlength, hseen⟩
      refine ih (done ++ [snapshot]) hstep ?_ ?_
      · rw [perform_running hrunning]
        exact hconsumer
      · rw [← hcalls'', perform_running hrunning]
        simp [Streaming.callsOf]

theorem Keeps.receive {key : κ} {handle : ε → Streaming κ ι ε E σ S In → Streaming κ ι ε E σ S In}
    (h : generation.Keeps depthOf market streaming)
    (hplace : ∀ rest, streaming.consumers key = .processing rest → rest = [])
    (hhandle : ∀ event feed, feed.Inv generation.routing →
      eventsOf (feed.taken key) = eventsOf (streaming.feed.taken key) ++ [event] →
      (∀ other, other ≠ key → feed.taken other = streaming.feed.taken other) →
      generation.routing.route event = some key →
      generation.Keeps depthOf market (handle event { streaming with feed })) :
    generation.Keeps depthOf market (Generation.receive key handle streaming) := by
  unfold Generation.receive
  split
  · exact h
  · rename_i error feed htake
    have htermination := h.feed.routed_of_termination htake
    have hinv := h.feed.take htake
    obtain ⟨rest, hqueue, rfl⟩ := Feed.take_eq_some htake
    have htaken : ∀ other, eventsOf (Function.update streaming.feed.taken key
        (streaming.feed.taken key ++ [.termination error]) other) =
          eventsOf (streaming.feed.taken other) := by
      intro other
      by_cases hother : other = key
      · subst hother
        simp [eventsOf]
      · simp [hother]
    refine ⟨hinv, fun other => ?_, h.market_eq, fun hnone => ?_, fun _ _ => ⟨key, ?_, hplace⟩⟩
    · have hexplains := h.explains other
      rw [← htaken other] at hexplains
      exact hexplains
    · cases hnone
    · exact htermination.1.trans (htaken key).symm
  · rename_i event feed htake
    have hinv := h.feed.take htake
    have hroute : generation.routing.route event = some key := by
      have hinitial := hinv.taken_isPrefix key
      obtain ⟨rest, hqueue, rfl⟩ := Feed.take_eq_some htake
      have hmem : event ∈ eventsOf (Function.update streaming.feed.taken key
          (streaming.feed.taken key ++ [.event event]) key) := by
        simp [eventsOf]
      have hrouted := hinitial.subset hmem
      simpa [Feed.routed] using (List.mem_filter.mp hrouted).2
    obtain ⟨rest, hqueue, rfl⟩ := Feed.take_eq_some htake
    refine hhandle event _ hinv ?_ (fun other hother => ?_) hroute
    · simp [eventsOf]
    · simp [hother]

theorem Keeps.buffer (hawaits : generation.Awaits depthOf) {key : κ} {awaitingDepth : List ι}
    {buffered : List ε} {event : ε} {feed : Feed κ ε E}
    (h : generation.Keeps depthOf market streaming)
    (hconsumer : streaming.consumers key = .awaiting awaitingDepth buffered)
    (hrunning : streaming.ending = none) (hfeed : feed.Inv generation.routing)
    (htaken : eventsOf (feed.taken key) = eventsOf (streaming.feed.taken key) ++ [event])
    (hothers : ∀ other, other ≠ key → feed.taken other = streaming.feed.taken other)
    (hroute : generation.routing.route event = some key) :
    generation.Keeps depthOf market
      (generation.buffer key awaitingDepth buffered event { streaming with feed }) := by
  have hexplains := h.explains key
  rw [hconsumer] at hexplains
  obtain ⟨hcalls, hbuffered, -, hseen⟩ := hexplains
  have hlength : (buffered ++ [event]).length ≤ generation.routing.size := by
    rw [List.length_append, List.length_singleton]
    exact h.room hrunning key _ _ hconsumer
  have hseen' : generation.Seen depthOf key awaitingDepth (buffered ++ [event]) :=
    hseen.mono (List.subset_append_left _ _)
  have hkey : ∀ consumer, generation.Explains depthOf key (buffered ++ [event]) [] consumer →
      ∀ other, generation.Explains depthOf other (eventsOf (feed.taken other))
        (streaming.callsOf other) (Function.update streaming.consumers key consumer other) := by
    intro consumer hconsumer' other
    by_cases hother : other = key
    · subst hother
      simpa [htaken, hbuffered, hcalls] using hconsumer'
    · simpa [hother, hothers other hother] using h.explains other
  unfold Generation.buffer
  dsimp only
  split_ifs
  · refine ⟨hfeed, hkey _ ⟨rfl, rfl, hlength, hseen'⟩, h.market_eq, fun hnone => ?_,
      fun _ hended => ?_⟩
    · cases hnone
    · cases hended
  · rename_i hnotFull
    refine ⟨hfeed, hkey _ (explains_settle hlength ?_), h.market_eq, fun _ => ?_, fun error hended => ?_⟩
    · intro instrument hmem hnot
      by_cases hawaited : instrument ∈ awaitingDepth
      · exact ⟨event, by simp, hawaits key event _ _ hroute hmem hawaited hnot⟩
      · exact hseen' instrument hmem hawaited
    · intro other others events hother
      by_cases hne : other = key
      · subst hne
        simp only [Function.update_self] at hother
        rw [settle_awaiting hother]
        exact Nat.lt_of_not_le hnotFull
      · simp only [Function.update_of_ne hne] at hother
        exact h.room hrunning other _ _ hother
    · exact absurd (hrunning.symm.trans hended) (by simp)

theorem Keeps.proceed (hawaits : generation.Awaits depthOf)
    (h : generation.Keeps depthOf market streaming) (hrunning : streaming.ending = none) (key : κ)
    (input : In) : generation.Keeps depthOf market (generation.proceed key input streaming) := by
  have hexplains := h.explains key
  unfold Generation.proceed
  split
  · rename_i awaitingDepth buffered hconsumer
    refine h.receive (fun rest hrest => ?_) fun event feed hfeed htaken hothers hroute => ?_
    · rw [hconsumer] at hrest
      cases hrest
    exact h.buffer hawaits hconsumer hrunning hfeed htaken hothers hroute
  · exact h
  · rename_i event rest hconsumer
    rw [hconsumer] at hexplains
    obtain ⟨snapshots, events, hcalls, htaken, hlength, hseen⟩ := hexplains
    refine Keeps.perform h.feed (fun other hne => ?_) ?_ h.market_eq hrunning ?_
    · simp only [Function.update_of_ne hne]
      exact h.explains other
    · simp only [Function.update_self]
      refine ⟨snapshots, events ++ [(event, input)], ?_, ?_, ?_, hseen⟩
      · rw [← callsFor_concat, ← hcalls]
        rfl
      · simpa using htaken
      · rw [List.length_cons] at hlength
        omega
    · intro other awaitingDepth buffered hother
      by_cases hne : other = key
      · subst hne
        simp at hother
      · simp only [Function.update_of_ne hne] at hother
        exact h.room hrunning other _ _ hother
  · rename_i hconsumer
    rw [hconsumer] at hexplains
    obtain ⟨snapshots, events, hcalls, htaken, -, hseen⟩ := hexplains
    refine h.receive (fun rest hrest => ?_) fun event feed hfeed htaken' hothers _ => ?_
    · rw [hconsumer] at hrest
      cases hrest
      rfl
    refine Keeps.perform hfeed (fun other hne => ?_) ?_ h.market_eq hrunning (h.room hrunning)
    · simp only [hothers other hne]
      exact h.explains other
    · simp only [hconsumer]
      refine ⟨snapshots, events ++ [(event, input)], ?_, ?_, Nat.zero_le _, ?_⟩
      · rw [← callsFor_concat, ← hcalls]
        rfl
      · rw [htaken', htaken]
        simp
      · rw [htaken']
        exact hseen.mono (List.subset_append_left _ _)

theorem Keeps.snapshotsFetched (h : generation.Keeps depthOf market streaming)
    (hrunning : streaming.ending = none) (key : κ) (answer : Except E (List S)) :
    generation.Keeps depthOf market (generation.snapshotsFetched key answer streaming) := by
  have hexplains := h.explains key
  unfold Generation.snapshotsFetched
  split
  · exact h.withEnding fun _ hending => by cases hending
  · rename_i buffered snapshots hconsumer
    rw [hconsumer] at hexplains
    obtain ⟨hcalls, htaken, hlength, hseen⟩ := hexplains
    have hkeeps : generation.Keeps depthOf market
        { streaming with
          consumers := Function.update streaming.consumers key (.processing buffered) } := by
      refine ⟨h.feed, fun other => ?_, h.market_eq, fun _ => ?_, fun error hended => ?_⟩
      · by_cases hne : other = key
        · subst hne
          simp only [Function.update_self]
          exact ⟨[], [], hcalls, htaken, hlength, htaken ▸ hseen⟩
        · simp only [Function.update_of_ne hne]
          exact h.explains other
      · intro other awaitingDepth events hother
        by_cases hne : other = key
        · subst hne
          simp at hother
        · simp only [Function.update_of_ne hne] at hother
          exact h.room hrunning other _ _ hother
      · exact absurd (hrunning.symm.trans hended) (by simp)
    have hcalls' : ({ streaming with
        consumers := Function.update streaming.consumers key (.processing buffered) } :
          Streaming κ ι ε E σ S In).callsOf key = callsFor [] [] := hcalls
    exact hkeeps.performAll snapshots [] (Function.update_self key _ _) hcalls'
  · exact h

theorem Keeps.step (hawaits : generation.Awaits depthOf)
    (h : generation.Keeps depthOf market streaming) (action : BootstrapAction κ ε E S In) :
    generation.Keeps depthOf market (generation.step streaming action) := by
  unfold Generation.step
  split_ifs with hended
  · exact h
  · have hrunning : streaming.ending = none := Option.not_isSome_iff_eq_none.mp hended
    cases action with
    | answer answer =>
      refine h.withFeed (h.feed.answered answer) ?_ hrunning
      exact Feed.answered_taken answer
    | enqueue =>
      refine h.withFeed h.feed.enqueue ?_ hrunning
      exact Feed.enqueue_taken
    | proceed key input => exact h.proceed hawaits hrunning key input
    | fetched key answer => exact h.snapshotsFetched hrunning key answer
    | cancel => exact h.withEnding fun _ hending => by cases hending

theorem keeps_run (hawaits : generation.Awaits depthOf) (market : σ)
    (actions : List (BootstrapAction κ ε E S In)) :
    generation.Keeps depthOf market (run generation.step (generation.start market) actions) :=
  run_invariant _ (fun _ action h => h.step hawaits action) (keeps_start market) actions

theorem Keeps.callsOf_eq (h : generation.Keeps depthOf market streaming) (key : κ) :
    ∃ snapshots events, streaming.callsOf key = callsFor snapshots events ∧
      events.map Prod.fst <+: eventsOf (streaming.feed.taken key) ∧
      (streaming.callsOf key ≠ [] →
        generation.Seen depthOf key [] (eventsOf (streaming.feed.taken key))) := by
  have hexplains := h.explains key
  cases hconsumer : streaming.consumers key with
  | awaiting awaitingDepth buffered =>
    rw [hconsumer] at hexplains
    exact ⟨[], [], hexplains.1, List.nil_prefix, fun hne => absurd hexplains.1 hne⟩
  | fetching buffered =>
    rw [hconsumer] at hexplains
    exact ⟨[], [], hexplains.1, List.nil_prefix, fun hne => absurd hexplains.1 hne⟩
  | processing rest =>
    rw [hconsumer] at hexplains
    obtain ⟨snapshots, events, hcalls, htaken, -, hseen⟩ := hexplains
    exact ⟨snapshots, events, hcalls, htaken ▸ List.prefix_append _ _, fun _ => hseen⟩

section

/-- The consumer's request for snapshots is answered in the run, while it waits for them. -/
def Answered (generation : Generation κ ι ε E σ S In) (market : σ)
    (actions : List (BootstrapAction κ ε E S In)) (key : κ) (answer : List S) : Prop :=
  ∃ before after buffered, actions = before ++ .fetched key (.ok answer) :: after ∧
    (run generation.step (generation.start market) before).ending = none ∧
    (run generation.step (generation.start market) before).consumers key = .fetching buffered

variable (P : κ → List S → Prop)

def Loaded (streaming : Streaming κ ι ε E σ S In) : Prop :=
  ∀ key rest, streaming.consumers key = .processing rest → ∃ answer snapshots events,
    P key answer ∧ streaming.callsOf key = callsFor snapshots events ∧ snapshots <+: answer ∧
      (streaming.ending = none ∨ events ≠ [] → snapshots = answer)

/-- The action answers no request for snapshots but with such ones. -/
def Answers (action : BootstrapAction κ ε E S In) : Prop :=
  ∀ key snapshots, action = .fetched key (.ok snapshots) → P key snapshots

variable {P}

theorem Loaded.mono {Q : κ → List S → Prop} (h : Loaded P streaming)
    (hsub : ∀ key answer, P key answer → Q key answer) : Loaded Q streaming := by
  intro key rest hconsumer
  obtain ⟨answer, snapshots, events, hanswer, hrest⟩ := h key rest hconsumer
  exact ⟨answer, snapshots, events, hsub key answer hanswer, hrest⟩

theorem Answered.append {market : σ} {actions : List (BootstrapAction κ ε E S In)} {key : κ}
    {answer : List S} (h : Answered generation market actions key answer)
    (more : List (BootstrapAction κ ε E S In)) :
    Answered generation market (actions ++ more) key answer := by
  obtain ⟨before, after, buffered, rfl, hrunning, hconsumer⟩ := h
  exact ⟨before, after ++ more, buffered, by simp, hrunning, hconsumer⟩

theorem Answered.mem {market : σ} {actions : List (BootstrapAction κ ε E S In)} {key : κ}
    {answer : List S} (h : Answered generation market actions key answer) :
    .fetched key (.ok answer) ∈ actions := by
  obtain ⟨before, after, buffered, rfl, -, -⟩ := h
  simp

theorem Loaded.withFeed (h : Loaded P streaming) (hrunning : streaming.ending = none)
    (feed : Feed κ ε E) (ending : Option (Ending E)) :
    Loaded P { streaming with feed, ending } := by
  intro key rest hconsumer
  obtain ⟨answer, snapshots, events, hanswer, hcalls, hinitial, hall⟩ := h key rest hconsumer
  exact ⟨answer, snapshots, events, hanswer, hcalls, hinitial, fun _ => hall (Or.inl hrunning)⟩

theorem Loaded.perform {key : κ} {event : ε} {input : In}
    (hothers : ∀ other rest, other ≠ key → streaming.consumers other = .processing rest →
      ∃ answer snapshots events, P other answer ∧
        streaming.callsOf other = callsFor snapshots events ∧ snapshots = answer)
    (hkey : ∃ answer snapshots events, P key answer ∧
      streaming.callsOf key = callsFor snapshots events ∧ snapshots = answer)
    (hrunning : streaming.ending = none) :
    Loaded P (generation.perform key streaming (.event event input)) := by
  rw [perform_running hrunning]
  intro other rest hconsumer
  simp only [Streaming.callsOf]
  rw [callsOf_concat]
  by_cases hother : key = other
  · subst hother
    obtain ⟨answer, snapshots, events, hanswer, hcalls, hall⟩ := hkey
    refine ⟨answer, snapshots, events ++ [(event, input)], hanswer, ?_, hall ▸ List.prefix_rfl,
      fun _ => hall⟩
    rw [← callsFor_concat, ← hcalls, if_pos rfl]
    rfl
  · obtain ⟨answer, snapshots, events, hanswer, hcalls, hall⟩ :=
      hothers other rest (Ne.symm hother) hconsumer
    refine ⟨answer, snapshots, events, hanswer, ?_, hall ▸ List.prefix_rfl, fun _ => hall⟩
    rw [if_neg hother, List.append_nil]
    exact hcalls

omit [DecidableEq κ] in
theorem performAll_ended {key : κ} {calls : List (Call ε S In)}
    (hended : streaming.ending.isSome) :
    calls.foldl (generation.perform key) streaming = streaming := by
  induction calls with
  | nil => rfl
  | cons call calls ih =>
    rw [List.foldl_cons, perform_ended hended]
    exact ih

theorem performAll_spec (key : κ) (snapshots : List S) :
    let after := (snapshots.map Call.snapshot).foldl (generation.perform key) streaming
    after.consumers = streaming.consumers ∧
      (∀ other, other ≠ key → after.callsOf other = streaming.callsOf other) ∧
      ∃ applied, after.callsOf key = streaming.callsOf key ++ applied.map .snapshot ∧
        applied <+: snapshots ∧ (after.ending = none → applied = snapshots) := by
  induction snapshots generalizing streaming with
  | nil => exact ⟨rfl, fun _ _ => rfl, [], by simp, List.prefix_rfl, fun _ => rfl⟩
  | cons snapshot snapshots ih =>
    rw [List.map_cons, List.foldl_cons]
    by_cases hended : streaming.ending.isSome
    · rw [perform_ended hended, performAll_ended hended]
      refine ⟨rfl, fun _ _ => rfl, [], by simp, List.nil_prefix, fun hnone => ?_⟩
      simp [hnone] at hended
    · have hrunning : streaming.ending = none := Option.not_isSome_iff_eq_none.mp hended
      have hcallsOf : ∀ other, (generation.perform key streaming (.snapshot snapshot)).callsOf other =
          streaming.callsOf other ++ if key = other then [.snapshot snapshot] else [] := by
        intro other
        rw [perform_running hrunning]
        exact callsOf_concat key other _ _
      obtain ⟨hconsumers, hothers, applied, hcalls, hinitial, hall⟩ :=
        @ih (generation.perform key streaming (.snapshot snapshot))
      refine ⟨?_, fun other hother => ?_, snapshot :: applied, ?_,
        (List.prefix_cons_inj snapshot).mpr hinitial, fun hnone => ?_⟩
      · rw [hconsumers, perform_running hrunning]
      · rw [hothers other hother, hcallsOf, if_neg (Ne.symm hother), List.append_nil]
      · rw [hcalls, hcallsOf, if_pos rfl]
        simp
      · rw [hall hnone]

theorem Loaded.proceed (h : Loaded P streaming) (hrunning : streaming.ending = none) (key : κ)
    (input : In) : Loaded P (generation.proceed key input streaming) := by
  have hloaded : ∀ other rest, streaming.consumers other = .processing rest →
      ∃ answer snapshots events, P other answer ∧
        streaming.callsOf other = callsFor snapshots events ∧ snapshots = answer := by
    intro other rest hconsumer
    obtain ⟨answer, snapshots, events, hanswer, hcalls, -, hall⟩ := h other rest hconsumer
    exact ⟨answer, snapshots, events, hanswer, hcalls, hall (Or.inl hrunning)⟩
  unfold Generation.proceed
  split
  · unfold Generation.receive
    split
    · exact h
    · exact h.withFeed hrunning _ _
    · rename_i event feed htake
      unfold Generation.buffer
      dsimp only
      split_ifs
      all_goals
        intro other rest hconsumer
        by_cases hother : other = key
        · subst hother
          simp only [Function.update_self] at hconsumer
          first
            | cases hconsumer
            | exact absurd hconsumer (settle_ne_processing _ _ _)
        · simp only [Function.update_of_ne hother] at hconsumer
          obtain ⟨answer, snapshots, events, hanswer, hcalls, hall⟩ := hloaded other rest hconsumer
          exact ⟨answer, snapshots, events, hanswer, hcalls, hall ▸ List.prefix_rfl, fun _ => hall⟩
  · exact h
  · rename_i event rest hconsumer
    refine Loaded.perform (fun other rest' hother hconsumer' => ?_)
      (hloaded key _ hconsumer) hrunning
    simp only [Function.update_of_ne hother] at hconsumer'
    exact hloaded other rest' hconsumer'
  · rename_i hconsumer
    unfold Generation.receive
    split
    · exact h
    · exact h.withFeed hrunning _ _
    · exact Loaded.perform (fun other rest _ hconsumer' => hloaded other rest hconsumer')
        (hloaded key _ hconsumer) hrunning

theorem Loaded.snapshotsFetched (h : Loaded P streaming)
    (hkeeps : generation.Keeps depthOf market streaming) (hrunning : streaming.ending = none)
    (key : κ) {answer : Except E (List S)}
    (hanswer : ∀ snapshots buffered, answer = .ok snapshots →
      streaming.consumers key = .fetching buffered → P key snapshots) :
    Loaded P (generation.snapshotsFetched key answer streaming) := by
  unfold Generation.snapshotsFetched
  split
  · exact h.withFeed hrunning _ _
  · rename_i buffered snapshots hconsumer
    have hexplains := hkeeps.explains key
    rw [hconsumer] at hexplains
    have hnone : streaming.callsOf key = [] := hexplains.1
    obtain ⟨hconsumers, hothers, applied, hcalls, hinitial, hall⟩ :=
      @performAll_spec _ _ _ _ _ _ _ generation _
        { streaming with
          consumers := Function.update streaming.consumers key (.processing buffered) }
        key snapshots
    intro other rest hother
    rw [hconsumers] at hother
    by_cases hne : other = key
    · subst hne
      refine ⟨snapshots, applied, [], hanswer snapshots buffered rfl hconsumer, ?_, hinitial,
        fun hcase => ?_⟩
      · rw [hcalls]
        have hnone' : ({ streaming with
            consumers := Function.update streaming.consumers other (.processing buffered) } :
              Streaming κ ι ε E σ S In).callsOf other = [] := hnone
        rw [hnone']
        simp [callsFor]
      · rcases hcase with hending | hevents
        · exact hall hending
        · exact absurd rfl hevents
    · simp only [Function.update_of_ne hne] at hother
      obtain ⟨answer, snapshots', events, hP, hcalls', hinitial', hall'⟩ := h other rest hother
      refine ⟨answer, snapshots', events, hP, ?_, hinitial', fun _ => hall' (Or.inl hrunning)⟩
      rw [hothers other hne]
      exact hcalls'
  · exact h

theorem loaded_answered (hawaits : generation.Awaits depthOf) (market : σ)
    (actions : List (BootstrapAction κ ε E S In)) :
    Loaded (Answered generation market actions)
      (run generation.step (generation.start market) actions) := by
  induction actions using List.reverseRecOn with
  | nil => exact fun key rest hconsumer => absurd hconsumer (settle_ne_processing _ _ _)
  | append_singleton actions action ih =>
    have hkeeps := keeps_run hawaits market actions
    have h : Loaded (Answered generation market (actions ++ [action]))
        (run generation.step (generation.start market) actions) :=
      ih.mono fun _ _ hanswered => hanswered.append [action]
    rw [run_append, run_cons, run_nil]
    unfold Generation.step
    split_ifs with hended
    · exact h
    · have hrunning := Option.not_isSome_iff_eq_none.mp hended
      cases action with
      | answer answer => exact h.withFeed hrunning _ _
      | enqueue => exact h.withFeed hrunning _ _
      | proceed key input => exact h.proceed hrunning key input
      | fetched key answer =>
        refine h.snapshotsFetched hkeeps hrunning key fun snapshots buffered heq hconsumer => ?_
        subst heq
        exact ⟨actions, [], buffered, rfl, hrunning, hconsumer⟩
      | cancel => exact h.withFeed hrunning _ _

theorem loaded_run (hawaits : generation.Awaits depthOf) (market : σ)
    {actions : List (BootstrapAction κ ε E S In)} (hanswers : ∀ action ∈ actions, Answers P action) :
    Loaded P (run generation.step (generation.start market) actions) :=
  Loaded.mono (loaded_answered hawaits market actions) fun key answer hanswered =>
    hanswers _ hanswered.mem key answer rfl

/-- The consumer has applied its snapshots. -/
def Processing (streaming : Streaming κ ι ε E σ S In) (key : κ) : Prop :=
  ∃ rest, streaming.consumers key = .processing rest

omit [DecidableEq κ] in
theorem Processing.perform {key other : κ} {call : Call ε S In} (h : Processing streaming key) :
    Processing (generation.perform other streaming call) key := by
  unfold Generation.perform
  split_ifs
  · exact h
  · exact h

theorem Processing.update {key other : κ} {consumer : Consumer ι ε}
    (h : Processing streaming key) (hconsumer : other = key → ∃ rest, consumer = .processing rest) :
    ∃ rest, Function.update streaming.consumers other consumer key = .processing rest := by
  by_cases hkey : other = key
  · subst hkey
    simpa using hconsumer rfl
  · simpa [Function.update_of_ne (Ne.symm hkey), Processing] using h

theorem Processing.receive {key other : κ}
    {handle : ε → Streaming κ ι ε E σ S In → Streaming κ ι ε E σ S In}
    (h : Processing streaming key)
    (hhandle : ∀ event taken, Processing taken key → Processing (handle event taken) key) :
    Processing (Generation.receive other handle streaming) key := by
  unfold Generation.receive
  split
  · exact h
  · exact h
  · exact hhandle _ _ h

theorem Processing.proceed {key : κ} (h : Processing streaming key) (other : κ) (input : In) :
    Processing (generation.proceed other input streaming) key := by
  unfold Generation.proceed
  split
  · rename_i awaitingDepth buffered hconsumer
    apply Processing.receive h
    intro event taken htaken
    have hne : other ≠ key := by
      rintro rfl
      obtain ⟨rest, hrest⟩ := h
      rw [hconsumer] at hrest
      cases hrest
    unfold Generation.buffer
    dsimp only
    split_ifs
    · exact htaken.update fun heq => absurd heq hne
    · exact htaken.update fun heq => absurd heq hne
  · exact h
  · exact Processing.perform (h.update fun _ => ⟨_, rfl⟩)
  · exact Processing.receive h fun event taken htaken => Processing.perform htaken

theorem Processing.snapshotsFetched {key : κ} (h : Processing streaming key) (other : κ)
    (answer : Except E (List S)) :
    Processing (generation.snapshotsFetched other answer streaming) key := by
  unfold Generation.snapshotsFetched
  split
  · exact h
  · rename_i buffered snapshots hconsumer
    unfold Processing
    rw [(performAll_spec other snapshots).1]
    exact h.update fun _ => ⟨buffered, rfl⟩
  · exact h

theorem Processing.step {key : κ} (h : Processing streaming key)
    (action : BootstrapAction κ ε E S In) : Processing (generation.step streaming action) key := by
  unfold Generation.step
  split_ifs
  · exact h
  cases action with
  | answer answer => exact h
  | enqueue => exact h
  | proceed other input => exact h.proceed other input
  | fetched other answer => exact h.snapshotsFetched other answer
  | cancel => exact h

theorem Answered.processing {market : σ} {actions : List (BootstrapAction κ ε E S In)} {key : κ}
    {answer : List S} (h : Answered generation market actions key answer) :
    Processing (run generation.step (generation.start market) actions) key := by
  obtain ⟨before, after, buffered, rfl, hrunning, hconsumer⟩ := h
  rw [run_append, run_cons]
  refine run_invariant (Processing · key) (fun _ action h => h.step action) ?_ after
  rw [Generation.step, if_neg (by simp [hrunning])]
  simp only [Generation.snapshotsFetched, hconsumer, Processing]
  rw [(performAll_spec key answer).1]
  exact ⟨buffered, Function.update_self key _ _⟩

end

end Generation

end ChainQuantStudio.State.Supervisor
