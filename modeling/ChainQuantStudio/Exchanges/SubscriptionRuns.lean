import ChainQuantStudio.Exchanges.BinanceSubscriptions

/-!
# Subscriptions in every interleaving

The messages that the server has still to apply lead from what a current connection has subscribed
to the streams of the active set. A step of the connection only moves a message along; a
reconciliation appends the messages that lead from the streams of the old set to those of the new
one, as long as no removed symbol has the lower-case form of a target's.
-/

namespace ChainQuantStudio.Exchanges.Binance

open Data Run SortedPrefix

def SuffixFree (suffixes : List String) : Prop :=
  ∀ a ∈ suffixes, ∀ b ∈ suffixes, a.toList <:+ b.toList → a = b

theorem prefix_eq_of_append_eq {suffixes : List String} (hfree : SuffixFree suffixes)
    {first second a b : String} (ha : a ∈ suffixes) (hb : b ∈ suffixes)
    (h : first ++ a = second ++ b) : first = second := by
  have hlists : first.toList ++ a.toList = second.toList ++ b.toList := by
    rw [← String.toList_append, h, String.toList_append]
  have hsame : a = b := by
    rcases List.append_eq_append_iff.mp hlists with ⟨middle, -, hmiddle⟩ | ⟨middle, -, hmiddle⟩
    · exact (hfree b hb a ha ⟨middle, hmiddle.symm⟩).symm
    · exact hfree a ha b hb ⟨middle, hmiddle.symm⟩
  rw [hsame] at hlists
  exact String.toList_inj.mp (List.append_cancel_right hlists)

section Streams

variable {adapter : Adapter} {registry : Registry} {symbols suffixes : List String}

theorem mem_subscriptions_lookup (hknown : ∀ symbol ∈ symbols, (registry.instruments symbol).isSome)
    {stream : String} :
    stream ∈ adapter.subscriptions suffixes (registry.lookup symbols) ↔
      ∃ symbol ∈ symbols, ∃ suffix ∈ suffixes, stream = adapter.lower symbol ++ suffix := by
  simp only [Adapter.subscriptions, Registry.lookup, List.mem_flatMap, List.mem_filterMap,
    List.mem_map]
  constructor
  · rintro ⟨instrument, ⟨symbol, hsymbol, hfound⟩, suffix, hsuffix, rfl⟩
    rw [registry.keyed symbol instrument hfound]
    exact ⟨symbol, hsymbol, suffix, hsuffix, rfl⟩
  · rintro ⟨symbol, hsymbol, suffix, hsuffix, rfl⟩
    obtain ⟨instrument, hfound⟩ := Option.isSome_iff_exists.mp (hknown symbol hsymbol)
    refine ⟨instrument, ⟨symbol, hsymbol, hfound⟩, suffix, hsuffix, ?_⟩
    rw [registry.keyed symbol instrument hfound]

theorem intervals_spot (kind : AdapterKind) : kind.intervals ⊆ AdapterKind.spot.intervals := by
  cases kind <;> decide +kernel

theorem suffixFree_klines (adapter : Adapter) : SuffixFree adapter.klineSuffixes := by
  have hall : SuffixFree (AdapterKind.spot.intervals.map fun interval => "@kline_" ++ interval) := by
    unfold SuffixFree
    decide +kernel
  have hsub : adapter.klineSuffixes ⊆
      AdapterKind.spot.intervals.map fun interval => "@kline_" ++ interval := by
    intro suffix hsuffix
    obtain ⟨interval, hinterval, rfl⟩ := List.mem_map.mp hsuffix
    refine List.mem_map_of_mem (intervals_spot adapter.kind ?_)
    rw [mem_sortedSet] at hinterval
    cases hkind : adapter.kind with
    | futures =>
      simp only [hkind, adapter.futures_candleOnly hkind, if_true] at hinterval
      rw [← hkind]
      exact adapter.supported interval hinterval
    | spot =>
      simp only [hkind] at hinterval
      rw [← hkind]
      exact adapter.supported interval hinterval
  exact fun a ha b hb => hall a (hsub ha) b (hsub hb)

theorem suffixFree_context {suffixes : List String}
    (h : suffixes = ["@ticker", "@aggTrade"] ∨ suffixes = ["@depth@100ms", "@bookTicker"])
    (candleOnly : Bool) : SuffixFree (if candleOnly then [] else suffixes) := by
  have hall : SuffixFree suffixes := by
    rcases h with rfl | rfl <;> · unfold SuffixFree; decide +kernel
  cases candleOnly with
  | true => exact fun a ha => absurd ha List.not_mem_nil
  | false => exact hall

theorem exists_laneSuffixes (adapter : Adapter) (lane : Lane) :
    ∃ suffixes, SuffixFree suffixes ∧
      adapter.laneSubscriptions lane = adapter.subscriptions suffixes := by
  unfold Adapter.laneSubscriptions
  cases adapter.kind with
  | futures => exact ⟨_, suffixFree_klines adapter, rfl⟩
  | spot =>
    cases lane with
    | critical => exact ⟨_, suffixFree_klines adapter, rfl⟩
    | marketContext => exact ⟨_, suffixFree_context (.inl rfl) adapter.candleOnly, rfl⟩
    | publicContext => exact ⟨_, suffixFree_context (.inr rfl) adapter.candleOnly, rfl⟩

end Streams

section Reconciliation

variable {session : Session} {targets : List Instrument}

@[simp] theorem run_message_subscribe (streams : Finset String) (params : List String) :
    run Update.apply streams (message .subscribe params) = streams ∪ params.toFinset := by
  unfold message
  split_ifs with h
  · simp [h]
  · rfl

@[simp] theorem run_message_unsubscribe (streams : Finset String) (params : List String) :
    run Update.apply streams (message .unsubscribe params) = streams \ params.toFinset := by
  unfold message
  split_ifs with h
  · simp [h]
  · rfl

/-- No symbol that is removed has the lower-case form of a symbol of the target. -/
def Session.Distinguishes (session : Session) : Event → Prop
  | .reconcile targets =>
    ∀ removed ∈ session.registry.active, removed ∉ targets.map Instrument.exchangeSymbol →
      ∀ target ∈ targets.map Instrument.exchangeSymbol,
        session.adapter.lower removed ≠ session.adapter.lower target
  | _ => True

instance (session : Session) : ∀ event, Decidable (session.Distinguishes event)
  | .reconcile targets => inferInstanceAs (Decidable (∀ removed ∈ session.registry.active,
      removed ∉ targets.map Instrument.exchangeSymbol →
        ∀ target ∈ targets.map Instrument.exchangeSymbol,
          session.adapter.lower removed ≠ session.adapter.lower target))
  | .opens _ | .connects _ | .takes _ | .sends _ | .serves _ | .loses _ | .finishes _ =>
    isTrue trivial

theorem run_updates (h : session.Distinguishes (.reconcile targets)) (lane : Lane) :
    run Update.apply (session.streams lane) (session.updates targets lane) =
      ({ session with registry := session.registry.reconcile targets } : Session).streams lane := by
  obtain ⟨suffixes, hfree, hlane⟩ := exists_laneSuffixes session.adapter lane
  have hknown : ∀ symbol ∈ session.registry.active,
      ((session.registry.reconcile targets).instruments symbol).isSome := by
    intro symbol hsymbol
    rcases register_cases session.registry.instruments targets symbol with
      ⟨instrument, -, -, hfound⟩ | ⟨-, hfound⟩
    · exact Option.isSome_of_eq_some hfound
    · exact (congrArg Option.isSome hfound).trans (session.registry.known symbol hsymbol)
  have hactive : ∀ symbol, symbol ∈ (session.registry.reconcile targets).active ↔
      symbol ∈ targets.map Instrument.exchangeSymbol := fun symbol => mem_sortedSet
  unfold Session.updates Session.streams
  rw [run_append, run_message_subscribe, run_message_unsubscribe, hlane]
  ext stream
  simp only [Finset.mem_sdiff, Finset.mem_union, List.mem_toFinset, Registry.activeInstruments]
  rw [mem_subscriptions_lookup session.registry.known,
    mem_subscriptions_lookup (session.registry.reconcile targets).known,
    mem_subscriptions_lookup fun symbol hsymbol =>
      (session.registry.reconcile targets).known symbol (List.mem_of_mem_filter hsymbol),
    mem_subscriptions_lookup fun symbol hsymbol =>
      hknown symbol (List.mem_of_mem_filter hsymbol)]
  simp only [List.mem_filter, decide_eq_true_eq]
  constructor
  · rintro ⟨⟨symbol, hold, suffix, hsuffix, rfl⟩ | ⟨symbol, ⟨hnew, -⟩, suffix, hsuffix, rfl⟩, hnot⟩
    · refine ⟨symbol, ?_, suffix, hsuffix, rfl⟩
      by_contra hgone
      exact hnot ⟨symbol, ⟨hold, hgone⟩, suffix, hsuffix, rfl⟩
    · exact ⟨symbol, hnew, suffix, hsuffix, rfl⟩
  · rintro ⟨symbol, hnew, suffix, hsuffix, rfl⟩
    refine ⟨?_, ?_⟩
    · by_cases hold : symbol ∈ session.registry.active
      · exact .inl ⟨symbol, hold, suffix, hsuffix, rfl⟩
      · exact .inr ⟨symbol, ⟨hnew, hold⟩, suffix, hsuffix, rfl⟩
    · rintro ⟨removed, ⟨hold, hgone⟩, suffix', hsuffix', heq⟩
      rw [hactive] at hgone hnew
      exact h removed hold hgone symbol hnew
        (prefix_eq_of_append_eq hfree hsuffix hsuffix' heq).symm

end Reconciliation

namespace Session

section Steps

variable {session : Session} {lane other : Lane} {stream : ℕ}

/-- An installed queue belongs to an opened stream of its lane. -/
def Consistent (session : Session) : Prop :=
  ∀ lane stream, session.installed lane = some stream →
    stream < session.opened ∧ (session.connections stream).lane = lane

theorem Consistent.eq_lane (h : session.Consistent) (hlane : session.installed lane = some stream)
    (hother : session.installed other = some stream) : lane = other :=
  (h lane stream hlane).2.symm.trans (h other stream hother).2

structure Kept (before after : Connection) : Prop where
  lane : after.lane = before.lane
  alive : after.alive = true → before.alive = true
  comes : run Update.apply after.subscribed after.pending =
    run Update.apply before.subscribed before.pending

theorem kept_take (connection : Connection) : Kept connection connection.take := by
  unfold Connection.take
  cases hqueue : connection.queue with
  | nil => exact ⟨rfl, id, rfl⟩
  | cons update queue =>
    dsimp only
    split_ifs with hready
    · simp only [Bool.and_eq_true, decide_eq_true_eq] at hready
      refine ⟨rfl, id, ?_⟩
      simp [Connection.pending, hready.2, hqueue]
    · exact ⟨rfl, id, rfl⟩

theorem kept_send (connection : Connection) : Kept connection connection.send := by
  unfold Connection.send
  split_ifs with hready
  · cases hunsent : connection.unsent with
    | cons update unsent =>
      refine ⟨rfl, id, ?_⟩
      simp [Connection.pending, hunsent]
    | nil =>
      cases htaken : connection.taken with
      | none => exact ⟨rfl, id, rfl⟩
      | some update =>
        refine ⟨rfl, id, ?_⟩
        simp [Connection.pending, hunsent, htaken]
  · exact ⟨rfl, id, rfl⟩

theorem kept_serve (connection : Connection) : Kept connection connection.serve := by
  unfold Connection.serve
  cases hwire : connection.wire with
  | nil => exact ⟨rfl, id, rfl⟩
  | cons update wire =>
    refine ⟨rfl, id, ?_⟩
    simp [Connection.pending, hwire]

theorem kept_connect (connection : Connection) : Kept connection connection.connect := ⟨rfl, id, rfl⟩

theorem kept_lose (connection : Connection) : Kept connection connection.lose :=
  ⟨rfl, fun h => absurd h Bool.false_ne_true, rfl⟩

theorem modify_self (change : Connection → Connection) :
    (session.modify stream change).connections stream = change (session.connections stream) :=
  Function.update_self ..

theorem modify_of_ne (change : Connection → Connection) {other : ℕ} (h : other ≠ stream) :
    (session.modify stream change).connections other = session.connections other :=
  Function.update_of_ne h ..

theorem Consistent.modify (h : session.Consistent) {change : Connection → Connection}
    (hlane : (change (session.connections stream)).lane = (session.connections stream).lane) :
    (session.modify stream change).Consistent := by
  intro lane installed hinstalled
  obtain ⟨hopened, hinstalled_lane⟩ := h lane installed hinstalled
  refine ⟨hopened, ?_⟩
  by_cases hsame : installed = stream
  · subst hsame
    rw [modify_self, hlane, hinstalled_lane]
  · rw [modify_of_ne change hsame, hinstalled_lane]

theorem Converges.modify (h : session.Converges lane) {change : Connection → Connection}
    (hkept : Kept (session.connections stream) (change (session.connections stream))) :
    (session.modify stream change).Converges lane := by
  intro installed hinstalled halive
  by_cases hsame : installed = stream
  · subst hsame
    rw [modify_self] at halive ⊢
    rw [hkept.comes]
    exact h installed hinstalled (hkept.alive halive)
  · rw [modify_of_ne change hsame] at halive ⊢
    exact h installed hinstalled halive

theorem Consistent.openStream (h : session.Consistent) (lane : Lane) :
    (session.openStream lane).Consistent := by
  intro other stream hinstalled
  by_cases hsame : other = lane
  · subst hsame
    obtain rfl : session.opened = stream := by
      simpa [Session.openStream] using hinstalled
    exact ⟨Nat.lt_succ_self _, by simp [Session.openStream]⟩
  · have hold : session.installed other = some stream := by
      simpa [Session.openStream, hsame] using hinstalled
    obtain ⟨hopened, hlane⟩ := h other stream hold
    refine ⟨hopened.trans (Nat.lt_succ_self _), ?_⟩
    simpa [Session.openStream, hopened.ne] using hlane

theorem Converges.openStream (hconsistent : session.Consistent) (h : session.Converges other)
    (lane : Lane) : (session.openStream lane).Converges other := by
  intro stream hinstalled halive
  by_cases hsame : other = lane
  · subst hsame
    obtain rfl : session.opened = stream := by
      simpa [Session.openStream] using hinstalled
    simp [Session.openStream, Connection.pending, Session.streams]
  · have hold : session.installed other = some stream := by
      simpa [Session.openStream, hsame] using hinstalled
    have hne : stream ≠ session.opened := (hconsistent other stream hold).1.ne
    have hsame_connection : (session.openStream lane).connections stream =
        session.connections stream := Function.update_of_ne hne ..
    rw [hsame_connection] at halive ⊢
    exact h stream hold halive

theorem installed_finish {installed : ℕ}
    (h : (session.finish stream).installed lane = some installed) :
    session.installed lane = some installed := by
  unfold Session.finish at h
  dsimp only at h
  split_ifs at h with hgone
  · dsimp only at h
    by_cases hlane : lane = (session.connections stream).lane
    · rw [hlane, Function.update_self] at h
      cases h
    · rwa [Function.update_of_ne hlane] at h
  · exact h

theorem connections_finish : (session.finish stream).connections = session.connections ∧
    (session.finish stream).opened = session.opened ∧
    (session.finish stream).streams = session.streams := by
  unfold Session.finish
  dsimp only
  split_ifs <;> exact ⟨rfl, rfl, rfl⟩

theorem enqueue_frame (updates : List Update) :
    (session.enqueue lane updates).installed = session.installed ∧
      (session.enqueue lane updates).opened = session.opened ∧
      (session.enqueue lane updates).adapter = session.adapter ∧
      (session.enqueue lane updates).registry = session.registry := by
  unfold enqueue
  cases session.installed lane <;> exact ⟨rfl, rfl, rfl, rfl⟩

theorem enqueue_connections (updates : List Update) (stream : ℕ) :
    (session.enqueue lane updates).connections stream =
      if session.installed lane = some stream then
        { session.connections stream with queue := (session.connections stream).queue ++ updates }
      else session.connections stream := by
  unfold enqueue
  cases hinstalled : session.installed lane with
  | none => simp
  | some installed =>
    by_cases hsame : stream = installed
    · subst hsame
      rw [if_pos rfl, modify_self]
    · rw [if_neg fun h => hsame (Option.some.inj h).symm, modify_of_ne _ hsame]

theorem Consistent.enqueue (h : session.Consistent) (lane : Lane) (updates : List Update) :
    (session.enqueue lane updates).Consistent := by
  unfold Session.enqueue
  cases session.installed lane with
  | none => exact h
  | some installed => exact h.modify rfl

section Served

variable (updates : Lane → List Update) (lanes : List Lane)

theorem foldl_enqueue_frame (session : Session) :
    (lanes.foldl (fun current lane => current.enqueue lane (updates lane)) session).installed =
        session.installed ∧
      (lanes.foldl (fun current lane => current.enqueue lane (updates lane)) session).opened =
        session.opened ∧
      (lanes.foldl (fun current lane => current.enqueue lane (updates lane)) session).adapter =
        session.adapter ∧
      (lanes.foldl (fun current lane => current.enqueue lane (updates lane)) session).registry =
        session.registry := by
  induction lanes generalizing session with
  | nil => exact ⟨rfl, rfl, rfl, rfl⟩
  | cons lane lanes ih =>
    obtain ⟨hinstalled, hopened, hadapter, hregistry⟩ := ih (session.enqueue lane (updates lane))
    obtain ⟨hinstalled', hopened', hadapter', hregistry'⟩ :=
      @enqueue_frame session lane (updates lane)
    exact ⟨hinstalled.trans hinstalled', hopened.trans hopened', hadapter.trans hadapter',
      hregistry.trans hregistry'⟩

theorem Consistent.foldl_enqueue (h : session.Consistent) :
    (lanes.foldl (fun current lane => current.enqueue lane (updates lane)) session).Consistent := by
  induction lanes generalizing session with
  | nil => exact h
  | cons lane lanes ih => exact ih (h.enqueue lane (updates lane))

theorem foldl_enqueue_connections (hconsistent : session.Consistent) (hlanes : lanes.Nodup)
    (hinstalled : session.installed lane = some stream) :
    (lanes.foldl (fun current lane => current.enqueue lane (updates lane)) session).connections
        stream =
      if lane ∈ lanes then
        { session.connections stream with
          queue := (session.connections stream).queue ++ updates lane }
      else session.connections stream := by
  induction lanes generalizing session with
  | nil => rfl
  | cons first rest ih =>
    obtain ⟨hfirst, hrest⟩ := List.nodup_cons.mp hlanes
    have hkept : (session.enqueue first (updates first)).installed lane = some stream := by
      rw [(enqueue_frame (updates first)).1]
      exact hinstalled
    rw [List.foldl_cons, ih (hconsistent.enqueue first (updates first)) hrest hkept,
      enqueue_connections]
    by_cases hsame : lane = first
    · subst hsame
      rw [if_neg hfirst, if_pos hinstalled, if_pos List.mem_cons_self]
    · have hother : session.installed first ≠ some stream :=
        fun h => hsame (hconsistent.eq_lane hinstalled h)
      rw [if_neg hother]
      simp only [List.mem_cons, hsame, false_or]

end Served

theorem nodup_groups (adapter : Adapter) : adapter.groups.Nodup := by
  unfold Adapter.groups
  cases adapter.kind <;> decide

theorem Consistent.reconcileInstruments (h : session.Consistent) (targets : List Instrument) :
    (session.reconcileInstruments targets).Consistent :=
  Consistent.foldl_enqueue _ _ (fun lane stream hinstalled => h lane stream hinstalled)

theorem Converges.reconcileInstruments (hconsistent : session.Consistent)
    (hgroup : lane ∈ session.adapter.groups) (h : session.Converges lane) {targets : List Instrument}
    (hdistinct : session.Distinguishes (.reconcile targets)) :
    (session.reconcileInstruments targets).Converges lane := by
  have hregistered : ({ session with
      registry := session.registry.reconcile targets } : Session).Consistent :=
    fun lane stream hinstalled => hconsistent lane stream hinstalled
  obtain ⟨hinstalled, -, hadapter, hregistry⟩ := foldl_enqueue_frame (session.updates targets)
    session.adapter.groups { session with registry := session.registry.reconcile targets }
  intro stream hstream halive
  unfold Session.reconcileInstruments Session.streams at *
  rw [hinstalled] at hstream
  rw [foldl_enqueue_connections _ _ hregistered (nodup_groups session.adapter) hstream,
    if_pos hgroup] at halive ⊢
  rw [hadapter, hregistry]
  have hold := h stream hstream halive
  have hpending : ({ session.connections stream with
      queue := (session.connections stream).queue ++ session.updates targets lane } :
        Connection).pending =
      (session.connections stream).pending ++ session.updates targets lane := by
    simp [Connection.pending]
  rw [hpending, run_append]
  dsimp only
  rw [hold]
  exact run_updates hdistinct lane

/-- The invariant of a run: the queues belong to their lanes, and every lane that a reconciliation
serves converges. -/
structure Sound (session : Session) : Prop where
  consistent : session.Consistent
  converges : ∀ lane ∈ session.adapter.groups, session.Converges lane

theorem adapter_step (session : Session) (event : Event) :
    (session.step event).adapter = session.adapter := by
  cases event with
  | reconcile targets => exact (foldl_enqueue_frame _ _ _).2.2.1
  | finishes stream =>
    unfold step finish
    dsimp only
    split_ifs <;> rfl
  | _ => rfl

theorem sound_step (session : Session) (event : Event) (h : session.Sound)
    (hdistinct : session.Distinguishes event) : (session.step event).Sound := by
  obtain ⟨hconsistent, hconverges⟩ := h
  have hmodify {stream : ℕ} {change : Connection → Connection}
      (hkept : Kept (session.connections stream) (change (session.connections stream))) :
      (session.modify stream change).Sound :=
    ⟨hconsistent.modify hkept.lane, fun lane hlane => (hconverges lane hlane).modify hkept⟩
  cases event with
  | reconcile targets =>
    refine ⟨hconsistent.reconcileInstruments targets, fun lane hlane => ?_⟩
    rw [adapter_step] at hlane
    exact (hconverges lane hlane).reconcileInstruments hconsistent hlane hdistinct
  | opens lane =>
    exact ⟨hconsistent.openStream lane, fun other hother =>
      (hconverges other hother).openStream hconsistent lane⟩
  | connects stream => exact hmodify (kept_connect _)
  | takes stream => exact hmodify (kept_take _)
  | sends stream => exact hmodify (kept_send _)
  | serves stream => exact hmodify (kept_serve _)
  | loses stream => exact hmodify (kept_lose _)
  | finishes stream =>
    obtain ⟨hconnections, hopened, hstreams⟩ := @connections_finish session stream
    refine ⟨fun lane installed hinstalled => ?_, fun lane hlane installed hinstalled halive => ?_⟩
    · change _ < (session.finish stream).opened ∧ ((session.finish stream).connections installed).lane = _
      rw [hopened, hconnections]
      exact hconsistent lane installed (installed_finish hinstalled)
    · rw [adapter_step] at hlane
      change ((session.finish stream).connections installed).alive = true at halive
      change run Update.apply ((session.finish stream).connections installed).subscribed
        ((session.finish stream).connections installed).pending = (session.finish stream).streams lane
      rw [hconnections] at halive ⊢
      rw [hstreams]
      exact hconverges lane hlane installed (installed_finish hinstalled) halive

end Steps

/-- An adapter with some instruments of which some are active, before any stream is opened. -/
def start (adapter : Adapter) (registry : Registry) : Session where
  adapter := adapter
  registry := registry

theorem sound_start (adapter : Adapter) (registry : Registry) : (start adapter registry).Sound :=
  ⟨fun _ _ h => absurd h (by simp [start]), fun _ _ _ h => absurd h (by simp [start])⟩

theorem adapter_run (session : Session) (events : List Event) :
    (run step session events).adapter = session.adapter := by
  induction events generalizing session with
  | nil => rfl
  | cons event events ih => exact (ih (session.step event)).trans (adapter_step session event)

/-- In every interleaving in which no reconciliation removes a symbol with the lower-case form of a
target's, the current connection of each lane that reconciliations serve comes to the streams of the
active instruments, and has them once nothing is pending. -/
theorem subscriptions_converge (adapter : Adapter) (registry : Registry) (events : List Event)
    (hdistinct : Guarded step Distinguishes (start adapter registry) events) (lane : Lane)
    (hlane : lane ∈ adapter.groups) :
    (run step (start adapter registry) events).Converges lane ∧
      ∀ stream, (run step (start adapter registry) events).installed lane = some stream →
        ((run step (start adapter registry) events).connections stream).alive = true →
        ((run step (start adapter registry) events).connections stream).pending = [] →
        ((run step (start adapter registry) events).connections stream).subscribed =
          (run step (start adapter registry) events).streams lane := by
  have hsound : (run step (start adapter registry) events).Sound :=
    run_invariant_of_guarded Sound sound_step (sound_start adapter registry) hdistinct
  have hconverges : (run step (start adapter registry) events).Converges lane := by
    apply hsound.converges
    rwa [adapter_run]
  refine ⟨hconverges, fun stream hinstalled halive hpending => ?_⟩
  have h := hconverges stream hinstalled halive
  rwa [hpending] at h

/-! A futures and a spot adapter of five-minute bars. -/

def fiveMinuteAdapter (kind : AdapterKind) : Adapter where
  kind := kind
  candleOnly := true
  streamCandleIntervals := ["5m"]
  lower := String.toLower
  supported := by cases kind <;> decide +kernel
  futures_candleOnly := fun _ => rfl

def tradedInstrument (symbol : String) : Instrument where
  exchange := .binance
  marketType := .linearPerpetual
  exchangeSymbol := symbol
  canonicalSymbol := symbol
  baseAsset := symbol
  quoteAsset := "USDT"
  settlementAsset := "USDT"

def emptyRegistry : Registry where
  instruments := fun _ => none
  active := []
  keyed := fun _ _ h => by cases h
  known := fun _ h => absurd h List.not_mem_nil

def interleaving : List Event :=
  [.reconcile [tradedInstrument "A"], .opens .critical, .reconcile [tradedInstrument "B"],
    .connects 0, .sends 0, .takes 0, .reconcile [tradedInstrument "A", tradedInstrument "B"],
    .sends 0, .serves 0]

theorem subscriptions_converge_interleaving :
    (run step (start (fiveMinuteAdapter .spot) emptyRegistry) interleaving).Converges .critical :=
  (subscriptions_converge (fiveMinuteAdapter .spot) emptyRegistry interleaving
    (by decide +kernel) .critical (by decide)).1

theorem subscriptions_diverge :
    ¬ (run step (start (fiveMinuteAdapter .spot) emptyRegistry)
        [.reconcile [tradedInstrument "A"], .opens .critical, .reconcile [tradedInstrument "a"]]).Converges
          .critical ∧
      ¬ (run step (start (fiveMinuteAdapter .futures) emptyRegistry)
        [.opens .marketContext, .reconcile [tradedInstrument "A"]]).Converges .marketContext := by
  constructor
  · intro h
    exact absurd (h 0 rfl rfl) (by decide +kernel)
  · intro h
    exact absurd (h 0 rfl rfl) (by decide +kernel)

end Session

end ChainQuantStudio.Exchanges.Binance
