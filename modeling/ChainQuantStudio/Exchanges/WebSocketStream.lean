import ChainQuantStudio.Exchanges.BinanceSubscriptions
import ChainQuantStudio.Library.Json
import Mathlib.Logic.Relation

/-!
# One connection of a stream

`stream_json_messages` once its connection is up. It sends the initial messages, and then waits for
two tasks at a time: one receives from the server, one takes from the queue of updates. What the
tasks end with, and when the generator is resumed or closed, are inputs. `Connection` is the view of
it that the adapters are verified with.
-/

namespace ChainQuantStudio.Exchanges

open Binance Relation Run

/-- What `ws.receive()` returns; `closing` stands for the three types that end the loop. -/
inductive Incoming
  | text (data : String)
  | closing
  | ignored
  deriving DecidableEq

inductive ReceiveOutcome
  | payload (payload : Json)
  | skipped
  | ends

inductive LoopTask (α : Type*)
  | absent
  | pending
  | done (result : α)
  deriving DecidableEq

/-- Where the generator stands. `received` is what the receiving task had returned when
`asyncio.wait` did, and a receiving task returns `none` where it raises. -/
inductive StreamPlace
  | opening
  | waiting
  | sending (update : Update) (received : Option (Option Incoming))
  | yielding
  | ended (inHand : Option Update)

structure JsonStream where
  place : StreamPlace := .opening
  unsent : List Update
  receiveTask : LoopTask (Option Incoming) := .absent
  updateTask : LoopTask Update := .absent
  queue : List Update := []
  tasksDone : ℕ := 0
  sent : List Update := []
  yielded : List Json := []
  /-- All that was put on the queue, and all that the server sent. -/
  offered : List Update := []
  arrived : List Incoming := []

inductive StreamAction
  | initialSent (succeeds : Bool)
  | put (update : Update)
  | received (incoming : Option Incoming)
  | taken
  | wake
  | updateSent (succeeds : Bool)
  | resume
  | close

namespace JsonStream

def classify (loads : String → Option Json) : Incoming → ReceiveOutcome
  | .text data =>
    if data = "pong" then .skipped
    else
      match loads data with
      | some (.obj fields) => .payload (.obj fields)
      | some _ => .skipped
      | none => .ends
  | .closing => .ends
  | .ignored => .skipped

variable (loads : String → Option Json) (updating : Bool)

def loop (s : JsonStream) : JsonStream :=
  { s with
    place := .waiting
    receiveTask := match s.receiveTask with
      | .absent => .pending
      | task => task
    updateTask := match s.updateTask with
      | .absent => if updating then .pending else .absent
      | task => task }

def inHand (s : JsonStream) : Option Update :=
  match s.place with
  | .sending update _ => some update
  | .ended inHand => inHand
  | _ =>
    match s.updateTask with
    | .done update => some update
    | _ => none

/-- The `finally` blocks: what was in hand is not sent any more. -/
def finish (s : JsonStream) : JsonStream := { s with place := .ended s.inHand }

def receive (s : JsonStream) (incoming : Option Incoming) : JsonStream :=
  let s := { s with receiveTask := .absent }
  match incoming.map (classify loads) with
  | some (.payload payload) => { s with place := .yielding, yielded := s.yielded ++ [payload] }
  | some .skipped => s.loop updating
  | some .ends => s.finish
  | none => s.finish

def start (initial : List Update) : JsonStream :=
  if initial = [] then loop updating { unsent := [] } else { unsent := initial }

def step (s : JsonStream) : StreamAction → JsonStream
  | .initialSent succeeds =>
    match s.place, s.unsent with
    | .opening, message :: unsent =>
      if succeeds then
        let s := { s with unsent, sent := s.sent ++ [message] }
        if unsent = [] then s.loop updating else s
      else s.finish
    | _, _ => s
  | .put update =>
    { s with queue := s.queue ++ [update], offered := s.offered ++ [update] }
  | .received incoming =>
    match s.place, s.receiveTask with
    | .ended _, _ => s
    | _, .pending =>
      { s with receiveTask := .done incoming, arrived := s.arrived ++ incoming.toList }
    | _, _ => s
  | .taken =>
    match s.place, s.updateTask, s.queue with
    | .ended _, _, _ => s
    | _, .pending, update :: queue => { s with updateTask := .done update, queue }
    | _, _, _ => s
  | .wake =>
    match s.place, s.updateTask, s.receiveTask with
    | .waiting, .done update, .done incoming =>
      { s with place := .sending update (some incoming), updateTask := .absent }
    | .waiting, .done update, _ => { s with place := .sending update none, updateTask := .absent }
    | .waiting, _, .done incoming => s.receive loads updating incoming
    | _, _, _ => s
  | .updateSent succeeds =>
    match s.place with
    | .sending update received =>
      let s := { s with tasksDone := s.tasksDone + 1 }
      if succeeds then
        let s := { s with place := .waiting, sent := s.sent ++ [update] }
        match received with
        | some incoming => s.receive loads updating incoming
        | none => s.loop updating
      else s.finish
    | _ => s
  | .resume =>
    match s.place with
    | .yielding => s.loop updating
    | _ => s
  | .close =>
    match s.place with
    | .ended _ => s
    | .sending _ _ => { s with tasksDone := s.tasksDone + 1 }.finish
    | _ => s.finish

end JsonStream

namespace Binance.Connection

inductive Turns : Connection → Connection → Prop
  | take (connection : Connection) : Turns connection connection.take
  | send (connection : Connection) : Turns connection connection.send
  | lose (connection : Connection) : Turns connection connection.lose

inductive Moves : Connection → Connection → Prop
  | turns {before after : Connection} (h : Turns before after) : Moves before after
  | put (connection : Connection) (update : Update) :
    Moves connection { connection with queue := connection.queue ++ [update] }

theorem Turns.pending_eq {before after : Connection} (h : Turns before after) :
    after.pending = before.pending := by
  cases h with
  | take =>
    unfold Connection.take
    split
    · split_ifs with hready
      · simp only [Bool.and_eq_true, decide_eq_true_eq] at hready
        simp [pending, hready.2, *]
      · rfl
    · rfl
  | send =>
    unfold Connection.send
    split_ifs
    · split <;> simp [pending, *]
    · rfl
  | lose => rfl

theorem pending_of_turns {before after : Connection} (h : ReflTransGen Turns before after) :
    after.pending = before.pending := by
  induction h with
  | refl => rfl
  | tail _ hturn ih => rw [hturn.pending_eq, ih]

end Binance.Connection

namespace JsonStream

def alive (s : JsonStream) : Bool :=
  match s.place with
  | .ended _ => false
  | _ => true

def toConnection (lane : Lane) (s : JsonStream) : Connection where
  lane := lane
  alive := s.alive
  connected := true
  unsent := s.unsent
  taken := s.inHand
  queue := s.queue
  wire := s.sent

def Idle (s : JsonStream) : Prop :=
  s.place = .opening ∨ s.place = .waiting ∨ s.place = .yielding

def payload? (loads : String → Option Json) (incoming : Incoming) : Option Json :=
  match classify loads incoming with
  | .payload payload => some payload
  | _ => none

def Ends (loads : String → Option Json) (incoming : Incoming) : Prop :=
  classify loads incoming = .ends

def unhandled (s : JsonStream) : List Incoming :=
  match s.receiveTask with
  | .done (some incoming) => [incoming]
  | _ => []

def Ordered (loads : String → Option Json) (s : JsonStream) : Prop :=
  ∃ handled, s.arrived = handled ++ s.unhandled ∧ s.yielded = handled.filterMap (payload? loads) ∧
    (∀ incoming ∈ handled.dropLast, ¬ Ends loads incoming) ∧
    (s.alive = true → ∀ incoming ∈ handled, ¬ Ends loads incoming)

def Counted (initial : List Update) (s : JsonStream) : Prop :=
  s.sent.length + s.unsent.length ≤ initial.length + s.tasksDone ∧
  initial.length + s.tasksDone ≤
    s.sent.length + s.unsent.length + if s.alive then 0 else s.inHand.toList.length

structure Kept (loads : String → Option Json) (initial : List Update) (s : JsonStream) : Prop where
  opening : s.place = .opening → s.updateTask = .absent ∧ s.receiveTask = .absent
  opened : s.place ≠ .opening → s.alive = true → s.unsent = []
  sending : ∀ update received, s.place = .sending update received → s.updateTask = .absent
  received : ∀ update incoming, s.place = .sending update (some incoming) →
    s.receiveTask = .done incoming
  ordered : s.Ordered loads
  counted : s.Counted initial

variable {loads : String → Option Json} {updating : Bool} {lane : Lane} {s : JsonStream}
  {initial : List Update}

theorem toConnection_eq {living : Bool} {taken : Option Update} (halive : s.alive = living)
    (hinHand : s.inHand = taken) : s.toConnection lane =
      { lane, alive := living, connected := true, unsent := s.unsent, taken, queue := s.queue
        wire := s.sent } := by
  rw [toConnection, halive, hinHand]

theorem Idle.alive (h : s.Idle) : s.alive = true := by
  rcases h with h | h | h <;> simp [JsonStream.alive, h]

theorem Idle.inHand (h : s.Idle) : s.inHand =
    match s.updateTask with
    | .done update => some update
    | _ => none := by
  rcases h with h | h | h <;> simp [JsonStream.inHand, h]

theorem idle_loop (s : JsonStream) : (s.loop updating).Idle := Or.inr (Or.inl rfl)

theorem Ordered.congr (h : s.Ordered loads) {after : JsonStream} (harrived : after.arrived = s.arrived)
    (hyielded : after.yielded = s.yielded) (hunhandled : after.unhandled = s.unhandled)
    (halive : after.alive = true → s.alive = true) : after.Ordered loads := by
  obtain ⟨handled, hall, hpayloads, hbefore, hcontinues⟩ := h
  exact ⟨handled, by rw [harrived, hunhandled, hall], by rw [hyielded, hpayloads], hbefore,
    fun h => hcontinues (halive h)⟩

theorem Counted.congr (h : s.Counted initial) (halive : s.alive = true) {after : JsonStream}
    (hsent : after.sent = s.sent) (hunsent : after.unsent = s.unsent)
    (hdone : after.tasksDone = s.tasksDone) : after.Counted initial := by
  unfold Counted at *
  rw [if_pos halive] at h
  rw [hsent, hunsent, hdone]
  omega

theorem unhandled_loop (s : JsonStream) : (s.loop updating).unhandled = s.unhandled := by
  unfold unhandled loop
  cases s.receiveTask <;> rfl

theorem toConnection_loop (updating : Bool) (lane : Lane) (h : s.Idle) :
    (s.loop updating).toConnection lane = s.toConnection lane := by
  have hinHand : (s.loop updating).inHand = s.inHand := by
    rw [(idle_loop s).inHand, h.inHand]
    cases htask : s.updateTask <;> cases updating <;> simp [loop, htask]
  simp only [toConnection, hinHand, (idle_loop s).alive, h.alive]
  rfl

theorem kept_loop (hidle : s.Idle) (hunsent : s.unsent = []) (hordered : s.Ordered loads)
    (hcounted : s.Counted initial) : (s.loop updating).Kept loads initial where
  opening hplace := by cases hplace
  opened _ _ := hunsent
  sending _ _ hplace := by cases hplace
  received _ _ hplace := by cases hplace
  ordered := hordered.congr rfl rfl (unhandled_loop s) fun _ => hidle.alive
  counted := hcounted.congr hidle.alive rfl rfl rfl

theorem kept_finish (hordered : s.finish.Ordered loads) (hcounted : s.finish.Counted initial) :
    s.finish.Kept loads initial where
  opening hplace := by cases hplace
  opened _ hended := by cases hended
  sending _ _ hplace := by cases hplace
  received _ _ hplace := by cases hplace
  ordered := hordered
  counted := hcounted

theorem Ordered.handle (h : s.Ordered loads) (halive : s.alive = true) {incoming : Incoming}
    (htask : s.receiveTask = .done (some incoming)) {after : JsonStream}
    (harrived : after.arrived = s.arrived) (hunhandled : after.unhandled = [])
    (hyielded : after.yielded = s.yielded ++ (payload? loads incoming).toList)
    (hends : after.alive = true → ¬ Ends loads incoming) : after.Ordered loads := by
  obtain ⟨handled, hall, hpayloads, -, hcontinues⟩ := h
  refine ⟨handled ++ [incoming], ?_, ?_, ?_, fun hafter other hother => ?_⟩
  · rw [harrived, hunhandled, hall, unhandled, htask, List.append_nil]
  · rw [hyielded, hpayloads, List.filterMap_append]
    cases hpayload : payload? loads incoming <;> simp [hpayload]
  · rw [List.dropLast_concat]
    exact hcontinues halive
  · rcases List.mem_append.mp hother with hmem | hmem
    · exact hcontinues halive other hmem
    · rw [List.mem_singleton.mp hmem]
      exact hends hafter

theorem Kept.receive (h : s.Kept loads initial) (updating : Bool) (lane : Lane)
    (hplace : s.place = .waiting) {incoming : Option Incoming} (htask : s.receiveTask = .done incoming) :
    ReflTransGen Connection.Turns (s.toConnection lane)
        ((s.receive loads updating incoming).toConnection lane) ∧
      (s.receive loads updating incoming).Kept loads initial ∧
      (s.receive loads updating incoming).offered = s.offered := by
  have hidle : s.Idle := Or.inr (Or.inl hplace)
  have hunsent : s.unsent = [] :=
    h.opened (by rw [hplace]; exact fun heq => by cases heq) hidle.alive
  have hcounted {after : JsonStream} (hsent : after.sent = s.sent)
      (hrest : after.unsent = s.unsent) (hdone : after.tasksDone = s.tasksDone) :
      after.Counted initial := h.counted.congr hidle.alive hsent hrest hdone
  have hlose {connection : Connection} : ReflTransGen Connection.Turns connection connection.lose :=
    .single (.lose connection)
  unfold JsonStream.receive
  cases incoming with
  | none =>
    refine ⟨hlose, kept_finish ?_ (hcounted rfl rfl rfl), rfl⟩
    exact h.ordered.congr rfl rfl (by simp [unhandled, htask, finish]) fun _ => hidle.alive
  | some incoming =>
    dsimp only [Option.map_some]
    cases houtcome : classify loads incoming with
    | ends =>
      refine ⟨hlose, kept_finish ?_ (hcounted rfl rfl rfl), rfl⟩
      exact h.ordered.handle hidle.alive htask rfl rfl (by simp [payload?, houtcome, finish])
        fun hended => by cases hended
    | skipped =>
      have hcontinues : ¬ Ends loads incoming := fun hends => by cases houtcome.symm.trans hends
      have hwaiting : ({ s with receiveTask := .absent } : JsonStream).Idle := hidle
      rw [toConnection_loop updating lane hwaiting]
      refine ⟨.refl, kept_loop hwaiting hunsent ?_ (hcounted rfl rfl rfl), rfl⟩
      exact h.ordered.handle hidle.alive htask rfl rfl (by simp [payload?, houtcome])
        fun _ => hcontinues
    | payload payload =>
      have hcontinues : ¬ Ends loads incoming := fun hends => by cases houtcome.symm.trans hends
      have hyielding : ({ s with
          receiveTask := .absent, place := .yielding, yielded := s.yielded ++ [payload] }
            : JsonStream).Idle := Or.inr (Or.inr rfl)
      refine ⟨?_, ⟨(fun heq => by cases heq), fun _ _ => hunsent, (fun _ _ heq => by cases heq),
        (fun _ _ heq => by cases heq), ?_, hcounted rfl rfl rfl⟩, rfl⟩
      · have hinHand := hyielding.inHand.trans hidle.inHand.symm
        simp only [toConnection, hinHand, hyielding.alive, hidle.alive]
        exact .refl
      · exact h.ordered.handle hidle.alive htask rfl rfl (by simp [payload?, houtcome])
          fun _ => hcontinues

theorem Kept.wakes (h : s.Kept loads initial) (hplace : s.place = .waiting) {update : Update}
    (hupdate : s.updateTask = .done update) (received : Option (Option Incoming))
    (hreceived : ∀ incoming, received = some incoming → s.receiveTask = .done incoming) :
    ReflTransGen Connection.Turns (s.toConnection lane)
        (({ s with place := .sending update received, updateTask := .absent } :
          JsonStream).toConnection lane) ∧
      ({ s with place := .sending update received, updateTask := .absent } :
        JsonStream).Kept loads initial ∧ s.offered = s.offered := by
  have hidle : s.Idle := Or.inr (Or.inl hplace)
  refine ⟨?_, ⟨(fun heq => by cases heq), fun _ _ => ?_, fun _ _ _ => rfl, fun other incoming heq => ?_,
    h.ordered.congr rfl rfl rfl fun _ => hidle.alive, h.counted.congr hidle.alive rfl rfl rfl⟩, rfl⟩
  · have hinHand : s.inHand = some update := by rw [hidle.inHand, hupdate]
    simp only [toConnection, hinHand, hidle.alive]
    exact .refl
  · exact h.opened (by rw [hplace]; exact fun heq => by cases heq) hidle.alive
  · cases heq
    exact hreceived incoming rfl

theorem Kept.abandon (h : s.Kept loads initial) {update : Update}
    {received : Option (Option Incoming)} (hplace : s.place = .sending update received) :
    ({ s with tasksDone := s.tasksDone + 1 } : JsonStream).finish.Kept loads initial := by
  have halive : s.alive = true := by simp [alive, hplace]
  refine kept_finish (h.ordered.congr rfl rfl rfl fun _ => halive) ?_
  have hbefore := h.counted
  have hinHand : ({ s with tasksDone := s.tasksDone + 1 } : JsonStream).finish.inHand =
      some update := by simp [inHand, finish, hplace]
  have hended : ({ s with tasksDone := s.tasksDone + 1 } : JsonStream).finish.alive = false := rfl
  simp only [Counted, halive, if_true] at hbefore
  simp only [Counted, hinHand, hended, Bool.false_eq_true, if_false, Option.toList_some,
    List.length_singleton]
  simp only [finish]
  omega

theorem Kept.updateSent (h : s.Kept loads initial) {update : Update}
    {received : Option (Option Incoming)} (hplace : s.place = .sending update received)
    (succeeds : Bool) :
    ReflTransGen Connection.Turns (s.toConnection lane)
        ((s.step loads updating (.updateSent succeeds)).toConnection lane) ∧
      (s.step loads updating (.updateSent succeeds)).Kept loads initial ∧
      (s.step loads updating (.updateSent succeeds)).offered = s.offered := by
  have halive : s.alive = true := by simp [alive, hplace]
  have hupdate := h.sending update received hplace
  have hunsent := h.opened (by rw [hplace]; exact fun heq => by cases heq) halive
  cases succeeds with
  | false =>
    simp only [JsonStream.step, hplace, Bool.false_eq_true, if_false]
    rw [← hplace]
    exact ⟨.single (.lose _), h.abandon hplace, rfl⟩
  | true =>
    simp only [JsonStream.step, hplace, if_true]
    let after : JsonStream :=
      { s with tasksDone := s.tasksDone + 1, place := .waiting, sent := s.sent ++ [update] }
    have hwaiting : after.Idle := Or.inr (Or.inl rfl)
    have hsend : after.toConnection lane = (s.toConnection lane).send := by
      have hbefore : s.inHand = some update := by simp [inHand, hplace]
      have hafter : after.inHand = none := by simp [inHand, after, hupdate]
      rw [toConnection_eq hwaiting.alive hafter, toConnection_eq halive hbefore]
      simp only [Connection.send, hunsent, Bool.and_self, if_true, after]
    have hkept : after.Kept loads initial :=
      { opening := fun heq => by cases heq
        opened := fun _ _ => hunsent
        sending := fun _ _ heq => by cases heq
        received := fun _ _ heq => by cases heq
        ordered := h.ordered.congr rfl rfl rfl fun _ => halive
        counted := by
          have hbefore := h.counted
          simp only [Counted, halive, if_true] at hbefore
          simp only [Counted, hwaiting.alive, if_true, after, List.length_append,
            List.length_singleton]
          omega }
    cases received with
    | none =>
      have hloop := toConnection_loop updating lane hwaiting
      refine ⟨?_, kept_loop hwaiting hunsent hkept.ordered hkept.counted, rfl⟩
      rw [show JsonStream.toConnection lane _ = _ from hloop, hsend]
      exact .single (.send _)
    | some incoming =>
      obtain ⟨hturns, hafter, hoffered⟩ := hkept.receive updating lane rfl
        (h.received update incoming hplace)
      exact ⟨(ReflTransGen.single (hsend ▸ .send _)).trans hturns, hafter, hoffered⟩

theorem Kept.put (h : s.Kept loads initial) (update : Update) :
    (s.step loads updating (.put update)).Kept loads initial where
  opening := h.opening
  opened := h.opened
  sending := h.sending
  received := h.received
  ordered := h.ordered
  counted := h.counted

theorem Kept.step (h : s.Kept loads initial) (lane : Lane) {action : StreamAction}
    (hput : ∀ update, action ≠ .put update) :
    ReflTransGen Connection.Turns (s.toConnection lane)
        ((s.step loads updating action).toConnection lane) ∧
      (s.step loads updating action).Kept loads initial ∧
      (s.step loads updating action).offered = s.offered := by
  have hsame : ReflTransGen Connection.Turns (s.toConnection lane) (s.toConnection lane) ∧
      s.Kept loads initial ∧ s.offered = s.offered := ⟨.refl, h, rfl⟩
  cases action with
  | put update => exact absurd rfl (hput update)
  | initialSent succeeds =>
    simp only [JsonStream.step]
    split
    · next message unsent hplace hunsent =>
      have hidle : s.Idle := Or.inl hplace
      cases succeeds with
      | false =>
        refine ⟨.single (.lose _), kept_finish ?_ (h.counted.congr hidle.alive rfl rfl rfl), rfl⟩
        exact h.ordered.congr rfl rfl rfl fun _ => hidle.alive
      | true =>
        have hcounted : ({ s with unsent, sent := s.sent ++ [message] } : JsonStream).Counted
            initial := by
          have hbefore := h.counted
          simp only [Counted, hidle.alive, hunsent, if_true, List.length_cons] at hbefore
          simp only [Counted, List.length_append, List.length_singleton]
          omega
        have hopening : ({ s with unsent, sent := s.sent ++ [message] } : JsonStream).Idle := hidle
        have hsend : ({ s with unsent, sent := s.sent ++ [message] } : JsonStream).toConnection
            lane = (s.toConnection lane).send := by
          rw [toConnection_eq hopening.alive rfl, toConnection_eq hidle.alive rfl]
          simp only [Connection.send, hunsent, Bool.and_self, if_true]
          rfl
        have hordered : ({ s with unsent, sent := s.sent ++ [message] } : JsonStream).Ordered
            loads := h.ordered
        simp only [if_true]
        split_ifs with hlast
        · rw [toConnection_loop updating lane hopening, hsend]
          exact ⟨.single (.send _), kept_loop hopening hlast hordered hcounted, rfl⟩
        · rw [hsend]
          exact ⟨.single (.send _), ⟨h.opening, fun hne => absurd hplace hne, h.sending, h.received,
            hordered, hcounted⟩, rfl⟩
    · exact hsame
  | received incoming =>
    simp only [JsonStream.step]
    split
    · exact hsame
    · next hpending _ =>
      refine ⟨.refl, ⟨fun hplace => ?_, h.opened, h.sending, fun update other hplace => ?_, ?_,
        h.counted⟩, rfl⟩
      · cases (h.opening hplace).2.symm.trans hpending
      · cases (h.received update other hplace).symm.trans hpending
      · obtain ⟨handled, hall, hrest⟩ := h.ordered
        refine ⟨handled, ?_, hrest⟩
        simp only [hall, unhandled, hpending, List.append_nil]
        cases incoming <;> rfl
    · exact hsame
  | taken =>
    simp only [JsonStream.step]
    split
    · exact hsame
    · next update queue hpending hqueue hnot =>
      have hopening : s.place ≠ .opening := fun hplace => by
        cases (h.opening hplace).1.symm.trans hpending
      have hsending (other : Update) (received : Option (Option Incoming)) :
          s.place ≠ .sending other received := fun hplace => by
        cases (h.sending other received hplace).symm.trans hpending
      have hidle : s.Idle := by
        cases hplace : s.place with
        | opening => exact absurd hplace hopening
        | waiting => exact Or.inr (Or.inl hplace)
        | sending other received => exact absurd hplace (hsending other received)
        | yielding => exact Or.inr (Or.inr hplace)
        | ended inHand => exact absurd hplace (hnot inHand)
      have hunsent := h.opened hopening hidle.alive
      have htaken : ({ s with updateTask := .done update, queue } : JsonStream).Idle := hidle
      have htake : ({ s with updateTask := .done update, queue } : JsonStream).toConnection lane =
          (s.toConnection lane).take := by
        have hnone : s.inHand = none := by rw [hidle.inHand, hpending]
        rw [toConnection_eq htaken.alive htaken.inHand, toConnection_eq hidle.alive hnone]
        simp only [Connection.take, hunsent, hqueue, Bool.and_self, decide_true, if_true]
      rw [htake]
      exact ⟨.single (.take _), ⟨fun hplace => absurd hplace hopening, h.opened,
        fun other received hplace => absurd hplace (hsending other received), h.received, h.ordered,
        h.counted.congr hidle.alive rfl rfl rfl⟩, rfl⟩
    · exact hsame
  | wake =>
    simp only [JsonStream.step]
    split
    · next update incoming hplace hupdate hreceive =>
      exact h.wakes hplace hupdate (some incoming) fun other hother => by
        cases hother
        exact hreceive
    · next update hplace hupdate _ =>
      exact h.wakes hplace hupdate none fun other hother => by cases hother
    · next incoming hplace hreceive _ => exact h.receive updating lane hplace hreceive
    · exact hsame
  | updateSent succeeds =>
    cases hplace : s.place with
    | sending update received => exact h.updateSent hplace succeeds
    | _ => simpa only [JsonStream.step, hplace] using hsame
  | resume =>
    simp only [JsonStream.step]
    split
    · next hplace =>
      have hidle : s.Idle := Or.inr (Or.inr hplace)
      have hunsent := h.opened (by rw [hplace]; exact fun heq => by cases heq) hidle.alive
      rw [toConnection_loop updating lane hidle]
      exact ⟨.refl, kept_loop hidle hunsent h.ordered h.counted, rfl⟩
    · exact hsame
  | close =>
    simp only [JsonStream.step]
    split
    · exact hsame
    · next update received hplace =>
      have halive : s.alive = true := by simp [alive, hplace]
      exact ⟨.single (.lose _), h.abandon hplace, rfl⟩
    · next hended hsending =>
      have halive : s.alive = true := by
        cases hplace : s.place with
        | ended inHand => exact absurd hplace (hended inHand)
        | _ => simp [alive, hplace]
      exact ⟨.single (.lose _), kept_finish (h.ordered.congr rfl rfl rfl fun _ => halive)
        (h.counted.congr halive rfl rfl rfl), rfl⟩

theorem kept_start (initial : List Update) : (start updating initial).Kept loads initial := by
  unfold start
  split_ifs with hinitial
  · refine kept_loop (Or.inl rfl) rfl ⟨[], rfl, rfl, (fun _ h => by cases h), fun _ _ h => by cases h⟩ ?_
    subst hinitial
    exact ⟨le_rfl, le_rfl⟩
  · exact ⟨fun _ => ⟨rfl, rfl⟩, fun hne => absurd rfl hne, (fun _ _ h => by cases h),
      (fun _ _ h => by cases h), ⟨[], rfl, rfl, (fun _ h => by cases h), fun _ _ h => by cases h⟩,
      by simp [Counted]⟩

theorem toConnection_start (updating : Bool) (lane : Lane) (initial : List Update) :
    ((start updating initial).toConnection lane).pending = initial ∧
      (start updating initial).offered = [] := by
  unfold start
  split_ifs with hinitial
  · rw [toConnection_loop updating lane (Or.inl rfl), hinitial]
    exact ⟨rfl, rfl⟩
  · simp [toConnection, Connection.pending, inHand]

/-- One generation, however the server, the adapter and the consumer interleave with it. As the
adapters see it, it makes turns of a connection: the initial messages and the updates are sent in
the order in which they were put on the queue, each once, and at most the one in hand is lost with
it. The messages of the server are yielded in order up to one that ends the loop, at most the last
one unlooked at. No more updates are marked as done than were taken from the queue. -/
theorem generation_in_order (loads : String → Option Json) (updating : Bool) (lane : Lane)
    (initial : List Update) (actions : List StreamAction) :
    let s := run (step loads updating) (start updating initial) actions
    ReflTransGen Connection.Moves ((start updating initial).toConnection lane)
        (s.toConnection lane) ∧
      s.sent ++ s.unsent ++ s.inHand.toList ++ s.queue = initial ++ s.offered ∧
      (∃ handled, s.arrived = handled ++ s.unhandled ∧ s.unhandled.length ≤ 1 ∧
        s.yielded = handled.filterMap (payload? loads) ∧
        (∀ incoming ∈ handled.dropLast, ¬ Ends loads incoming) ∧
        (s.alive = true → ∀ incoming ∈ handled, ¬ Ends loads incoming)) ∧
      s.tasksDone + s.queue.length ≤ s.offered.length := by
  intro s
  have hrun : ReflTransGen Connection.Moves ((start updating initial).toConnection lane)
        (s.toConnection lane) ∧ s.Kept loads initial ∧
        (s.toConnection lane).pending = initial ++ s.offered := by
    refine run_invariant (fun s : JsonStream => ReflTransGen Connection.Moves _ (s.toConnection lane) ∧
      s.Kept loads initial ∧ (s.toConnection lane).pending = initial ++ s.offered)
      (fun s action ⟨hmoves, hkept, hpending⟩ => ?_) ?_ actions
    · obtain ⟨hpending, hoffered⟩ := toConnection_start updating lane initial
      exact ⟨.refl, kept_start initial, by rw [hpending, hoffered, List.append_nil]⟩
    · by_cases hput : ∃ update, action = .put update
      · obtain ⟨update, rfl⟩ := hput
        refine ⟨hmoves.tail (.put _ update), hkept.put update, ?_⟩
        rw [show ((s.step loads updating (.put update)).toConnection lane).pending =
          (s.toConnection lane).pending ++ [update] by
            simp [Connection.pending, toConnection, step, inHand], hpending]
        exact List.append_assoc ..
      · obtain ⟨hturns, hafter, hoffered⟩ := hkept.step lane (not_exists.mp hput)
        refine ⟨hmoves.trans (ReflTransGen.mono (fun _ _ h => Connection.Moves.turns h) _ _ hturns), hafter, ?_⟩
        rw [hoffered, ← hpending]
        exact Connection.pending_of_turns hturns
  obtain ⟨hmoves, hkept, hpending⟩ := hrun
  obtain ⟨handled, hall, hyielded, hbefore, hcontinues⟩ := hkept.ordered
  have hlast : s.unhandled.length ≤ 1 := by
    unfold unhandled
    split
    · exact le_rfl
    · exact Nat.zero_le 1
  refine ⟨hmoves, hpending, ⟨handled, hall, hlast, hyielded, hbefore, hcontinues⟩, ?_⟩
  have hlength := congrArg List.length hpending
  simp only [Connection.pending, toConnection, List.length_append] at hlength
  have hcounted := hkept.counted.2
  split_ifs at hcounted <;> omega

end JsonStream

end ChainQuantStudio.Exchanges
