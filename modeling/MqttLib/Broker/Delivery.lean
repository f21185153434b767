/-
MqttLib.Broker.Delivery

The delivery of QoS 1 and 2 messages to one client (`router.rs`, `client_handler/mod.rs`,
`client_handler/publish.rs`): routers put messages into the delivery lane of the
registered connection or into the session's queue; the connection sends what is in its
lane and in the queue; and a connection that ends or is displaced puts everything it
still owns back to the front of the queue.

The session is preserved and resumed throughout, so nothing here clears the queue.  A step
is one access to what the tasks share: a section under the queue's lock, one load or store
of an atomic of the queue, one operation on a channel.  What a task does with its own data
between two of them belongs to the step.  Which ready branch of `select!` is taken, whether
a write succeeds and when a time budget is spent are choices of the step.
-/

import MqttLib.Broker.Outbound
import MqttLib.Broker.Ownership

namespace MqttLib.Broker.Delivery

open Foundation Storage Function
open MqttLib.Broker.Ownership (Exit Release)

variable {α : Type*}

/-! ## State -/

/-- The bounded channel to a connection.  `permits` are the publishers that have reserved a
place and not used it yet; a closed channel still takes their messages. -/
structure Lane (α : Type*) where
  contents : List (Message α) := []
  capacity : Nat := 0
  closed : Bool := false
  permits : Finset Nat := ∅

def Lane.hasRoom (lane : Lane α) : Bool :=
  lane.contents.length + lane.permits.card < lane.capacity

/-- Where a connection stands.  From `top` to `sent` it is in the loop of `handle_packets`:
in `laneBatch` within `send_lane_batch`, from `checked` on within `drain_backlog`. -/
inductive Phase (α : Type*) where
  | idle
  | expecting
  | connecting
  | starting
  | top
  | selecting (delivering windowOpen : Bool)
  | laneBatch (left : Nat)
  | checked (limit : Nat)
  | taking (entries : List (QueueEntry (Message α)))
  | sending (pending : List (Message α))
  | sent (pending : List (Message α))
  | leaving (exit : Exit)
  | closing (exit : Exit)
  | requeued (exit : Exit)
  | drained
  | releasing (exit : Exit)
  | released (exit : Exit) (release : Release)
  | gone

/-- A connection.  `predecessor` tells whether it waits for a hand-off before it binds, and
`notice` whether it has been displaced and has not answered yet.  `sends` records what it
has sent, in order. -/
structure Handler (α : Type*) where
  phase : Phase α := .idle
  lane : Lane α := {}
  outbound : Outbound α := {}
  held : List (Message α) := []
  window : Nat := 1
  drainBatch : Nat := 1
  epoch : Nat := 0
  predecessor : Bool := false
  notice : Bool := false
  bound : Bool := false
  waived : Bool := false
  baseline : Nat := 0
  sends : List Delivery := []

/-- Where a router stands with a message (`execute_plan`).  `checking` counts the flags of
`behind` it has read. -/
inductive Stage (α : Type*) where
  | idle
  | checking (message : Message α) (generation epoch flags : Nat)
  | sending (message : Message α) (generation epoch : Nat)
  | waiting (message : Message α) (generation epoch : Nat)
  | permitted (message : Message α) (generation : Nat)
  | queueing (message : Message α) (epoch : Nat)

/-- A publisher routes one message after the other; `next` is the number of the next one. -/
structure Publisher (α : Type*) where
  next : Nat := 0
  stage : Stage α := .idle

/-- What has happened so far: the messages that have entered a lane or the queue, those whose
exchange has ended, those too large for the client, and those written to the client, in
the order of the first write. -/
structure History where
  accepted : Multiset Delivery := 0
  finished : Multiset Delivery := 0
  discarded : Multiset Delivery := 0
  sent : List Delivery := []

structure State (α : Type*) where
  queue : ClientQueue (Message α) := {}
  records : Records α := ∅
  registered : Option Nat := none
  handlers : Nat → Handler α := fun _ => {}
  nextGeneration : Nat := 1
  publishers : Nat → Publisher α := fun _ => {}
  history : History := {}

/-- A state is applied to a generation for the handler of its connection. -/
instance : CoeFun (State α) fun _ => Nat → Handler α := ⟨State.handlers⟩

def State.setHandler (s : State α) (g : Nat) (h : Handler α) : State α :=
  { s with handlers := update s.handlers g h }

def State.setStage (s : State α) (p : Nat) (stage : Stage α) : State α :=
  { s with publishers := update s.publishers p { s.publishers p with stage } }

/-! ## Routers -/

/-- The flags of `behind`, in the order in which they are read. -/
def flag (q : ClientQueue (Message α)) : Nat → Bool
  | 0 => q.count > 0
  | 1 => q.draining
  | 2 => q.handoff
  | _ => q.awaitingBind != 0

/-- The router is done with its message. -/
def State.routed (s : State α) (p : Nat) : State α :=
  { s with publishers := update s.publishers p { next := (s.publishers p).next + 1 } }

/-- The message is in the lane or in the queue. -/
def State.accept (s : State α) (p : Nat) (m : Message α) : State α :=
  let s := s.routed p
  { s with history := { s.history with accepted := m.delivery ::ₘ s.history.accepted } }

/-- The message goes into the lane of a connection. -/
def State.enterLane (s : State α) (p g : Nat) (m : Message α) (permits : Finset Nat) : State α :=
  let h := s.handlers g
  (s.setHandler g
    { h with lane := { h.lane with contents := h.lane.contents ++ [m], permits } }).accept p m

/-- `plan_delivery`: the lane of the registered connection, if there is one and the rate
limit is not exceeded. -/
def State.plan (s : State α) (p : Nat) (content : α) (limited : Bool) : Option (State α) :=
  match (s.publishers p).stage with
  | .idle =>
    let m : Message α := { delivery := ⟨p, (s.publishers p).next⟩, content }
    match s.registered, limited with
    | some g, false => some (s.setStage p (.checking m g s.queue.epoch 0))
    | _, _ => some (s.setStage p (.queueing m s.queue.epoch))
  | _ => none

/-- One of the loads of `behind`. -/
def State.readFlag (s : State α) (p : Nat) : Option (State α) :=
  match (s.publishers p).stage with
  | .checking m g epoch flags =>
    if flag s.queue flags then some (s.setStage p (.queueing m epoch))
    else if flags < 3 then some (s.setStage p (.checking m g epoch (flags + 1)))
    else some (s.setStage p (.sending m g epoch))
  | _ => none

/-- `try_send`.  A router may wait for a place if it has a deadline and the publisher is not
the subscriber itself. -/
def State.trySend (s : State α) (p : Nat) (waits : Bool) : Option (State α) :=
  match (s.publishers p).stage with
  | .sending m g epoch =>
    let lane := (s.handlers g).lane
    if lane.closed then some (s.setStage p (.queueing m epoch))
    else if lane.hasRoom then some (s.enterLane p g m lane.permits)
    else if waits then some (s.setStage p (.waiting m g epoch))
    else some (s.setStage p (.queueing m epoch))
  | _ => none

/-- `reserve` has got a place, or has found the channel closed. -/
def State.reserve (s : State α) (p : Nat) : Option (State α) :=
  match (s.publishers p).stage with
  | .waiting m g epoch =>
    let h := s.handlers g
    if h.lane.closed then some (s.setStage p (.queueing m epoch))
    else if h.lane.hasRoom then
      some ((s.setHandler g
        { h with lane := { h.lane with permits := insert p h.lane.permits } }).setStage
        p (.permitted m g))
    else none
  | _ => none

def State.timeout (s : State α) (p : Nat) : Option (State α) :=
  match (s.publishers p).stage with
  | .waiting m _ epoch => some (s.setStage p (.queueing m epoch))
  | _ => none

def State.sendPermit (s : State α) (p : Nat) : Option (State α) :=
  match (s.publishers p).stage with
  | .permitted m g => some (s.enterLane p g m ((s.handlers g).lane.permits.erase p))
  | _ => none

/-- `queue_behind`. -/
def State.push [Queueable α] (s : State α) (p : Nat) : Option (State α) :=
  match (s.publishers p).stage with
  | .queueing m epoch =>
    match s.queue.pushInEpoch m epoch with
    | none => some (s.routed p)
    | some (queue, _) => some ({ s with queue }.accept p m)
  | _ => none

/-! ## The loop of a connection -/

def Handler.beingDisplaced (h : Handler α) (q : ClientQueue (Message α)) : Bool :=
  q.handoffs > h.baseline

def Handler.free (h : Handler α) : Nat := h.window - h.outbound.inflight.entries.card

/-- The gates of one turn of the loop (`delivery_gates`). -/
def State.turn (s : State α) (g : Nat) : Option (State α) :=
  let h := s.handlers g
  match h.phase with
  | .top =>
    let delivering := h.bound && (h.waived || !s.queue.handoff)
    some (s.setHandler g { h with phase := .selecting delivering (delivering && h.free > 0) })
  | _ => none

/-- The written message, if it has not been written before. -/
def History.write (history : History) (d : Delivery) : History :=
  if d ∈ history.sent then history else { history with sent := history.sent ++ [d] }

/-- `send_publish`: the connection goes on as `onward`, or as `stopped` after an error. -/
def State.transmit [Publishable α] (s : State α) (g : Nat) (m : Message α) (written : Bool)
    (onward stopped : Handler α) : State α :=
  let (result, outbound, records) := (s.handlers g).outbound.sendPublish s.records m
  match result with
  | .failed => s.setHandler g { stopped with outbound }
  | .discarded =>
    { s.setHandler g { onward with outbound } with
      history := { s.history with discarded := m.delivery ::ₘ s.history.discarded } }
  | .sent =>
    let sends := (s.handlers g).sends ++ [m.delivery]
    if written then
      { s.setHandler g { onward with outbound, sends } with
        records
        history := s.history.write m.delivery }
    else { s.setHandler g { stopped with outbound, sends } with records }

/-- The next message of the lane is sent. -/
def State.sendLane [Publishable α] (s : State α) (g : Nat) (written : Bool) (left : Nat) :
    Option (State α) :=
  let h := s.handlers g
  match h.lane.contents with
  | [] => none
  | m :: rest =>
    let h := { h with lane := { h.lane with contents := rest } }
    some (s.transmit g m written { h with phase := .laneBatch left }
      { h with phase := .leaving .closed })

/-- The first message of a lane batch. -/
def State.receive [Publishable α] (s : State α) (g : Nat) (written : Bool) : Option (State α) :=
  let h := s.handlers g
  match h.phase with
  | .selecting _ true => s.sendLane g written (h.drainBatch - 1)
  | _ => none

/-- One more message of a lane batch. -/
def State.next [Publishable α] (s : State α) (g : Nat) (written : Bool) : Option (State α) :=
  let h := s.handlers g
  match h.phase with
  | .laneBatch (left + 1) =>
    if h.beingDisplaced s.queue || h.free == 0 then none else s.sendLane g written left
  | _ => none

def State.endBatch (s : State α) (g : Nat) : Option (State α) :=
  let h := s.handlers g
  match h.phase with
  | .laneBatch _ => some (s.setHandler g { h with phase := .top })
  | _ => none

/-- The checks of `drain_backlog`. -/
def State.drain (s : State α) (g : Nat) : Option (State α) :=
  let h := s.handlers g
  match h.phase with
  | .selecting true _ =>
    if s.queue.count = 0 || !h.lane.contents.isEmpty || h.free == 0 then
      some (s.setHandler g { h with phase := .top })
    else some (s.setHandler g { h with phase := .checked (min h.free (max h.drainBatch 1)) })
  | _ => none

/-- `take` up to the store of the count. -/
def State.take (s : State α) (g : Nat) (now : SystemTime) : Option (State α) :=
  let h := s.handlers g
  match h.phase with
  | .checked limit =>
    let (taken, queue, _) := s.queue.takeEntries now limit
    some ({ s with queue }.setHandler g { h with phase := .taking taken })
  | _ => none

/-- The rest of `take`.  No entry has its body on disk: the broker has not been restarted. -/
def State.mark [Queueable α] (s : State α) (g : Nat) (now : SystemTime) : Option (State α) :=
  let h := s.handlers g
  match h.phase with
  | .taking entries =>
    let messages := entries.filterMap (ClientQueue.readEntry (fun _ => none) now)
    some ({ s with queue := (s.queue.markDraining entries).settleTake messages }.setHandler g
      { h with phase := .sending messages })
  | _ => none

/-- The next message of the batch, unless the connection has been displaced. -/
def State.sendNext [Publishable α] (s : State α) (g : Nat) (written : Bool) : Option (State α) :=
  let h := s.handlers g
  match h.phase with
  | .sending (m :: rest) =>
    if h.beingDisplaced s.queue then
      some (s.setHandler g { h with phase := .top, held := h.held ++ m :: rest })
    else
      some (s.transmit g m written { h with phase := .sent rest }
        { h with phase := .leaving .closed, held := h.held ++ rest })
  | _ => none

/-- After a message of the batch: where the time is up, the rest goes back to the queue. -/
def State.proceed [Queueable α] (s : State α) (g : Nat) (cut : Bool) : Option (State α) :=
  let h := s.handlers g
  match h.phase with
  | .sent rest =>
    if cut then
      some ({ s with queue := (s.queue.requeueFrontInEpoch rest h.epoch).1 }.setHandler g
        { h with phase := .sending [] })
    else some (s.setHandler g { h with phase := .sending rest })
  | _ => none

/-- `finish_drain`, after a batch and in `hand_off`. -/
def State.finishDrain (s : State α) (g : Nat) : Option (State α) :=
  let h := s.handlers g
  match h.phase with
  | .sending [] =>
    some ({ s with queue := s.queue.finishDrain }.setHandler g { h with phase := .top })
  | .requeued .takenOver =>
    some ({ s with queue := s.queue.finishDrain }.setHandler g { h with phase := .drained })
  | _ => none

/-- The window after an acknowledgement; its answer may not be written. -/
def State.settled (s : State α) (g : Nat) (written : Bool)
    (result : Option (Message α) × Outbound α × Records α) : State α :=
  let (finished, outbound, records) := result
  { s.setHandler g
      { s.handlers g with
        outbound
        phase := if written then .top else .leaving .closed } with
    records
    history :=
      { s.history with
        finished := (finished.map Message.delivery).toList + s.history.finished } }

/-- A packet of the client is handled in the loop. -/
def State.inLoop (s : State α) (g : Nat) (handle : Handler α → State α) : Option (State α) :=
  let h := s.handlers g
  match h.phase with
  | .selecting _ _ => some (handle h)
  | _ => none

/-! ## Connections come and go -/

/-- `allocate_generation` and `expect_bind`. -/
def State.expect (s : State α) (capacity window drainBatch : Nat) (maxPacketSize : Option Nat) :
    State α :=
  let g := s.nextGeneration
  { s.setHandler g
      { phase := .expecting
        lane := { capacity }
        outbound := { maxPacketSize }
        window := max window 1
        drainBatch } with
    queue := s.queue.expectBind g
    nextGeneration := g + 1 }

/-- `register_session_as`: the connection in the router entry is displaced. -/
def State.register (s : State α) (g : Nat) : Option (State α) :=
  let h := s.handlers g
  match h.phase with
  | .expecting =>
    let displaced :=
      match s.registered with
      | none => s
      | some old =>
        { s.setHandler old { s.handlers old with notice := true } with
          queue := s.queue.beginHandoff }
    some ({ displaced with registered := some g }.setHandler g
      { h with
        phase := .connecting
        predecessor := s.registered.isSome
        epoch := displaced.queue.epoch })
  | _ => none

def State.connected (s : State α) (g : Nat) : Option (State α) :=
  let h := s.handlers g
  match h.phase with
  | .connecting =>
    some (s.setHandler g { h with phase := if h.predecessor then .top else .starting })
  | _ => none

/-- Whether a connection may bind: at once without a predecessor; otherwise when the hand-offs
are over, or have been waived after the deadline. -/
def Handler.mayBind (h : Handler α) (q : ClientQueue (Message α)) (waived : Bool) : Bool :=
  match h.phase with
  | .starting => !waived
  | .selecting _ _ => !h.bound && (waived || q.handoffs == 0)
  | _ => false

/-- `bind`.  If a PUBREL cannot be written, only some of the sorted records have been looked
at. -/
def State.bind [Queueable α] (s : State α) (g : Nat) (waived : Bool)
    (sorted : List (UInt16 × InflightRecord α)) (unwritten : Option Nat) : Option (State α) :=
  let h := s.handlers g
  let ready := h.mayBind s.queue waived
  let h := { h with bound := true, waived, baseline := s.queue.handoffs }
  if !ready then none
  else if waived then
    some ({ s with queue := s.queue.markBound g }.setHandler g { h with phase := .top })
  else
    match unwritten with
    | some looked =>
      let (_, outbound) := (sorted.take looked).foldl Outbound.load ([], h.outbound)
      some (s.setHandler g { h with outbound, phase := .leaving .closed })
    | none =>
      let (requeue, outbound) := h.outbound.loadPersistedInflight sorted
      some ({ s with
          queue := (s.queue.requeueFrontInEpoch requeue h.epoch).1.markBound g
          records := s.records.without (requeue.filterMap Message.packetId) }.setHandler g
        { h with outbound, phase := .top })

/-- Everything the connection still owns: the unacknowledged messages in the order of the
sends, the held ones, and the lane. -/
def Handler.unsent (h : Handler α) : List (Message α) :=
  h.outbound.unacked.map Prod.snd ++ h.held ++
    h.lane.contents.map fun m => { m with packetId := none }

/-- `requeue_unsent` after the lane has been closed, when every reserved place has been used:
it all goes to the front of the queue. -/
def State.requeue [Queueable α] (s : State α) (g : Nat) : Option (State α) :=
  let h := s.handlers g
  match h.phase with
  | .closing exit =>
    if h.lane.permits ≠ ∅ then none
    else
      some ({ s with
          queue := (s.queue.requeueFrontInEpoch h.unsent h.epoch).1
          records := s.records.without (h.outbound.unacked.map Prod.fst) }.setHandler g
        { h with
          outbound := h.outbound.emptied
          held := []
          lane := { h.lane with contents := [] }
          phase := .requeued exit })
  | _ => none

/-- The guard of the take-over notice is dropped. -/
def State.answered (s : State α) (g : Nat) (h : Handler α) : State α :=
  if h.notice then
    { s with queue := s.queue.endHandoff }.setHandler g { h with notice := false }
  else s.setHandler g h

def State.endHandoff (s : State α) (g : Nat) : Option (State α) :=
  let h := s.handlers g
  match h.phase with
  | .drained => some (s.answered g { h with phase := .releasing .takenOver })
  | _ => none

/-- `release_client`. -/
def State.release (s : State α) (g : Nat) : Option (State α) :=
  let h := s.handlers g
  let releasing : Option Exit :=
    match h.phase with
    | .releasing exit => some exit
    | .requeued .closed => some .closed
    | _ => none
  releasing.map fun exit =>
    if s.registered = some g then
      { s with registered := none }.setHandler g { h with phase := .released exit .owned }
    else s.setHandler g { h with phase := .released exit .displaced }

/-- The end of `run`: a connection that has ended by itself finishes its drain only now, and
the lane of one that has never been connected is dropped. -/
def State.finish (s : State α) (g : Nat) : Option (State α) :=
  let h := s.handlers g
  match h.phase with
  | .released .takenOver _ => some (s.setHandler g { h with phase := .gone })
  | .released .closed _ =>
    some ({ s with queue := s.queue.finishDrain }.answered g { h with phase := .gone })
  | .released .abandoned _ =>
    some (s.answered g { h with
      phase := .gone,
      lane := { h.lane with contents := [], closed := true } })
  | _ => none

/-! ## Steps -/

inductive Action (α : Type*) where
  | expect (capacity window drainBatch : Nat) (maxPacketSize : Option Nat)
  | register (g : Nat)
  | connected (g : Nat)
  /-- The handshake fails after the registration. -/
  | abandon (g : Nat)
  | bind (g : Nat) (waived : Bool) (sorted : List (UInt16 × InflightRecord α))
      (unwritten : Option Nat)
  | turn (g : Nat)
  | receive (g : Nat) (written : Bool)
  | next (g : Nat) (written : Bool)
  | endBatch (g : Nat)
  | drain (g : Nat)
  | take (g : Nat) (now : SystemTime)
  | mark (g : Nat) (now : SystemTime)
  | sendNext (g : Nat) (written : Bool)
  | proceed (g : Nat) (cut : Bool)
  | finishDrain (g : Nat)
  | puback (g : Nat) (id : UInt16)
  | pubrec (g : Nat) (id : UInt16) (error written : Bool)
  | pubcomp (g : Nat) (id : UInt16)
  /-- The client's own QoS 2 publishes take and free packet identifiers. -/
  | inbound (g : Nat) (ids : Finset UInt16)
  /-- The loop is left: the connection has ended, or the notice has arrived. -/
  | close (g : Nat)
  | takenOver (g : Nat)
  | closeLane (g : Nat)
  | requeue (g : Nat)
  | endHandoff (g : Nat)
  | release (g : Nat)
  | finish (g : Nat)
  | plan (p : Nat) (content : α) (limited : Bool)
  | readFlag (p : Nat)
  | trySend (p : Nat) (waits : Bool)
  | reserve (p : Nat)
  | timeout (p : Nat)
  | sendPermit (p : Nat)
  | push (p : Nat)

/-- One step of the system; `none` where it is not enabled. -/
def act [Publishable α] (s : State α) : Action α → Option (State α)
  | .expect capacity window drainBatch maxPacketSize =>
    some (s.expect capacity window drainBatch maxPacketSize)
  | .register g => s.register g
  | .connected g => s.connected g
  | .abandon g =>
    match (s.handlers g).phase with
    | .connecting => some (s.setHandler g { s.handlers g with phase := .releasing .abandoned })
    | _ => none
  | .bind g waived sorted unwritten => s.bind g waived sorted unwritten
  | .turn g => s.turn g
  | .receive g written => s.receive g written
  | .next g written => s.next g written
  | .endBatch g => s.endBatch g
  | .drain g => s.drain g
  | .take g now => s.take g now
  | .mark g now => s.mark g now
  | .sendNext g written => s.sendNext g written
  | .proceed g cut => s.proceed g cut
  | .finishDrain g => s.finishDrain g
  | .puback g id =>
    s.inLoop g fun h => s.settled g true (h.outbound.handlePuback s.records id)
  | .pubrec g id error written =>
    s.inLoop g fun h =>
      s.settled g (error || written) (h.outbound.handlePubrec s.records id error)
  | .pubcomp g id =>
    s.inLoop g fun h => s.settled g true (h.outbound.handlePubcomp s.records id)
  | .inbound g ids =>
    s.inLoop g fun h =>
      s.setHandler g { h with outbound := { h.outbound with inbound := ids }, phase := .top }
  | .close g => s.inLoop g fun h => s.setHandler g { h with phase := .leaving .closed }
  | .takenOver g =>
    if (s.handlers g).notice then
      s.inLoop g fun h => s.setHandler g { h with phase := .leaving .takenOver }
    else none
  | .closeLane g =>
    match (s.handlers g).phase with
    | .leaving exit =>
      let h := s.handlers g
      some (s.setHandler g { h with
        lane := { h.lane with closed := true },
        phase := .closing exit })
    | _ => none
  | .requeue g => s.requeue g
  | .endHandoff g => s.endHandoff g
  | .release g => s.release g
  | .finish g => s.finish g
  | .plan p content limited => s.plan p content limited
  | .readFlag p => s.readFlag p
  | .trySend p waits => s.trySend p waits
  | .reserve p => s.reserve p
  | .timeout p => s.timeout p
  | .sendPermit p => s.sendPermit p
  | .push p => s.push p

/-- Runs a list of steps. -/
def acts [Publishable α] (s : State α) (actions : List (Action α)) : Option (State α) :=
  actions.foldlM act s

end MqttLib.Broker.Delivery
