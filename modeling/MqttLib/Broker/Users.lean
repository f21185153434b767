/-
MqttLib.Broker.Users

Whose messages and subscriptions a connection works with (`client_handler/connect.rs`,
`client_handler/mod.rs`, `client_handler/publish.rs`, `client_handler/subscribe.rs`,
`router.rs`): for each client identifier any number of connections, authenticated as any
users, claim its session one after another.  They share the stored session, the stored
inflight records, the session queue and the router's subscriptions.

Every subscription carries the user whose connection made it.  Every message queued for a
subscription, and every inflight record, carries the user of the session it was queued or
stored for.

A step is one section under the session slot, the router's maps or the queue's lock, or one
call into the storage.  The registration with the router holds the client map throughout,
so it is one step.
-/

import MqttLib.Broker.Ownership
import MqttLib.Storage.Messages
import MqttLib.Foundation.Reachable

namespace MqttLib.Broker.Users

open Storage Function
open MqttLib.Broker.Ownership (Exit)

/-! ## State -/

/-- The user a connection authenticated as, if any. -/
abbrev User := Option String

/-- A subscription and the user it was made under. -/
structure Subscription where
  topicFilter : String
  user : User
  deriving DecidableEq

/-- A QoS>0 message and the user of the session it was queued for. -/
structure Message where
  user : User
  deriving DecidableEq

/-- A stored inflight message and the user of the session it was stored for. -/
structure InflightRecord where
  direction : InflightDirection
  packetId : UInt16
  phase : InflightPhase
  user : User
  deriving DecidableEq

/-- `ClientSession`; `preserved` stands for an expiry interval other than `Some(0)`. -/
structure StoredSession where
  user : User
  preserved : Bool
  generation : Nat
  subscriptions : List Subscription

/-- The session queue. -/
structure Queue where
  messages : List Message
  epoch : Nat
  handoffs : Nat

/-- `clear(None)`. -/
def Queue.clear (q : Queue) : Queue :=
  { q with
    messages := []
    epoch := q.epoch + 1 }

/-- `requeue_front_in_epoch`. -/
def Queue.requeueFrontInEpoch (q : Queue) (messages : List Message) (epoch : Nat) : Queue :=
  if q.epoch = epoch then { q with messages := messages ++ q.messages } else q

/-- `push_in_epoch`. -/
def Queue.pushInEpoch (q : Queue) (message : Message) (epoch : Nat) : Queue :=
  if q.epoch = epoch then { q with messages := q.messages ++ [message] } else q

/-- Where a handler stands.  It holds the session slot from the claim until its
subscriptions are installed, and while it persists the end of its session. -/
inductive Stage where
  | idle
  | claiming
  | stored
  | cleared
  | registered
  | connecting
  | starting
  | top
  | selecting (delivering : Bool)
  | sending
  | draining
  | leaving (exit : Exit)
  | handedBack (exit : Exit)
  | answered
  | persisting (exit : Exit) (owned : Bool)
  | released (exit : Exit) (owned : Bool)
  | gone
  deriving DecidableEq

def Stage.holdsSlot : Stage → Bool
  | .claiming | .stored | .cleared | .registered | .persisting .. => true
  | _ => false

/-- Whether the stored session is already that of the claim while the router still knows the
connection before it. -/
def Stage.claimStored : Stage → Bool
  | .stored | .cleared => true
  | _ => false

/-- Whether the connection has not registered with the router yet. -/
def Stage.unregistered : Stage → Bool
  | .idle | .claiming | .stored | .cleared => true
  | _ => false

/-- Whether the QoS>0 lane of the connection still takes messages. -/
def Stage.laneOpen : Stage → Bool
  | .handedBack .abandoned => true
  | .persisting .abandoned _ | .released .abandoned _ => true
  | .handedBack _ | .answered | .persisting .. | .released .. | .gone => false
  | _ => true

/-- A message sent to the client and not acknowledged; `received` once its PUBREC came. -/
structure Unacknowledged where
  packetId : UInt16
  message : Message
  received : Bool

/-- A connection.  `notice` is the take-over notice it was sent, with its `discard` flag. -/
structure Handler where
  user : User := none
  stage : Stage := .idle
  resume : Bool := false
  preserved : Bool := false
  subscriptions : List Subscription := []
  epoch : Nat := 0
  predecessor : Bool := false
  notice : Option Bool := none
  bound : Bool := false
  baseline : Nat := 0
  lane : List Message := []
  batch : List Message := []
  held : List Message := []
  outboundInflight : List Unacknowledged := []
  inflightPublishes : List UInt16 := []

/-- Every message the connection works with. -/
def Handler.messages (h : Handler) : List Message :=
  h.lane ++ h.batch ++ h.held ++ h.outboundInflight.map (·.message)

/-- A message on its way from the router to one subscriber: the connection the subscriber had
and the epoch of its queue when the router planned the delivery. -/
structure Planned where
  message : Message
  target : Option Nat
  epoch : Nat

/-- Everything the broker holds for one client identifier. -/
structure Client where
  stored : Option StoredSession
  records : List InflightRecord
  queue : Queue
  routes : List Subscription
  registered : Option Nat
  slot : Option Nat
  handlers : Nat → Handler
  routers : Nat → Option Planned

/-- A client is applied to a generation for the handler of its connection. -/
instance : CoeFun Client fun _ => Nat → Handler := ⟨Client.handlers⟩

/-- No connection was ever made. -/
def Client.initial : Client where
  stored := none
  records := []
  queue := ⟨[], 0, 0⟩
  routes := []
  registered := none
  slot := none
  handlers := fun _ => {}
  routers := fun _ => none

/-- The broker, by client identifier. -/
abbrev State := String → Client

def State.initial : State := fun _ => Client.initial

/-! ## Operations -/

def Client.setHandler (c : Client) (g : Nat) (h : Handler) : Client :=
  { c with handlers := update c.handlers g h }

/-- `store_inflight_message`: one record for each direction and packet identifier. -/
def storeInflight (records : List InflightRecord) (record : InflightRecord) : List InflightRecord :=
  records.filter (fun r => ¬(r.direction = record.direction ∧ r.packetId = record.packetId)) ++
    [record]

/-- `remove_inflight_message` for each of the given packet identifiers. -/
def removeInflight (records : List InflightRecord) (direction : InflightDirection)
    (ids : List UInt16) : List InflightRecord :=
  records.filter fun r => ¬(r.direction = direction ∧ r.packetId ∈ ids)

/-- A storage call that may fail; its error is only logged. -/
def logged {β : Type} (ok : Bool) (before after : β) : β :=
  if ok then after else before

/-- `handle_session` up to the claim, under the session slot.  `expired` tells that the stored
session has expired by now, and `authorized` answers `authorize_subscribe`.  A session of
another user refuses the connection. -/
def Client.connect (storage : Bool) (c : Client) (g : Nat) (user : User)
    (cleanStart preserve expired : Bool) (authorized : String → Bool) : Option Client :=
  let resumable := c.stored.filter fun session => !expired && !cleanStart && session.preserved
  if c.slot = none ∧ (c.handlers g).stage = .idle then
    if resumable.any (fun session => session.user ≠ user) then
      some (c.setHandler g { user := user, stage := .gone })
    else
      some { c.setHandler g
        { user := user
          stage := .claiming
          resume := resumable.isSome
          preserved := storage && preserve
          subscriptions := (resumable.elim [] (·.subscriptions)).filter
            fun subscription => authorized subscription.topicFilter } with
        slot := some g }
  else none

/-- `store_session` of the claim; where it fails the connection is refused. -/
def Client.storeClaim (storage : Bool) (c : Client) (g : Nat) (ok : Bool) : Option Client :=
  let h := c.handlers g
  if h.stage = .claiming then
    if storage then
      if ok then
        some { c.setHandler g { h with stage := .stored } with
          stored := some ⟨h.user, h.preserved, g, h.subscriptions⟩ }
      else
        some { c.setHandler g { h with stage := .gone } with slot := none }
    else some (c.setHandler g { h with stage := .stored })
  else none

/-- `remove_all_inflight_messages` of the claim of a fresh session. -/
def Client.discardInflight (c : Client) (g : Nat) (ok : Bool) : Option Client :=
  let h := c.handlers g
  if h.stage = .stored ∧ ¬h.resume then
    some { c.setHandler g { h with stage := .cleared } with records := logged ok c.records [] }
  else none

/-- `register_session_as`: the connection before it gets its notice, and a fresh session
starts with an empty queue and without subscriptions. -/
def Client.register (c : Client) (g : Nat) : Option Client :=
  let h := c.handlers g
  if h.stage = .cleared ∨ (h.stage = .stored ∧ h.resume) then
    let displaced := match c.registered with
      | some k => update c.handlers k { c.handlers k with notice := some !h.resume }
      | none => c.handlers
    let handedOff := if c.registered.isSome then c.queue.handoffs + 1 else c.queue.handoffs
    let queue := if h.resume then c.queue else c.queue.clear
    some { c with
      routes := if h.resume then c.routes else []
      queue := { queue with handoffs := handedOff }
      registered := some g
      handlers := update displaced g
        { h with
          stage := .registered
          epoch := queue.epoch
          predecessor := c.registered.isSome } }
  else none

/-- `set_client_subscriptions` with the claimed session, and the end of the claim. -/
def Client.install (c : Client) (g : Nat) : Option Client :=
  let h := c.handlers g
  if h.stage = .registered then
    some { c.setHandler g { h with stage := .connecting } with
      routes := h.subscriptions
      slot := none }
  else none

/-- The CONNACK; where it cannot be written the claim is abandoned. -/
def Client.acknowledge (c : Client) (g : Nat) (written : Bool) : Option Client :=
  let h := c.handlers g
  if h.stage = .connecting then
    some (c.setHandler g
      { h with
        stage :=
          if !written then .handedBack .abandoned
          else if h.predecessor then .top else .starting })
  else none

/-- Whether the connection may bind: at once without a predecessor, otherwise when every
hand-off has drained. -/
def Client.mayBind (c : Client) (g : Nat) : Bool :=
  match (c.handlers g).stage with
  | .starting => true
  | .selecting _ => (c.handlers g).predecessor && !(c.handlers g).bound && c.queue.handoffs = 0
  | _ => false

/-- The records `load_persisted_inflight` puts back into the queue. -/
def InflightRecord.unsent (r : InflightRecord) : Bool :=
  r.direction = .outbound ∧ r.phase = .awaitingPubrec

/-- The records whose PUBREL `load_persisted_inflight` writes again. -/
def InflightRecord.releasing (r : InflightRecord) : Bool :=
  r.direction = .outbound ∧ r.phase = .awaitingPubcomp

/-- What the connection itself takes from the records it looks at. -/
def Handler.load (h : Handler) (looked : List InflightRecord) : Handler :=
  { h with
    outboundInflight := h.outboundInflight ++
      (looked.filter (·.releasing)).map fun r => ⟨r.packetId, ⟨r.user⟩, true⟩
    inflightPublishes := h.inflightPublishes ++
      (looked.filter fun r => r.direction = .inbound).map (·.packetId) }

/-- `load_persisted_inflight`.  `unwritten` is the number of records looked at before a PUBREL
could not be written; the connection then fails. -/
def Client.loadPersistedInflight (c : Client) (g : Nat) (h : Handler) (unwritten : Option Nat)
    (ok : Bool) : Client :=
  match unwritten with
  | some n => c.setHandler g { h.load (c.records.take n) with stage := .leaving .closed }
  | none =>
    let unsent := c.records.filter (·.unsent)
    { c.setHandler g { h.load c.records with stage := .top } with
      queue := c.queue.requeueFrontInEpoch (unsent.map fun r => ⟨r.user⟩) h.epoch
      records := logged ok c.records
        (removeInflight c.records .outbound (unsent.map (·.packetId))) }

/-- `bind`: a fresh session discards the inflight records, a resumed one loads them. -/
def Client.bind (c : Client) (g : Nat) (unwritten : Option Nat) (ok : Bool) : Option Client :=
  let h := { c.handlers g with
    bound := true
    baseline := c.queue.handoffs }
  if c.mayBind g then
    if h.resume then some (c.loadPersistedInflight g h unwritten ok)
    else
      some { c.setHandler g { h with stage := .top } with records := logged ok c.records [] }
  else none

/-- `delivery_gates` at the top of the loop. -/
def Client.turn (c : Client) (g : Nat) : Option Client :=
  let h := c.handlers g
  if h.stage = .top then
    some (c.setHandler g { h with stage := .selecting (h.bound && c.queue.handoffs = 0) })
  else none

/-- `drain_backlog` takes a batch from the queue. -/
def Client.drain (c : Client) (g count : Nat) : Option Client :=
  let h := c.handlers g
  if h.stage = .selecting true ∧ h.lane = [] then
    some { c.setHandler g
      { h with
        stage := .draining
        batch := c.queue.messages.take count } with
      queue := { c.queue with messages := c.queue.messages.drop count } }
  else none

/-- The record `send_publish`, `handle_pubrec` and `route_publish_by_qos` store. -/
def Client.persistInflight (storage : Bool) (c : Client) (ok : Bool) (record : InflightRecord) :
    Client :=
  { c with records := logged (storage && ok) c.records (storeInflight c.records record) }

/-- `send_publish`.  A message over the client's maximum packet size is discarded; where the
write fails the loop ends. -/
def Client.sendPublish (storage : Bool) (c : Client) (g : Nat) (h : Handler) (message : Message)
    (packetId : UInt16) (fits ok written : Bool) : Client :=
  if fits then
    (c.setHandler g
      { h with
        outboundInflight := h.outboundInflight ++ [⟨packetId, message, false⟩]
        stage := if written then h.stage else .leaving .closed
        held := if written then h.held else h.held ++ h.batch
        batch := if written then h.batch else [] }).persistInflight storage ok
      ⟨.outbound, packetId, .awaitingPubrec, h.user⟩
  else c.setHandler g h

/-- Whether a newer connection has displaced this one. -/
def Client.beingDisplaced (c : Client) (g : Nat) : Bool :=
  (c.handlers g).baseline < c.queue.handoffs

/-- The next message of a drained batch: held when the connection is displaced by now. -/
def Client.sendNext (storage : Bool) (c : Client) (g : Nat) (packetId : UInt16)
    (fits ok written : Bool) : Option Client :=
  let h := c.handlers g
  match h.batch with
  | [] => none
  | message :: rest =>
    if h.stage = .draining then
      if c.beingDisplaced g then
        some (c.setHandler g
          { h with
            held := h.held ++ h.batch
            batch := []
            stage := .top })
      else some (c.sendPublish storage g { h with batch := rest } message packetId fits ok written)
    else none

/-- The rest of a batch over its time budget goes back to the queue. -/
def Client.cut (c : Client) (g : Nat) : Option Client :=
  let h := c.handlers g
  if h.stage = .draining then
    some { c.setHandler g
      { h with
        batch := []
        stage := .top } with
      queue := c.queue.requeueFrontInEpoch h.batch h.epoch }
  else none

/-- A message of the QoS>0 lane.  The gates are read before the first one of a batch, the
displacement before every other. -/
def Client.receive (storage : Bool) (c : Client) (g : Nat) (packetId : UInt16)
    (fits ok written : Bool) : Option Client :=
  let h := c.handlers g
  match h.lane with
  | [] => none
  | message :: rest =>
    if h.stage = .selecting true ∨ (h.stage = .sending ∧ ¬c.beingDisplaced g) then
      some (c.sendPublish storage g
        { h with
          lane := rest
          stage := .sending } message packetId fits ok written)
    else none

/-- The end of a batch of lane messages. -/
def Client.endBatch (c : Client) (g : Nat) : Option Client :=
  let h := c.handlers g
  if h.stage = .sending then some (c.setHandler g { h with stage := .top }) else none

/-- The loop waits for its next event. -/
def Handler.listening (h : Handler) : Bool :=
  match h.stage with
  | .selecting _ => true
  | _ => false

/-- `handle_puback`, `handle_pubcomp`, and `handle_pubrec` with an error. -/
def Client.settle (c : Client) (g : Nat) (packetId : UInt16) (ok : Bool) : Option Client :=
  let h := c.handlers g
  if h.listening ∧ h.outboundInflight.any (·.packetId = packetId) then
    some { c.setHandler g
      { h with
        outboundInflight := h.outboundInflight.filter (·.packetId ≠ packetId)
        stage := .top } with
      records := logged ok c.records (removeInflight c.records .outbound [packetId]) }
  else none

/-- `handle_pubrec` without an error. -/
def Client.pubrec (storage : Bool) (c : Client) (g : Nat) (packetId : UInt16) (ok : Bool) :
    Option Client :=
  let h := c.handlers g
  if h.listening ∧ h.outboundInflight.any (·.packetId = packetId) then
    some ((c.setHandler g
      { h with
        outboundInflight := h.outboundInflight.map fun sent =>
          if sent.packetId = packetId then { sent with received := true } else sent
        stage := .top }).persistInflight storage ok
      ⟨.outbound, packetId, .awaitingPubcomp, h.user⟩)
  else none

/-- An accepted QoS 2 PUBLISH of the client (`route_publish_by_qos`). -/
def Client.publish (storage : Bool) (c : Client) (g : Nat) (packetId : UInt16) (ok : Bool) :
    Option Client :=
  let h := c.handlers g
  if h.listening then
    some ((c.setHandler g
      { h with
        inflightPublishes := packetId :: h.inflightPublishes
        stage := .top }).persistInflight storage ok
      ⟨.inbound, packetId, .awaitingPubrel, h.user⟩)
  else none

/-- `handle_pubrel`. -/
def Client.pubrel (c : Client) (g : Nat) (packetId : UInt16) (ok : Bool) : Option Client :=
  let h := c.handlers g
  if h.listening ∧ packetId ∈ h.inflightPublishes then
    some { c.setHandler g
      { h with
        inflightPublishes := h.inflightPublishes.filter (· ≠ packetId)
        stage := .top } with
      records := logged ok c.records (removeInflight c.records .inbound [packetId]) }
  else none

/-- `update_session` fenced by the connection token. -/
def updateSession (stored : Option StoredSession) (g : Nat)
    (update : StoredSession → StoredSession) : Option StoredSession :=
  stored.map fun session => if session.generation = g then update session else session

/-- A change of the subscriptions under the session slot, in the router and in the stored
session.  The router refuses it to a connection that no longer owns the session; where
the session cannot be stored the stored subscriptions are put back and the loop ends. -/
def Client.changeSubscriptions (c : Client) (g : Nat) (ok : Bool)
    (change : List Subscription → List Subscription) : Option Client :=
  let h := c.handlers g
  if h.listening ∧ c.slot = none then
    if c.registered = some g then
      if ok then
        some { c.setHandler g { h with stage := .top } with
          routes := change c.routes
          stored := updateSession c.stored g fun session =>
            { session with subscriptions := change session.subscriptions } }
      else
        some { c.setHandler g { h with stage := .leaving .closed } with
          routes := c.stored.elim [] (·.subscriptions) }
    else some (c.setHandler g { h with stage := .top })
  else none

/-- `add_subscription`. -/
def addSubscription (topicFilter : String) (user : User) (subscriptions : List Subscription) :
    List Subscription :=
  subscriptions.filter (·.topicFilter ≠ topicFilter) ++ [⟨topicFilter, user⟩]

/-- `handle_subscribe`. -/
def Client.subscribe (c : Client) (g : Nat) (topicFilter : String) (ok : Bool) : Option Client :=
  c.changeSubscriptions g ok (addSubscription topicFilter (c.handlers g).user)

/-- `handle_unsubscribe`. -/
def Client.unsubscribe (c : Client) (g : Nat) (topicFilter : String) (ok : Bool) : Option Client :=
  c.changeSubscriptions g ok (List.filter (·.topicFilter ≠ topicFilter))

/-- The connection ends by itself.  With `drops` its DISCONNECT set the expiry to zero, which
is written to the stored session when it is this connection's. -/
def Client.close (c : Client) (g : Nat) (drops : Bool) : Option Client :=
  let h := c.handlers g
  if h.listening then
    some { c.setHandler g
      { h with
        stage := .leaving .closed
        preserved := h.preserved && !drops } with
      stored := updateSession c.stored g fun session =>
        { session with preserved := session.preserved && !drops } }
  else none

/-- The loop reads its take-over notice. -/
def Client.takenOver (c : Client) (g : Nat) : Option Client :=
  let h := c.handlers g
  if h.listening ∧ h.notice.isSome then
    some (c.setHandler g { h with stage := .leaving .takenOver })
  else none

/-- Whether the leaving connection drops what it holds. -/
def Handler.discards (h : Handler) (exit : Exit) : Bool :=
  if exit = .takenOver then h.notice = some true else !h.preserved

/-- `drop_unsent` or `requeue_unsent`. -/
def Client.handBack (c : Client) (g : Nat) (ok : Bool) : Option Client :=
  let h := c.handlers g
  match h.stage with
  | .leaving exit =>
    let kept := { h with
      stage := .handedBack exit
      lane := []
      held := []
      outboundInflight := [] }
    if h.discards exit then
      some { c.setHandler g kept with
        records := logged ok c.records
          (removeInflight c.records .outbound (h.outboundInflight.map (·.packetId))) }
    else
      let unacked := h.outboundInflight.filter fun sent => !sent.received
      let unsent := unacked.map (·.message) ++ h.held ++ h.lane
      some { c.setHandler g kept with
        queue := c.queue.requeueFrontInEpoch unsent h.epoch
        records := logged ok c.records
          (removeInflight c.records .outbound (unacked.map (·.packetId))) }
  | _ => none

/-- The hand-off guard of a notice is dropped. -/
def Client.answer (c : Client) (g : Nat) : Client :=
  let h := c.handlers g
  if h.notice.isSome then
    { c.setHandler g { h with notice := none } with
      queue := { c.queue with handoffs := c.queue.handoffs - 1 } }
  else c

/-- The end of `hand_off`. -/
def Client.endHandOff (c : Client) (g : Nat) : Option Client :=
  if (c.handlers g).stage = .handedBack .takenOver then
    let c := c.answer g
    some (c.setHandler g { c.handlers g with stage := .answered })
  else none

/-- How a connection that has handed back its messages leaves. -/
def Stage.leavingBy : Stage → Option Exit
  | .answered => some .takenOver
  | .handedBack .closed => some .closed
  | .handedBack .abandoned => some .abandoned
  | _ => none

/-- `release_router_entry` under the session slot. -/
def Client.release (c : Client) (g : Nat) : Option Client :=
  let h := c.handlers g
  match h.stage.leavingBy with
  | some exit =>
    if c.slot = none then
      if c.registered = some g then
        some { c.setHandler g { h with stage := .persisting exit true } with
          slot := some g
          registered := none
          routes := if h.preserved then c.routes else [] }
      else
        some { c.setHandler g { h with stage := .persisting exit false } with slot := some g }
    else none
  | none => none

/-- `persist_session_end`, and the end of `release_ownership`.  `removed` tells whether the
session can be removed or updated, `cleared` whether the records can. -/
def Client.persist (storage : Bool) (c : Client) (g : Nat) (removed cleared : Bool) :
    Option Client :=
  let h := c.handlers g
  match h.stage with
  | .persisting exit owned =>
    let c := { c.setHandler g { h with stage := .released exit owned } with slot := none }
    if owned && storage && removed then
      if h.preserved then
        some { c with
          stored := updateSession c.stored g fun session =>
            { session with preserved := true } }
      else if c.stored.any (·.generation = g) then
        some { c with
          stored := none
          queue := c.queue.clear
          records := logged cleared c.records [] }
      else some c
    else some c
  | _ => none

/-- The rest of `run` and of `abandon_claim`: a session that is not kept loses its queue; a
displaced connection gives back the guard of its notice. -/
def Client.finish (c : Client) (g : Nat) : Option Client :=
  let h := c.handlers g
  match h.stage with
  | .released _ owned =>
    let c := c.setHandler g
      { h with
        stage := .gone
        lane := [] }
    if owned then
      if h.preserved then some c else some { c with queue := c.queue.clear }
    else some (c.answer g)
  | _ => none

/-- `sweep_session` under the session slot; `expired` tells that the stored session has
expired by now. -/
def Client.sweep (c : Client) (expired : Bool) : Option Client :=
  if c.slot = none ∧ c.registered = none then
    let stored := c.stored.filter fun _ => !expired
    if stored.isSome then some { c with stored := stored }
    else
      some { c with
        stored := none
        routes := []
        queue := c.queue.clear }
  else none

/-- A router task plans the delivery of a message to one subscription of the client. -/
def Client.plan (c : Client) (task index : Nat) : Option Client :=
  if c.routers task = none then
    c.routes[index]?.map fun subscription =>
      { c with
        routers := update c.routers task
          (some ⟨⟨subscription.user⟩, c.registered, c.queue.epoch⟩) }
  else none

/-- The router task delivers: into the lane of the connection it planned for while that is
open, or into the queue of the epoch it planned in. -/
def Client.deliver (c : Client) (task : Nat) (toLane : Bool) : Option Client :=
  (c.routers task).bind fun planned =>
    let c := { c with routers := update c.routers task none }
    if toLane then
      match planned.target with
      | some g =>
        let h := c.handlers g
        if h.stage.laneOpen then
          some (c.setHandler g { h with lane := h.lane ++ [planned.message] })
        else none
      | none => none
    else some { c with queue := c.queue.pushInEpoch planned.message planned.epoch }

/-! ## Steps -/

inductive Step where
  | connect (g : Nat) (user : User) (cleanStart preserve expired : Bool)
      (authorized : String → Bool)
  | storeClaim (g : Nat) (ok : Bool)
  | discardInflight (g : Nat) (ok : Bool)
  | register (g : Nat)
  | install (g : Nat)
  | acknowledge (g : Nat) (written : Bool)
  | bind (g : Nat) (unwritten : Option Nat) (ok : Bool)
  | turn (g : Nat)
  | drain (g count : Nat)
  | sendNext (g : Nat) (packetId : UInt16) (fits ok written : Bool)
  | cut (g : Nat)
  | receive (g : Nat) (packetId : UInt16) (fits ok written : Bool)
  | endBatch (g : Nat)
  | settle (g : Nat) (packetId : UInt16) (ok : Bool)
  | pubrec (g : Nat) (packetId : UInt16) (ok : Bool)
  | publish (g : Nat) (packetId : UInt16) (ok : Bool)
  | pubrel (g : Nat) (packetId : UInt16) (ok : Bool)
  | subscribe (g : Nat) (topicFilter : String) (ok : Bool)
  | unsubscribe (g : Nat) (topicFilter : String) (ok : Bool)
  | close (g : Nat) (drops : Bool)
  | takenOver (g : Nat)
  | handBack (g : Nat) (ok : Bool)
  | endHandOff (g : Nat)
  | release (g : Nat)
  | persist (g : Nat) (removed cleared : Bool)
  | finish (g : Nat)
  | sweep (expired : Bool)
  | plan (task index : Nat)
  | deliver (task : Nat) (toLane : Bool)

def Client.step (storage : Bool) (c : Client) : Step → Option Client
  | .connect g user cleanStart preserve expired authorized =>
    c.connect storage g user cleanStart preserve expired authorized
  | .storeClaim g ok => c.storeClaim storage g ok
  | .discardInflight g ok => c.discardInflight g ok
  | .register g => c.register g
  | .install g => c.install g
  | .acknowledge g written => c.acknowledge g written
  | .bind g unwritten ok => c.bind g unwritten ok
  | .turn g => c.turn g
  | .drain g count => c.drain g count
  | .sendNext g packetId fits ok written => c.sendNext storage g packetId fits ok written
  | .cut g => c.cut g
  | .receive g packetId fits ok written => c.receive storage g packetId fits ok written
  | .endBatch g => c.endBatch g
  | .settle g packetId ok => c.settle g packetId ok
  | .pubrec g packetId ok => c.pubrec storage g packetId ok
  | .publish g packetId ok => c.publish storage g packetId ok
  | .pubrel g packetId ok => c.pubrel g packetId ok
  | .subscribe g topicFilter ok => c.subscribe g topicFilter ok
  | .unsubscribe g topicFilter ok => c.unsubscribe g topicFilter ok
  | .close g drops => c.close g drops
  | .takenOver g => c.takenOver g
  | .handBack g ok => c.handBack g ok
  | .endHandOff g => c.endHandOff g
  | .release g => c.release g
  | .persist g removed cleared => c.persist storage g removed cleared
  | .finish g => c.finish g
  | .sweep expired => c.sweep expired
  | .plan task index => c.plan task index
  | .deliver task toLane => c.deliver task toLane

/-- A step for one client identifier. -/
structure Action where
  clientId : String
  step : Step

def act (storage : Bool) (s : State) (a : Action) : Option State :=
  ((s a.clientId).step storage a.step).map (update s a.clientId)

end MqttLib.Broker.Users
