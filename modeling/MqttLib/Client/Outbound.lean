/-
MqttLib.Client.Outbound

The packet identifiers of the client's own exchanges: their reservation
(`allocate_packet_id` of `client/direct/mod.rs`, `tracking.rs`), the tables an identifier can
be in (`session/state.rs`), the acknowledgement handlers of the reader tasks (`reader.rs`,
`handlers.rs`), the offline queue and the replay task (`replay.rs`), and a reconnect.

A step is one atomic operation or one section under a lock.  Which identifier a search finds
is left open: a reservation may be of any identifier that is not reserved or quarantined.  The
numbers of the exchanges, the count of PUBLISHes stored under each identifier and the record of
what has ended are there for the statements only; no step depends on them.
-/

import MqttLib.Foundation.Reachable
import MqttLib.Protocol.Types
import Mathlib.Data.Finset.Erase
import Mathlib.Data.Finset.Insert

namespace MqttLib.Client.Outbound

open Foundation Protocol Function

/-! ## State -/

abbrev PacketId := UInt16

inductive Purpose where
  | publish
  | subscribe
  | unsubscribe
  deriving DecidableEq

structure Exchange where
  number : Nat
  packetId : PacketId
  purpose : Purpose
  deriving DecidableEq

/-- Where an identifier can be held: `reserved` and `quarantined` of the `OutboundIds`,
`unacked_publishes` and `unacked_pubrels` of the session, and the waiting SUBSCRIBEs and
UNSUBSCRIBEs. -/
inductive Place where
  | reserved
  | publish
  | pubrel
  | suback
  | unsuback
  | quarantined
  deriving DecidableEq

abbrev Tables := Place → PacketId → Option Exchange

def Tables.put (held : Tables) (place : Place) (id : PacketId) (x : Option Exchange) : Tables :=
  update held place (update (held place) id x)

theorem Tables.put_apply (held : Tables) (place p : Place) (id i : PacketId) (x : Option Exchange) :
    held.put place id x p i = if p = place ∧ i = id then x else held p i := by
  unfold Tables.put
  by_cases hp : p = place
  · subst hp
    rw [update_self, update_apply]
    simp
  · rw [update_of_ne hp, if_neg (fun h => hp h.1)]

@[simp]
theorem Tables.put_same (held : Tables) (place : Place) (id : PacketId) (x : Option Exchange) :
    held.put place id x place id = x := by
  rw [Tables.put_apply, if_pos ⟨rfl, rfl⟩]

/-- Who wants an identifier: a call of the application, or a message that goes back into the
offline queue because its session is lost. -/
inductive Task where
  | request (k : Nat)
  | lost (id : PacketId)
  deriving DecidableEq

/-- Where a task stands: with a reservation, at first its own, then in the offline queue; and
with a reservation whose exchange has been entered, by the call itself or from the queue. -/
inductive CallerPhase where
  | idle
  | holding (x : Exchange)
  | queued (x : Exchange)
  | entered (x : Exchange)
  | transferred (x : Exchange)
  deriving DecidableEq

inductive Ack where
  | puback (id : PacketId)
  | pubrec (id : PacketId) (error : Bool)
  | pubcomp (id : PacketId)
  deriving DecidableEq

def Ack.packetId : Ack → PacketId
  | .puback id | .pubrec id _ | .pubcomp id => id

/-- Where a reader task stands with an acknowledgement: before it looks into the store of
publishes, before it looks into the store of PUBRELs, at its handler's sections.  A handler
that found a PUBREL waiting knows the how manyth PUBLISH under the identifier it ends. -/
inductive ReaderPhase where
  | idle
  | received (ack : Ack)
  | looking (ack : Ack)
  | accepted (ack : Ack) (ends : Option Nat)
  | removingPublish (ack : Ack) (ends : Option Nat)
  | removingPubrel (ack : Ack) (ends : Option Nat)
  | writing (id : PacketId) (of : Option Exchange)
  | storing (id : PacketId) (of : Option Exchange)
  | failed
  deriving DecidableEq

/-- What the replay task does under the `outbound_transfer` lock. -/
inductive Transfer where
  | storing (k : Task)
  | abandoning (id : PacketId)
  deriving DecidableEq

structure State where
  held : Tables := fun _ _ => none
  /-- The QoS of the publishes in the store. -/
  qos : PacketId → QoS := fun _ => .atMostOnce
  callers : Task → CallerPhase := fun _ => .idle
  readers : Nat → ReaderPhase := fun _ => .idle
  transfer : Option Transfer := none
  /-- The publishes the replay task still has to send again. -/
  items : PacketId → Option (Exchange × QoS) := fun _ => none
  nextExchange : Nat := 0
  /-- How many PUBLISHes have been stored under an identifier. -/
  stored : PacketId → Nat := fun _ => 0
  /-- Those of them whose PUBCOMP has been handled. -/
  ended : Finset (PacketId × Nat) := ∅

namespace State

section

variable (s : State) (k : Task)

def put (place : Place) (id : PacketId) (x : Option Exchange) : State :=
  { s with held := s.held.put place id x }

def setPhase (phase : CallerPhase) : State :=
  { s with callers := update s.callers k phase }

def setReader (r : Nat) (phase : ReaderPhase) : State :=
  { s with readers := update s.readers r phase }

/-! ## Reservations -/

/-- `u16::MAX`. -/
def lastId : PacketId := 65535

/-- `allocate_packet_id` ends with an `IdReservation::claim` of what its search found. -/
def reserve (purpose : Purpose) (id : PacketId) : Option State :=
  match s.callers k with
  | .idle =>
    if (s.held .reserved id).isSome || (s.held .quarantined id).isSome then none
    else
      let x : Exchange := ⟨s.nextExchange, id, purpose⟩
      some { (s.put .reserved id (some x)).setPhase k (.holding x) with
        nextExchange := s.nextExchange + 1 }
  | _ => none

/-! ## Entering and leaving -/

/-- A PUBLISH enters the store. -/
def enterPublish (x : Exchange) (qos : QoS) : State :=
  { s.put .publish x.packetId (some x) with
    qos := update s.qos x.packetId qos
    stored := update s.stored x.packetId (s.stored x.packetId + 1) }

/-- A caller enters its exchange: a PUBLISH is stored (`transmit_publish`), a SUBSCRIBE or
UNSUBSCRIBE waits for its answer. -/
def enter (qos : QoS) : Option State :=
  match s.callers k with
  | .holding x =>
    match x.purpose with
    | .publish => some ((s.enterPublish x qos).setPhase k (.entered x))
    | .subscribe => some ((s.put .suback x.packetId (some x)).setPhase k (.entered x))
    | .unsubscribe => some ((s.put .unsuback x.packetId (some x)).setPhase k (.entered x))
  | _ => none

/-- A reservation is dropped: before or after the exchange was entered, or with a queued
message that is given up or sent with QoS 0. -/
def drop : Option State :=
  match s.callers k with
  | .holding x | .queued x | .entered x =>
    some ((s.put .reserved x.packetId none).setPhase k .idle)
  | _ => none

/-- `queue_publish_message`: the reservation goes into the offline queue. -/
def enqueue : Option State :=
  match s.callers k with
  | .holding x => if x.purpose = .publish then some (s.setPhase k (.queued x)) else none
  | _ => none

/-- `transfer_to_session`: a queued message is stored, with the QoS the connection takes. -/
def transferQueued (qos : QoS) : Option State :=
  match s.callers k, s.transfer with
  | .queued x, none =>
    some { (s.enterPublish x qos).setPhase k (.transferred x) with
      transfer := some (.storing k) }
  | _, _ => none

/-- The rest of a section under the `outbound_transfer` lock. -/
def finishTransfer : Option State :=
  match s.transfer with
  | some (.storing k) =>
    match s.callers k with
    | .transferred x =>
      some { (s.put .reserved x.packetId none).setPhase k .idle with transfer := none }
    | _ => none
  | some (.abandoning id) => some { s.put .publish id none with transfer := none }
  | none => none

/-- `abandon_replay`: what the connection no longer takes is not sent again. -/
def abandon (id : PacketId) : Option State :=
  match s.items id, s.transfer with
  | some (x, qos), none =>
    let s := if qos = .exactlyOnce then s.put .quarantined id (some x) else s
    some { s with
      items := update s.items id none
      transfer := some (.abandoning id) }
  | _, _ => none

/-- A SUBACK or UNSUBACK, or the end of the wait for it. -/
def answer (unsubscribe : Bool) (id : PacketId) : Option State :=
  some (s.put (if unsubscribe then .unsuback else .suback) id none)

/-! ## Acknowledgements -/

def receive (r : Nat) (ack : Ack) : Option State :=
  match s.readers r with
  | .idle => some (s.setReader r (.received ack))
  | _ => none

/-- The first look of `outbound_stage`, and what `check_acknowledgement_matches` says if the
PUBLISH is there. -/
def lookPublish (r : Nat) : Option State :=
  match s.readers r with
  | .received ack =>
    match s.held .publish ack.packetId with
    | none => some (s.setReader r (.looking ack))
    | some _ =>
      let awaitsPubrec := s.qos ack.packetId = .exactlyOnce
      let accepted : Bool := match ack with
        | .puback _ => !awaitsPubrec
        | .pubrec _ _ => awaitsPubrec
        | .pubcomp _ => false
      some (s.setReader r (if accepted then .accepted ack none else .failed))
  | _ => none

/-- The second look, and what the check says. -/
def lookPubrel (r : Nat) : Option State :=
  match s.readers r with
  | .looking ack =>
    match s.held .pubrel ack.packetId with
    | none => some (s.setReader r (.accepted ack none))
    | some _ =>
      let accepted : Bool := match ack with
        | .puback _ | .pubrec _ true => false
        | .pubrec _ false | .pubcomp _ => true
      some (s.setReader r
        (if accepted then .accepted ack (some (s.stored ack.packetId)) else .failed))
  | _ => none

/-- `complete_pubrec`. -/
def completePubrec (id : PacketId) : State :=
  match s.held .publish id with
  | some x => (s.put .publish id none).put .pubrel id (some x)
  | none => s

/-- The first section of the handler. -/
def settle (r : Nat) : Option State :=
  match s.readers r with
  | .accepted (.pubrec id false) _ =>
    let t := s.completePubrec id
    some (t.setReader r (.writing id (t.held .pubrel id)))
  | .accepted (.pubrec id true) ends =>
    some ((s.put .publish id none).setReader r (.removingPublish (.pubrec id true) ends))
  | .accepted ack ends => some (s.setReader r (.removingPublish ack ends))
  | _ => none

/-- `complete_outbound`, its first section. -/
def removePublish (r : Nat) : Option State :=
  match s.readers r with
  | .removingPublish ack ends =>
    some ((s.put .publish ack.packetId none).setReader r (.removingPubrel ack ends))
  | _ => none

/-- `complete_outbound`, its second section, with which a PUBCOMP has been handled. -/
def removePubrel (r : Nat) : Option State :=
  match s.readers r with
  | .removingPubrel ack ends =>
    let handled := match ack, ends with
      | .pubcomp id, some n => insert (id, n) s.ended
      | _, _ => s.ended
    some { (s.put .pubrel ack.packetId none).setReader r .idle with ended := handled }
  | _ => none

/-- The PUBREL is written, or the write fails. -/
def write (r : Nat) (ok : Bool) : Option State :=
  match s.readers r with
  | .writing id of => some (s.setReader r (if ok then .storing id of else .failed))
  | _ => none

/-- `store_pubrel`. -/
def store (r : Nat) : Option State :=
  match s.readers r with
  | .storing id of =>
    let s := match s.held .pubrel id with
      | some _ => s
      | none =>
        { s.put .pubrel id (some (of.getD ⟨s.nextExchange, id, .publish⟩)) with
          nextExchange := s.nextExchange + 1 }
    some (s.setReader r .idle)
  | _ => none

/-! ## Reconnecting -/

/-- The exchange of a message that goes back into the offline queue. -/
def requeued (id : PacketId) : Exchange := ⟨s.nextExchange + id.toNat, id, .publish⟩

/-- `requeue_lost_session` keeps a QoS 1 message whose identifier it can reserve. -/
def requeues (resume : Bool) (id : PacketId) : Bool :=
  resume && (s.held .publish id).isSome && s.qos id = .atLeastOnce && (s.held .reserved id).isNone

/-- `discard_session_state`. -/
def discard (resume : Bool) : State :=
  { s with
    held := fun place id => match place with
      | .publish | .pubrel | .quarantined => none
      | .reserved => if s.requeues resume id then some (s.requeued id) else s.held .reserved id
      | place => s.held place id
    callers := fun k => match k with
      | .lost id =>
        if s.requeues resume id then .queued (s.requeued id) else s.callers k
      | k => s.callers k
    nextExchange := s.nextExchange + lastId.toNat + 1
    items := fun _ => none }

/-- A CONNACK: the session is there, and is replayed, or it is lost. -/
def reconnect (present resume : Bool) : Option State :=
  if s.transfer = none then
    if present then
      some { s with items := fun id => (s.held .publish id).map fun x => (x, s.qos id) }
    else some (s.discard resume)
  else none

end

end State

/-! ## Steps -/

inductive Action where
  | reserve (k : Nat) (purpose : Purpose) (id : PacketId)
  | enter (k : Task) (qos : QoS)
  | drop (k : Task)
  | enqueue (k : Task)
  | transferQueued (k : Task) (qos : QoS)
  | finishTransfer
  | abandon (id : PacketId)
  | answer (unsubscribe : Bool) (id : PacketId)
  | receive (r : Nat) (ack : Ack)
  | lookPublish (r : Nat)
  | lookPubrel (r : Nat)
  | settle (r : Nat)
  | removePublish (r : Nat)
  | removePubrel (r : Nat)
  | write (r : Nat) (ok : Bool)
  | store (r : Nat)
  | reconnect (present resume : Bool)

def act (s : State) : Action → Option State
  | .reserve k purpose id => s.reserve (.request k) purpose id
  | .enter k qos => s.enter k qos
  | .drop k => s.drop k
  | .enqueue k => s.enqueue k
  | .transferQueued k qos => s.transferQueued k qos
  | .finishTransfer => s.finishTransfer
  | .abandon id => s.abandon id
  | .answer unsubscribe id => s.answer unsubscribe id
  | .receive r ack => s.receive r ack
  | .lookPublish r => s.lookPublish r
  | .lookPubrel r => s.lookPubrel r
  | .settle r => s.settle r
  | .removePublish r => s.removePublish r
  | .removePubrel r => s.removePubrel r
  | .write r ok => s.write r ok
  | .store r => s.store r
  | .reconnect present resume => s.reconnect present resume

end MqttLib.Client.Outbound
