/-
MqttLib.Broker.Ownership

Who owns a client's session (`client_handler/connect.rs`, `client_handler/mod.rs`,
`router.rs`): any number of connections with one client identifier claim the session
under its slot, register with the router, are displaced, and release it again.  They
share one queue.

A step is one section under the session slot, the router's client map or the queue's
lock.  `register_session_as` holds the client map throughout, so it is one step.
-/

import MqttLib.Storage.ClientQueue

namespace MqttLib.Broker

open Storage

namespace Ownership

/-! ## State -/

/-- What claims and releases read of the stored session. -/
structure StoredSession where
  connectionToken : Nat
  connected : Bool
  expiryInterval : Option UInt32
  userId : Option String

/-- How a handler leaves: another connection took over, its own connection ended, or the
handshake failed after the claim. -/
inductive Exit where
  | takenOver
  | closed
  | abandoned
  deriving DecidableEq

/-- Whether the releasing handler still owned the router entry. -/
inductive Release where
  | owned
  | displaced
  deriving DecidableEq

/-- Where a handler stands.  The slot is held from the claim to `registered`, and in
`persisting` and `unlocking`. -/
inductive Phase where
  | idle
  | registering
  | registered
  | connecting
  | serving
  | leaving (exit : Exit)
  | releasing (exit : Exit)
  | persisting (exit : Exit)
  | unlocking (exit : Exit) (release : Release)
  | released (exit : Exit) (release : Release)
  | gone
  deriving DecidableEq

def Phase.holdsSlot : Phase → Bool
  | .registering | .registered | .persisting _ | .unlocking _ _ => true
  | _ => false

/-- A connection, by its generation.  `notice` is the take-over notice in its disconnect
channel, with the `discard` flag. -/
structure Handler where
  phase : Phase := .idle
  resume : Bool := false
  expiryInterval : Option UInt32 := none
  epoch : Nat := 0
  notice : Option Bool := none
  deriving DecidableEq

def Handler.sessionPreserved (h : Handler) : Bool := h.expiryInterval != some 0

/-- `hasStorage` tells whether the broker has a storage backend. -/
structure State (μ : Type*) where
  hasStorage : Bool := true
  slot : Option Nat := none
  stored : Option StoredSession := none
  registered : Option Nat := none
  queue : ClientQueue μ := {}
  handlers : Nat → Handler := fun _ => {}
  nextGeneration : Nat := 1

variable {μ : Type*}

def State.setHandler (s : State μ) (g : Nat) (h : Handler) : State μ :=
  { s with handlers := Function.update s.handlers g h }

/-! ## Steps -/

inductive Action (μ : Type*) where
  /-- `handle_session` up to the stored claim: takes the slot. -/
  | claim (cleanStart : Bool) (userId : Option String) (granted : UInt32)
  /-- `register_unbound_session`. -/
  | register (g : Nat)
  /-- The end of `handle_session`: the slot is dropped. -/
  | unlock (g : Nat)
  /-- The CONNACK has been sent, or the handshake fails. -/
  | connected (g : Nat)
  | handshakeFailed (g : Nat)
  /-- A DISCONNECT packet changes the session expiry. -/
  | setExpiry (g : Nat) (granted : UInt32)
  /-- A batch of the queue is taken for delivery. -/
  | take (g : Nat) (now : SystemTime) (limit : Nat)
  /-- The loop is left: the connection has ended, or the take-over notice has arrived. -/
  | close (g : Nat)
  | takenOver (g : Nat)
  /-- What the handler still held goes back to the queue, or is dropped. -/
  | handBack (g : Nat) (messages : List μ)
  /-- `release_ownership`: takes the slot and gives up the router entry. -/
  | release (g : Nat)
  /-- `persist_session_end`, where the storage write may fail. -/
  | persist (g : Nat) (written : Bool)
  | dropSlot (g : Nat)
  /-- What `run` and `abandon_claim` do after the slot has been dropped. -/
  | finish (g : Nat)
  /-- A router queues a message it has planned in an epoch. -/
  | push (message : μ) (epoch : Nat)
  /-- The expiry sweep, under the slot; the stored session may have expired. -/
  | sweep (expired : Bool)

/-- The connection a step belongs to; routers and the sweep have none. -/
def Action.generation : Action μ → Option Nat
  | .register g | .unlock g | .connected g | .handshakeFailed g | .setExpiry g _ | .take g _ _
  | .close g | .takenOver g | .handBack g _ | .release g | .persist g _ | .dropSlot g
  | .finish g => some g
  | .claim .. | .push .. | .sweep _ => none

namespace State

/-- The session a claim may resume. -/
def resumable (s : State μ) (cleanStart : Bool) : Option StoredSession :=
  s.stored.filter fun session => !cleanStart && session.expiryInterval != some 0

/-- A claim takes the slot and stores the session under a new generation; one of another
user is refused. -/
def claim (s : State μ) (cleanStart : Bool) (userId : Option String) (granted : UInt32) :
    Option (State μ) :=
  if s.slot.isSome then none
  else if (s.resumable cleanStart).any fun session => session.userId != userId then none
  else
    let g := s.nextGeneration
    some (setHandler
      { s with
        slot := some g
        stored :=
          if s.hasStorage then
            some
              { connectionToken := g
                connected := true
                expiryInterval := some granted
                userId }
          else none
        nextGeneration := g + 1 }
      g
      { phase := .registering
        resume := (s.resumable cleanStart).isSome
        expiryInterval := some granted })

/-- The connection in the router entry, if there is one, gets a take-over notice. -/
def displace (s : State μ) (discard : Bool) : State μ :=
  match s.registered with
  | none => s
  | some old =>
    { s.setHandler old { s.handlers old with notice := some discard } with
      queue := s.queue.beginHandoff }

/-- The router entry passes to the new connection, and a fresh session starts with an empty
queue. -/
def register (s : State μ) (g : Nat) : Option (State μ) :=
  let h := s.handlers g
  if h.phase ≠ .registering then none
  else
    let displaced := s.displace (!h.resume)
    let queue := displaced.queue.expectBind g
    let queue := if h.resume then queue else (queue.clear none).1
    some (setHandler { displaced with registered := some g, queue } g
      { h with phase := .registered, epoch := queue.epoch })

/-- `hand_off`, and the same in `run` for a connection that has ended: the unsent messages
of a session that goes on are re-queued. -/
def handBack [Queueable μ] (s : State μ) (g : Nat) (messages : List μ) : Option (State μ) :=
  let h := s.handlers g
  match h.phase with
  | .leaving .takenOver =>
    let discard := h.notice.getD false
    let queue :=
      if discard then s.queue else (s.queue.requeueFrontInEpoch messages h.epoch).1
    some (setHandler { s with queue := queue.finishDrain.endHandoff } g
      { h with phase := .releasing .takenOver, notice := none })
  | .leaving .closed =>
    let queue :=
      if h.sessionPreserved then (s.queue.requeueFrontInEpoch messages h.epoch).1 else s.queue
    some (setHandler { s with queue } g { h with phase := .releasing .closed })
  | _ => none

/-- `release_client` under the slot. -/
def release (s : State μ) (g : Nat) : Option (State μ) :=
  let h := s.handlers g
  match h.phase with
  | .releasing exit =>
    if s.slot.isSome then none
    else if s.registered = some g then
      some (setHandler { s with slot := some g, registered := none } g
        { h with phase := .persisting exit })
    else
      some (setHandler { s with slot := some g } g
        { h with phase := .unlocking exit .displaced })
  | _ => none

/-- `persist_session_end`: a session that ends with its connection is removed with its
queue, if it is still this connection's. -/
def persist (s : State μ) (g : Nat) (written : Bool) : Option (State μ) :=
  let h := s.handlers g
  match h.phase with
  | .persisting exit =>
    let own := s.stored.any fun session => session.connectionToken == g
    let ended :=
      if !written || !own then s
      else if h.expiryInterval == some 0 then
        { s with stored := none, queue := (s.queue.clear none).1 }
      else
        { s with
          stored := s.stored.map fun session =>
            { session with connected := false, expiryInterval := h.expiryInterval } }
    some (ended.setHandler g { h with phase := .unlocking exit .owned })
  | _ => none

/-- After the slot has been dropped, `run` ends the drain and clears the queue of a session
that is not preserved; `abandon_claim` clears it too.  A displaced connection completes
the hand-off it has not answered yet. -/
def finish (s : State μ) (g : Nat) : Option (State μ) :=
  let h := s.handlers g
  let done (queue : ClientQueue μ) : State μ :=
    setHandler { s with queue } g { h with phase := .gone, notice := none }
  let unanswered (queue : ClientQueue μ) : ClientQueue μ :=
    if h.notice.isSome then queue.endHandoff else queue
  match h.phase with
  | .released .takenOver _ => some (done s.queue)
  | .released .closed .owned =>
    some (done (if h.sessionPreserved then s.queue.finishDrain
      else (s.queue.finishDrain.clear none).1))
  | .released .closed .displaced => some (done (unanswered s.queue.finishDrain))
  | .released .abandoned .owned =>
    some (done (unanswered (if h.sessionPreserved then s.queue else (s.queue.clear none).1)))
  | .released .abandoned .displaced => some (done (unanswered s.queue))
  | _ => none

/-- `sweep_session`: without a connection, an expired session is removed, a session that is
still marked connected is ended, and what is left of no session is cleared. -/
def sweep (s : State μ) (expired : Bool) : Option (State μ) :=
  if s.slot.isSome || s.registered.isSome then none
  else
    match (if expired then none else s.stored) with
    | some session => some { s with stored := some { session with connected := false } }
    | none => some { s with stored := none, queue := (s.queue.clear none).1 }

/-- A handler moves from one phase to another and nothing else changes. -/
def move (s : State μ) (g : Nat) (source target : Phase) : Option (State μ) :=
  let h := s.handlers g
  if h.phase = source then some (s.setHandler g { h with phase := target }) else none

end State

/-- One step of the system; `none` where it is not enabled. -/
def act [Queueable μ] (s : State μ) : Action μ → Option (State μ)
  | .claim cleanStart userId granted => s.claim cleanStart userId granted
  | .register g => s.register g
  | .unlock g => (s.move g .registered .connecting).map fun s => { s with slot := none }
  | .connected g => s.move g .connecting .serving
  | .handshakeFailed g => s.move g .connecting (.releasing .abandoned)
  | .setExpiry g granted =>
    if (s.handlers g).phase = .serving then
      some (s.setHandler g { s.handlers g with expiryInterval := some granted })
    else none
  | .take g now limit =>
    if (s.handlers g).phase = .serving then
      let (taken, queue, _) := s.queue.takeEntries now limit
      some { s with queue := queue.markDraining taken }
    else none
  | .close g => s.move g .serving (.leaving .closed)
  | .takenOver g =>
    if (s.handlers g).notice.isSome then s.move g .serving (.leaving .takenOver) else none
  | .handBack g messages => s.handBack g messages
  | .release g => s.release g
  | .persist g written => s.persist g written
  | .dropSlot g =>
    match (s.handlers g).phase with
    | .unlocking exit release =>
      (s.move g (.unlocking exit release) (.released exit release)).map fun s =>
        { s with slot := none }
    | _ => none
  | .finish g => s.finish g
  | .push message epoch =>
    (s.queue.pushInEpoch message epoch).map fun pushed => { s with queue := pushed.1 }
  | .sweep expired => s.sweep expired

end Ownership

end MqttLib.Broker
