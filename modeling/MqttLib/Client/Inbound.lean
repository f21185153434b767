/-
MqttLib.Client.Inbound

Inbound QoS 2 messages in the client (`client/direct/handlers.rs`, `client/direct/ack.rs` and
the inbound state of `session/state.rs`).  A message whose topic has an acknowledged-delivery
callback is handed over with a token, and its PUBREC waits for the token; any other message
is handed over when its PUBREC is on its way.  Each path remembers the packet ids it has
taken in a set of its own.

Copies are handled by any number of tasks (a QUIC connection reads each stream in its own),
next to the application, which resolves tokens and changes its callbacks, and the task that
writes the acknowledgements in order.  A step is what a task does up to its next await; an
aborted handler is one whose connection is gone.
-/

import MqttLib.Foundation.LastWrite
import MqttLib.Foundation.Reachable
import MqttLib.Protocol.TopicMatching

namespace MqttLib.Client.Inbound

open Foundation Protocol TopicMatching Function

/-! ## Callbacks with acknowledged delivery -/

/-- `AckCallbackManager`, with the callbacks named by the filter they were registered for. -/
structure AckCallbacks where
  exact : Table String String := ∅
  wildcard : List String := []

namespace AckCallbacks

def register (c : AckCallbacks) (topicFilter : String) : AckCallbacks :=
  let actual := (parseSharedSubscription topicFilter).1
  if hasWildcards actual then
    { c with wildcard := c.wildcard.filter (· != topicFilter) ++ [topicFilter] }
  else { c with exact := c.exact.insert actual topicFilter }

def unregister (c : AckCallbacks) (topicFilter : String) : AckCallbacks where
  exact := c.exact.erase (parseSharedSubscription topicFilter).1
  wildcard := c.wildcard.filter (· != topicFilter)

/-- An exact match wins, otherwise the first matching wildcard. -/
def findOne (c : AckCallbacks) (topic : String) : Option String :=
  (c.exact.lookup topic).or <| c.wildcard.find? fun topicFilter =>
    topicMatches topic (parseSharedSubscription topicFilter).1

end AckCallbacks

/-! ## Acknowledgements in order -/

def isValidPublishAckReasonCode : ReasonCode → Bool
  | .success | .noMatchingSubscribers | .unspecifiedError | .implementationSpecificError
  | .notAuthorized | .topicNameInvalid | .packetIdentifierInUse | .quotaExceeded
  | .payloadFormatInvalid => true
  | _ => false

/-- A reason code that refuses. -/
abbrev ErrorCode := { code : ReasonCode // code.isError = true }

/-- The code `AckToken::reject` sends for the one it is given. -/
def rejectReason (reason : ReasonCode) : ErrorCode :=
  if h : reason.isError = true ∧ isValidPublishAckReasonCode reason = true then ⟨reason, h.1⟩
  else ⟨.unspecifiedError, by decide⟩

inductive AckKind where
  | ack
  | reject (reason : ErrorCode)
  | dropAuto
  | automatic
  deriving DecidableEq

namespace AckKind

def reason : AckKind → ReasonCode
  | .ack => .success
  | .reject reason => reason
  | .dropAuto => .unspecifiedError
  | .automatic => .success

theorem reason_reject (code : ErrorCode) : (reject code).reason ≠ .success := by
  intro h
  have herror := code.2
  rw [show code.1 = .success from h] at herror
  exact absurd herror (by decide)

end AckKind

structure AckRequest where
  seq : Nat
  packetId : UInt16
  kind : AckKind
  deriving DecidableEq

/-- `AckOrder` within one session. -/
structure AckOrder where
  head : Nat := 0
  slots : List (Option AckRequest) := []
  deriving DecidableEq

namespace AckOrder

def reserve (o : AckOrder) : Nat × AckOrder :=
  (o.head + o.slots.length, { o with slots := o.slots ++ [none] })

def release (o : AckOrder) (request : AckRequest) : List AckRequest × AckOrder :=
  if request.seq < o.head then ([], o)
  else if request.seq - o.head < o.slots.length then
    let slots := o.slots.set (request.seq - o.head) (some request)
    let filled := slots.takeWhile Option.isSome
    (filled.filterMap id, ⟨o.head + filled.length, slots.dropWhile Option.isSome⟩)
  else ([request], o)

end AckOrder

structure AckToken where
  seq : Nat
  packetId : UInt16
  deriving DecidableEq

inductive AckResolution where
  | unresolved
  | acked
  deriving DecidableEq

/-! ## The client -/

/-- Where the handling of a copy is. -/
inductive Stage where
  /-- Without an acknowledged-delivery callback; `flow` on a QUIC data flow. -/
  | plain (flow : Bool)
  /-- `mark_pubrec_pending` has answered; the PUBREC is next. -/
  | owed (flow first : Bool)
  /-- The PUBREC of a first receipt could not be written. -/
  | unwritten
  /-- A first receipt, before `CallbackManager::dispatch`. -/
  | dispatching
  /-- With an acknowledged-delivery callback. -/
  | deferred
  /-- `mark_delivered` has found an earlier copy. -/
  | duplicate
  /-- A first receipt, before its resolution is set. -/
  | delivered
  /-- A first receipt, before its token is minted and handed over. -/
  | minting
  deriving DecidableEq

structure Handler where
  packetId : UInt16
  stage : Stage
  deriving DecidableEq

/-- What has happened to the message a packet id stands for since its exchange began. -/
structure Exchange where
  /-- How often it was handed to the application. -/
  handed : Nat := 0
  /-- For a message delivered with a token, whether the token is acknowledged. -/
  token : Option Bool := none
  /-- The server has a success PUBREC for it. -/
  answered : Bool := false
  deriving DecidableEq

structure State where
  pubrecs : Finset UInt16 := ∅
  delivered : Finset UInt16 := ∅
  resolution : Table UInt16 AckResolution := ∅
  callbacks : AckCallbacks := {}
  handlers : List Handler := []
  order : AckOrder := {}
  /-- Requests sent to the task that writes the acknowledgements. -/
  channel : List AckRequest := []
  /-- Requests that task has released from the order, and not handled. -/
  ready : List AckRequest := []
  /-- A PUBREC that task has recorded in the session, and not written. -/
  writing : Option (UInt16 × ReasonCode) := none
  tokens : List AckToken := []
  exchange : UInt16 → Exchange := fun _ => {}
  /-- Packet ids for which a success PUBREC was sent before the token was acknowledged. -/
  premature : List UInt16 := []

namespace State

def getResolution (s : State) (packetId : UInt16) : AckResolution :=
  (s.resolution.lookup packetId).getD .unresolved

def clearInboundState (s : State) (packetId : UInt16) : State :=
  { s with
    pubrecs := s.pubrecs.erase packetId
    delivered := s.delivered.erase packetId
    resolution := s.resolution.erase packetId }

/-- `AckDispatcher::enqueue`. -/
def enqueue (s : State) (packetId : UInt16) (kind : AckKind) : State :=
  { s with
    order := s.order.reserve.2
    channel := s.channel ++ [⟨s.order.reserve.1, packetId, kind⟩] }

/-- A PUBREC is written; `reached` if the server gets it. -/
def sendPubrec (s : State) (packetId : UInt16) (reason : ReasonCode) (reached : Bool) : State :=
  if reason = .success then
    let exchange := s.exchange packetId
    { s with
      exchange := update s.exchange packetId
        { exchange with answered := exchange.answered || reached }
      premature := if exchange.token = some false then packetId :: s.premature else s.premature }
  else s

/-- The message is handed to the application. -/
def hand (s : State) (packetId : UInt16) : State :=
  let exchange := s.exchange packetId
  { s with
    exchange := update s.exchange packetId
      { exchange with handed := exchange.handed + 1 } }

def setToken (s : State) (packetId : UInt16) (acknowledged : Bool) : State :=
  { s with
    exchange := update s.exchange packetId
      { s.exchange packetId with token := some acknowledged } }

/-- The exchange of a packet id ends. -/
def finish (s : State) (packetId : UInt16) : State :=
  { s with exchange := update s.exchange packetId {} }

def leave (s : State) (h : Handler) : State := { s with handlers := s.handlers.erase h }

def enter (s : State) (packetId : UInt16) (stage : Stage) : State :=
  { s with handlers := ⟨packetId, stage⟩ :: s.handlers }

end State

/-- How a direct write of a PUBREC ends; one over the server's maximum packet size is left
out without an error. -/
inductive Outcome where
  | written (reached : Bool)
  | omitted
  | failed
  deriving DecidableEq

inductive Action where
  | register (topicFilter : String)
  | unregister (topicFilter : String)
  | publish (packetId : UInt16) (topic : String) (flow : Bool)
  | advance (h : Handler) (outcome : Outcome)
  | abort (h : Handler)
  | ack (token : AckToken)
  | reject (token : AckToken) (reason : ReasonCode)
  | drop (token : AckToken)
  | receive
  | record
  | write (written : Bool) (reached : Bool)
  | pubrel (packetId : UInt16)

/-- `ack_qos2_inbound` once the packet id is marked; `s` has the handler no more. -/
def acknowledge (deferredAck : Bool) (s : State) (packetId : UInt16) (flow first : Bool)
    (outcome : Outcome) : State :=
  let next (s : State) : State := if first then s.enter packetId .dispatching else s
  if deferredAck && !flow then next (s.enqueue packetId .automatic)
  else match outcome with
    | .written reached => next (s.sendPubrec packetId .success reached)
    | .omitted => next s
    | .failed => if first then s.enter packetId .unwritten else s

/-- `handle_publish_with_ack` and `deliver_deferred` from one await to the next; `s` has the
handler no more. -/
def advance (deferredAck : Bool) (s : State) (h : Handler) (outcome : Outcome) : State :=
  let id := h.packetId
  match h.stage with
  | .plain flow =>
    { s with pubrecs := insert id s.pubrecs }.enter id (.owed flow (id ∉ s.pubrecs))
  | .owed flow first => acknowledge deferredAck s id flow first outcome
  | .unwritten => { s with pubrecs := s.pubrecs.erase id }
  | .dispatching => s.hand id
  | .deferred =>
    if id ∈ s.delivered then s.enter id .duplicate
    else ({ s with delivered := insert id s.delivered }.setToken id false).enter id .delivered
  | .duplicate => if s.getResolution id = .acked then s.enqueue id .ack else s
  | .delivered =>
    { s with resolution := s.resolution.insert id .unresolved }.enter id .minting
  | .minting =>
    { s with
      order := s.order.reserve.2
      tokens := ⟨s.order.reserve.1, id⟩ :: s.tokens }.hand id

/-- `AckToken::emit`. -/
def emit (s : State) (t : AckToken) (kind : AckKind) : State :=
  { s with
    tokens := s.tokens.erase t
    channel := s.channel ++ [⟨t.seq, t.packetId, kind⟩] }

/-- What `AckDispatcher::handle` does in the session before it writes. -/
def record (s : State) (request : AckRequest) : State :=
  match request.kind with
  | .automatic => s
  | kind =>
    if kind.reason = .success then
      { s with
        pubrecs := insert request.packetId s.pubrecs
        resolution := s.resolution.insert request.packetId .acked }
    else (s.clearInboundState request.packetId).finish request.packetId

/-- A server sends PUBREL for an exchange it has a success PUBREC for, and again for one that
has ended. -/
def Exchange.releasable (e : Exchange) : Bool := e.answered || (e.handed == 0 && e.token.isNone)

def act (deferredAck : Bool) (s : State) : Action → Option State
  | .register topicFilter => some { s with callbacks := s.callbacks.register topicFilter }
  | .unregister topicFilter => some { s with callbacks := s.callbacks.unregister topicFilter }
  | .publish packetId topic flow =>
    if deferredAck && (s.callbacks.findOne topic).isSome then some (s.enter packetId .deferred)
    else some (s.enter packetId (.plain flow))
  | .advance h outcome =>
    if h ∈ s.handlers then some (advance deferredAck (s.leave h) h outcome) else none
  | .abort h => if h ∈ s.handlers then some (s.leave h) else none
  | .ack t =>
    if t ∈ s.tokens then some ((emit s t .ack).setToken t.packetId true) else none
  | .reject t reason =>
    if t ∈ s.tokens then some (emit s t (.reject (rejectReason reason))) else none
  | .drop t => if t ∈ s.tokens then some (emit s t .dropAuto) else none
  | .receive =>
    match s.channel, s.ready, s.writing with
    | request :: channel, [], none =>
      let (ready, order) := s.order.release request
      some { s with channel, ready, order }
    | _, _, _ => none
  | .record =>
    match s.ready, s.writing with
    | request :: ready, none =>
      some { record { s with ready } request with
        writing := some (request.packetId, request.kind.reason) }
    | _, _ => none
  | .write written reached =>
    match s.writing with
    | some (packetId, reason) =>
      let s := { s with writing := none }
      some (if written then s.sendPubrec packetId reason reached else s)
    | none => none
  | .pubrel packetId =>
    if (s.exchange packetId).releasable then
      some ((s.clearInboundState packetId).finish packetId)
    else none

end MqttLib.Client.Inbound
