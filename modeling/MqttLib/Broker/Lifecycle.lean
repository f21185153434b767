/-
MqttLib.Broker.Lifecycle

The connections of a broker from the accepted CONNECT packet to the end of their cleanup,
and the sweep of sessions (`client_handler/connect.rs`, `client_handler/mod.rs`,
`client_handler/lifecycle.rs` and `router.rs`), for any client identifiers.

A step is what a task does up to its next await.  The session slot of a client is held from
the start of a claim to the installed subscriptions, in `release_ownership` and in
`sweep_session`; every write to the storage may fail.
-/

import MqttLib.Broker.Claim
import MqttLib.Foundation.Reachable

namespace MqttLib.Broker

open Foundation Protocol Storage Function Bool Option Finmap

/-! ## The end of a connection -/

/-- The properties of a Will for the message it becomes. -/
def applyToPublishProperties (will : WillProperties) (properties : Properties) : Properties :=
  will.userProperties.foldl (fun properties (key, value) => properties.addUserProperty key value)
    (properties
      |> setIfSome Properties.setPayloadFormatIndicator will.payloadFormatIndicator
      |> setIfSome Properties.setMessageExpiryInterval will.messageExpiryInterval
      |> setIfSome Properties.setContentType will.contentType
      |> setIfSome Properties.setResponseTopic will.responseTopic
      |> setIfSome Properties.setCorrelationData will.correlationData)

/-- The message of a Will. -/
def willPublish (will : WillMessage) (clientId : String) (userId : Option String) :
    PublishPacket where
  topicName := will.topic
  payload := will.payload
  qos := will.qos
  retain := will.retain
  properties := ((applyToPublishProperties will.properties ∅).injectSender userId).injectClientId
    (some clientId)

namespace BrokerState

/-- An update of the stored session, if it is the connection's and the write succeeds. -/
def updateStored (b : BrokerState) (clientId : String) (generation : Nat) (written : Bool)
    (update : ClientSession → ClientSession) : BrokerState :=
  if written then
    { b with sessions := b.sessions.map fun sessions =>
        (sessions.updateSession clientId (.ofNat generation) update).1 }
  else b

def discardWill (session : ClientSession) : ClientSession :=
  { session with willMessage := none, willDelayInterval := none }

def clearStoredWill (b : BrokerState) (clientId : String) (generation : Nat) (written : Bool) :
    BrokerState :=
  b.updateStored clientId generation written discardWill

/-- Whether a connection is the one in the router's entry. -/
def isCurrentOwner (b : BrokerState) (clientId : String) (generation : Nat) : Bool :=
  (b.clients.lookup clientId).any fun info => info.generation == generation

/-- `arm_will`. -/
def armWill (b : BrokerState) (clientId : String) (generation : Nat) : BrokerState × Bool :=
  if b.isCurrentOwner clientId generation then
    ({ b with pendingWills := b.pendingWills.insert clientId generation }, true)
  else (b, false)

/-- `claim_will`. -/
def claimWill (b : BrokerState) (clientId : String) (generation : Nat) (written : Bool) :
    BrokerState × Bool :=
  if b.pendingWills.lookup clientId = some generation then
    ({ b with pendingWills := b.pendingWills.erase clientId }.clearStoredWill clientId generation
      written, true)
  else (b, false)

/-- The flows of a session's subscriptions that are not held any more. -/
def unheldFlows (b : BrokerState) (clientId : String) (session : ClientSession) : Finset UInt64 :=
  ((session.subscriptions.values.filterMap fun sub => sub.flowId).toFinset).filter fun flowId =>
    !((b.flows.lookup clientId).any fun flows => flows.holds flowId)

/-- `remove_flow_subscriptions` for some flows: the router's subscriptions go if the connection
is the owner, and then those of the stored session, where the write succeeds. -/
def removeFlowSubscriptions (b : BrokerState) (clientId : String) (generation : Nat)
    (flows : Finset UInt64) (written : UInt64 → Bool) : BrokerState :=
  let bound (sub : Subscription) := sub.clientId == clientId && sub.flowId.any (· ∈ flows)
  if b.isCurrentOwner clientId generation then
    let removed (flowId : UInt64) : Bool :=
      flowId ∈ flows && (b.subscriptions.unsubscribeByFlow clientId flowId).2 ≠ ∅
    { b with subscriptions := b.subscriptions.retain fun _ sub => !bound sub }.updateStored clientId
      generation true fun session =>
        session.retainSubscriptions fun _ sub =>
          !(sub.flowId.any fun flowId => removed flowId && written flowId)
  else b

/-- `release_session_flows`: the flows are given up, or kept with the session. -/
def releaseSessionFlows (b : BrokerState) (clientId : String) (generation : Nat)
    (session : ClientSession) (written : UInt64 → Bool) (now : SystemTime) :
    BrokerState × ClientSession :=
  let released := ((b.flows.lookup clientId).getD {}).release generation
    (session.expiryInterval != some 0) now
  if !released.2 then (b, session)
  else
    let b := { b with flows := withSessionFlows b.flows clientId fun _ => released.1 }
    let unheld := b.unheldFlows clientId session
    let b := b.removeFlowSubscriptions clientId generation unheld written
    ({ b with flows :=
        if released.1.hasDeadline then withSessionFlows b.flows clientId (·.armExpiry)
        else b.flows },
      session.retainSubscriptions fun _ sub => !sub.flowId.any (· ∈ unheld))

/-- `release_client`. -/
def releaseClient (b : BrokerState) (clientId : String) (generation : Nat) (preserve : Bool) :
    BrokerState × Bool :=
  if b.isCurrentOwner clientId generation then
    ({ b with
       clients := b.clients.erase clientId
       subscriptions := if preserve then b.subscriptions
         else b.subscriptions.removeClientSubscriptions clientId }, true)
  else (b, false)

/-- `persist_session_end`, where the write succeeds. -/
def persistSessionEnd (b : BrokerState) (clientId : String) (generation : Nat)
    (session : ClientSession) (normalDisconnect : Bool) (now : SystemTime) : BrokerState :=
  if session.expiryInterval = some 0 then
    match b.sessions with
    | none => b
    | some sessions =>
      let (sessions, removed) := sessions.removeOwnedSession clientId (.ofNat generation)
      { b with
        sessions := some sessions
        queues := if removed then b.queues.erase clientId else b.queues }
  else
    b.updateStored clientId generation true fun stored =>
      let stored := { stored.markDisconnected (.ofNat (now / 1000000)) now with
        expiryInterval := session.expiryInterval }
      if normalDisconnect then discardWill stored else stored

/-- `end_stranded_session`: the session of a connection that is gone, marked disconnected. -/
def endStrandedSession (b : BrokerState) (clientId : String) (token : UInt64) (now : SystemTime) :
    BrokerState :=
  { b with sessions := b.sessions.map fun sessions =>
      (sessions.updateSession clientId token fun stored =>
        stored.markDisconnected (.ofNat (now / 1000000)) now).1 }

/-- The queue of a session that ends is cleared. -/
def finishQueue (b : BrokerState) (clientId : String) (discard : Bool) : BrokerState :=
  if discard then { b with queues := b.queues.erase clientId } else b

/-- The stored session of a client. -/
def stored (b : BrokerState) (clientId : String) : Option ClientSession :=
  b.sessions.bind fun sessions => sessions.lookup clientId

end BrokerState

/-! ## Connections and sweeps -/

namespace Lifecycle

inductive Exit where
  | takenOver
  | closed
  | abandoned
  deriving DecidableEq

/-- What has become of a Will. -/
inductive WillOutcome where
  /-- The connection has never been accepted. -/
  | unaccepted
  | nothing
  | published
  | denied
  | dropped
  deriving DecidableEq

/-- What a connection does next.  From `leaving` on it has an `Exit`, then whether its Will is
armed, then whether it was still the owner. -/
inductive Phase where
  /-- Takes the slot to claim its session. -/
  | accepted
  /-- Reads the stored session. -/
  | locked
  /-- Writes its claim. -/
  | claimed (claim : Claim)
  /-- Registers with the router. -/
  | stored (claim : Claim)
  /-- Installs the subscriptions and drops the slot. -/
  | registered (claim : Claim)
  /-- Sends its CONNACK. -/
  | connecting
  | serving
  /-- Takes the slot to release its session. -/
  | leaving (exit : Exit)
  | releasing (exit : Exit)
  /-- Gives up its flows, its router entry, and ends the stored session. -/
  | armed (exit : Exit) (armed : Bool)
  | unflowed (exit : Exit) (armed : Bool)
  | persisting (exit : Exit) (armed : Bool)
  | unlocking (exit : Exit) (armed owned : Bool)
  /-- Cleans up, without the slot. -/
  | cleaning (exit : Exit) (armed owned : Bool)
  /-- The timer of a delayed Will. -/
  | waiting (deadline : SystemTime)
  /-- A delayed Will that has been claimed. -/
  | publishing
  | ended (outcome : WillOutcome)
  /-- The end of a connection that has not been registered. -/
  | refused

def Phase.holdsSlot : Phase → Bool
  | .locked | .claimed _ | .stored _ | .registered _ | .releasing _ | .armed .. | .unflowed ..
  | .persisting .. | .unlocking .. => true
  | _ => false

structure Connection where
  claimant : Claimant
  phase : Phase := .accepted
  generation : Nat := 0
  resume : Bool := false
  session : Option ClientSession := none
  normalDisconnect : Bool := false
  /-- The DISCONNECT packet that was handled: its reason code and Session Expiry Interval. -/
  disconnect : Option (ReasonCode × Option UInt32) := none

namespace Connection

def clientId (c : Connection) : String := c.claimant.clientId

def sessionPreserved (c : Connection) : Bool :=
  c.session.any fun session => session.expiryInterval != some 0

def will (c : Connection) : Option WillMessage := c.session.bind fun session => session.willMessage

/-- The delay of the Will, if there is one. -/
def willDelay (c : Connection) : Option UInt32 := c.session.bind ClientSession.willPublishDelay

end Connection

/-- What a sweep of a client does next. -/
inductive Stage where
  | started
  | locked
  /-- There is no connection: an expired session is removed. -/
  | unowned
  /-- The session is read. -/
  | swept
  /-- A session that is still marked connected is ended. -/
  | stranded (token : UInt64)
  /-- There is no session: what is left of it goes. -/
  | clearing
  | unlocking
  | finished

def Stage.holdsSlot : Stage → Bool
  | .started | .finished => false
  | _ => true

inductive Task where
  | connection (c : Connection)
  | sweep (clientId : String) (stage : Stage)

namespace Task

def clientId : Task → String
  | .connection c => c.clientId
  | .sweep clientId _ => clientId

def holdsSlot : Task → Bool
  | .connection c => c.phase.holdsSlot
  | .sweep _ stage => stage.holdsSlot

end Task

structure State where
  broker : BrokerState
  slots : Table String Nat := ∅
  tasks : Nat → Option Task := fun _ => none
  /-- The connections a take-over notice has been sent to. -/
  notices : Nat → Bool := fun _ => false
  clock : SystemTime := 0
  /-- The connections whose Wills have been published, in order. -/
  published : List (Nat × PublishPacket) := []

namespace State

def setTask (s : State) (i : Nat) (t : Task) : State :=
  { s with tasks := update s.tasks i (some t) }

def unlock (s : State) (clientId : String) : State := { s with slots := s.slots.erase clientId }

end State

/-! ## Steps -/

inductive Action where
  | connect (i : Nat) (claimant : Claimant)
  | sweep (i : Nat) (clientId : String)
  | advance (now : SystemTime)
  /-- A step of a connection. -/
  | lock (i : Nat)
  | read (i : Nat)
  | write (i : Nat) (written : Bool)
  | register (i : Nat)
  | install (i : Nat)
  | connack (i : Nat) (sent : Bool)
  /-- A DISCONNECT packet, with its Session Expiry Interval. -/
  | disconnect (i : Nat) (reasonCode : ReasonCode) (expiry : Option UInt32) (written : Bool)
  | close (i : Nat)
  | takenOver (i : Nat)
  | arm (i : Nat)
  | releaseFlows (i : Nat) (written : UInt64 → Bool)
  | release (i : Nat)
  | persist (i : Nat) (written : Bool)
  | unlock (i : Nat)
  | cleanup (i : Nat) (authorized written : Bool)
  /-- The timer of a Will fires. -/
  | fire (i : Nat) (written : Bool)
  | publish (i : Nat) (authorized : Bool)
  /-- A step of a sweep. -/
  | check (i : Nat)
  | removeExpired (i : Nat) (written : Bool)
  | readSwept (i : Nat)
  | endStranded (i : Nat) (written : Bool)
  | clear (i : Nat)

/-- A step that belongs to a sweep. -/
def Action.isSweep : Action → Bool
  | .check _ | .removeExpired .. | .readSwept _ | .endStranded .. | .clear _ => true
  | _ => false

variable (settings : BrokerSettings)
  (order : Table String StoredSubscription → List (String × StoredSubscription))

/-- The slot is taken by one task at a time. -/
def lock (s : State) (i : Nat) : Option State :=
  match s.tasks i with
  | none => none
  | some t =>
    if (s.slots.lookup t.clientId).isSome then none
    else
      let locked := { s with slots := s.slots.insert t.clientId i }
      match t with
      | .connection c =>
        match c.phase with
        | .accepted => some (locked.setTask i (.connection { c with phase := .locked }))
        | .leaving exit => some (locked.setTask i (.connection { c with phase := .releasing exit }))
        | _ => none
      | .sweep clientId .started => some (locked.setTask i (.sweep clientId .locked))
      | .sweep .. => none

/-- The take-over notice for the connection a registration displaces. -/
def State.notify (s : State) (clientId : String) : State :=
  match s.broker.clients.lookup clientId with
  | none => s
  | some info => { s with notices := update s.notices info.connection true }

/-- A connection after a DISCONNECT packet: a normal one discards the Will. -/
def Connection.disconnected (c : Connection) (reasonCode : ReasonCode) : Connection :=
  if reasonCode = .disconnectWithWillMessage then { c with phase := .leaving .closed }
  else { c with
    phase := .leaving .closed
    normalDisconnect := true
    session := c.session.map BrokerState.discardWill }

/-- `handle_disconnect`: the session expiry may change, except from 0. -/
def handleDisconnect (s : State) (c : Connection) (reasonCode : ReasonCode)
    (expiry : Option UInt32) (written : Bool) : Option (BrokerState × Connection) :=
  let c := { c with disconnect := some (reasonCode, expiry) }
  match expiry with
  | none => some (s.broker, c.disconnected reasonCode)
  | some requested =>
    if ClientSession.expiryFromConnect c.claimant.connect = some 0 ∧ requested ≠ 0 then
      some (s.broker, { c with phase := .leaving .closed })
    else if (s.slots.lookup c.clientId).isSome then none
    else
      let granted := ClientSession.grantedExpiry (some requested)
        (s.broker.maximumSessionExpiry settings)
      let grant (session : ClientSession) : ClientSession :=
        { session with expiryInterval := some granted }
      some (s.broker.updateStored c.clientId c.generation written grant,
        { c with session := c.session.map grant }.disconnected reasonCode)

/-- `handle_disconnect_cleanup` and `publish_will_message`, after the queue of a session that has
ended is cleared: the Will is published at once, by a timer, or not at all. -/
def cleanup (s : State) (i : Nat) (c : Connection) (exit : Exit)
    (armed owned authorized written : Bool) :
    State :=
  let b := s.broker.finishQueue c.clientId (owned && !c.sessionPreserved && exit != .takenOver)
  let goes (b : BrokerState) (phase : Phase) : State :=
    { s with broker := b }.setTask i (.connection { c with phase })
  if exit = .abandoned then goes b (.ended .unaccepted)
  else if c.normalDisconnect then goes b (.ended .nothing)
  else match c.will, c.willDelay with
    | some will, some delay =>
      if delay = 0 then
        let b := b.clearStoredWill c.clientId c.generation written
        if authorized then
          { goes b (.ended .published) with
            published := s.published ++ [(i, willPublish will c.clientId c.claimant.userId)] }
        else goes b (.ended .denied)
      else if armed then goes b (.waiting (s.clock + delay.toNat * 1000000000))
      else goes b (.ended .dropped)
    | _, _ => goes b (.ended .nothing)

/-- A step of a connection in some phase; the slot and the others are left alone. -/
def actConnection (s : State) (i : Nat) (c : Connection) (a : Action) : Option State :=
  let goes (b : BrokerState) (phase : Phase) : State :=
    { s with broker := b }.setTask i (.connection { c with phase })
  match a, c.phase with
  | .read _, .locked =>
    if s.broker.userMismatch c.claimant s.clock then
      some ((s.unlock c.clientId).setTask i (.connection { c with phase := .refused }))
    else
      let (b, claim) := s.broker.prepareClaim settings c.claimant s.clock
      some ({ s with broker := b }.setTask i
        (.connection { c with phase := .claimed claim, generation := claim.generation }))
  | .write _ written, .claimed claim =>
    if written || s.broker.sessions.isNone then
      some (goes (s.broker.writeClaim claim) (.stored claim))
    else
      some ((({ s with broker := s.broker.abandonSessionFlows c.clientId claim.generation s.clock
        }).unlock c.clientId).setTask i (.connection { c with phase := .refused }))
  | .register _, .stored claim =>
    let s := s.notify c.clientId
    some ({ s with broker := s.broker.registerSession c.clientId claim i }.setTask i
      (.connection { c with phase := .registered claim, resume := claim.resume }))
  | .install _, .registered claim =>
    let b := s.broker.installSubscriptions c.clientId (order claim.session.subscriptions)
    some (({ s with broker := b }.unlock c.clientId).setTask i
      (.connection { c with phase := .connecting, session := some claim.session }))
  | .connack _ sent, .connecting =>
    some (goes s.broker (if sent then .serving else .leaving .abandoned))
  | .disconnect _ reasonCode expiry written, .serving =>
    (handleDisconnect settings s c reasonCode expiry written).map fun (b, c) =>
      { s with broker := b }.setTask i (.connection c)
  | .close _, .serving => some (goes s.broker (.leaving .closed))
  | .takenOver _, .serving =>
    if s.notices i then some (goes s.broker (.leaving .takenOver)) else none
  | .arm _, .releasing exit =>
    if exit = .closed && !c.normalDisconnect && c.willDelay.any (· ≠ 0) then
      let (b, armed) := s.broker.armWill c.clientId c.generation
      some (goes b (.armed exit armed))
    else some (goes s.broker (.armed exit false))
  | .releaseFlows _ written, .armed exit armed =>
    match c.session with
    | none => some (goes s.broker (.unflowed exit armed))
    | some session =>
      let (b, session) :=
        s.broker.releaseSessionFlows c.clientId c.generation session written s.clock
      some ({ s with broker := b }.setTask i
        (.connection { c with phase := .unflowed exit armed, session := some session }))
  | .release _, .unflowed exit armed =>
    let (b, owned) := s.broker.releaseClient c.clientId c.generation c.sessionPreserved
    some (goes b (if owned then .persisting exit armed else .unlocking exit armed false))
  | .persist _ written, .persisting exit armed =>
    match c.session with
    | some session =>
      if written then
        some (goes (s.broker.persistSessionEnd c.clientId c.generation session c.normalDisconnect
          s.clock) (.unlocking exit armed true))
      else some (goes s.broker (.unlocking exit armed true))
    | none => some (goes s.broker (.unlocking exit armed true))
  | .unlock _, .unlocking exit armed owned =>
    some ((s.unlock c.clientId).setTask i
      (.connection { c with phase := .cleaning exit armed owned }))
  | .cleanup _ authorized written, .cleaning exit armed owned =>
    some (cleanup s i c exit armed owned authorized written)
  | .fire _ written, .waiting deadline =>
    if s.clock < deadline && s.broker.pendingWills.lookup c.clientId == some c.generation then none
    else
      let (b, claimed) := s.broker.claimWill c.clientId c.generation written
      some (goes b (if claimed then .publishing else .ended .dropped))
  | .publish _ authorized, .publishing =>
    c.will.map fun will =>
      if authorized then
        { goes s.broker (.ended .published) with
          published := s.published ++ [(i, willPublish will c.clientId c.claimant.userId)] }
      else goes s.broker (.ended .denied)
  | _, _ => none

/-- A step of a sweep. -/
def actSweep (s : State) (i : Nat) (clientId : String) (stage : Stage) (a : Action) :
    Option State :=
  let goes (b : BrokerState) (stage : Stage) : State :=
    { s with broker := b }.setTask i (.sweep clientId stage)
  match a, stage with
  | .check _, .locked =>
    some (goes s.broker
      (if (s.broker.clients.lookup clientId).isSome then .unlocking else .unowned))
  | .removeExpired _ written, .unowned =>
    match s.broker.sessions with
    | none => some (goes s.broker .clearing)
    | some sessions =>
      if written then
        some (goes { s.broker with
          sessions := some (sessions.removeExpiredSession clientId s.clock).1 } .swept)
      else some (goes s.broker .unlocking)
  | .readSwept _, .swept =>
    match s.broker.sessions.bind fun sessions => sessions.getSession clientId s.clock with
    | some session =>
      some (goes s.broker (if session.connected then .stranded session.connectionToken
        else .unlocking))
    | none => some (goes s.broker .clearing)
  | .endStranded _ written, .stranded token =>
    some (goes (if written then s.broker.endStrandedSession clientId token s.clock else s.broker)
      .unlocking)
  | .clear _, .clearing =>
    some (goes { s.broker with
      subscriptions := s.broker.subscriptions.removeClientSubscriptions clientId
      queues := s.broker.queues.erase clientId
      flows := s.broker.flows.erase clientId } .unlocking)
  | .unlock _, .unlocking => some ((s.unlock clientId).setTask i (.sweep clientId .finished))
  | _, _ => none

/-- The task a step belongs to. -/
def Action.task : Action → Option Nat
  | .connect i _ | .sweep i _ | .lock i | .read i | .write i _ | .register i | .install i
  | .connack i _ | .disconnect i _ _ _ | .close i | .takenOver i | .arm i | .releaseFlows i _
  | .release i | .persist i _ | .unlock i | .cleanup i _ _ | .fire i _ | .publish i _ | .check i
  | .removeExpired i _ | .readSwept i | .endStranded i _ | .clear i => some i
  | .advance _ => none

def act (s : State) (a : Action) : Option State :=
  match a with
  | .connect i claimant =>
    match s.tasks i with
    | none => some (s.setTask i (.connection { claimant }))
    | some _ => none
  | .sweep i clientId =>
    match s.tasks i with
    | none => some (s.setTask i (.sweep clientId .started))
    | some _ => none
  | .advance now => if now < s.clock then none else some { s with clock := now }
  | .lock i => lock s i
  | a =>
    match a.task with
    | none => none
    | some i =>
      match s.tasks i with
      | none => none
      | some (.connection c) => actConnection settings order s i c a
      | some (.sweep clientId stage) => actSweep s i clientId stage a

/-! ## What a step does -/

/-- What a step of a connection does besides. -/
inductive Effect where
  | quiet
  | unlocks
  | notifies
  | publishes (publish : PublishPacket)

/-- A connection has taken a step. -/
def State.moved (s : State) (i : Nat) (b : BrokerState) (c : Connection) : Effect → State
  | .quiet => { s with broker := b }.setTask i (.connection c)
  | .unlocks => ({ s with broker := b }.unlock c.clientId).setTask i (.connection c)
  | .notifies => { s.notify c.clientId with broker := b }.setTask i (.connection c)
  | .publishes publish =>
    { s with broker := b, published := s.published ++ [(i, publish)] }.setTask i (.connection c)

/-- The steps of a connection: the broker and the connection after it, and what else it does. -/
inductive Moves (s : State) (i : Nat) (c : Connection) : BrokerState → Connection → Effect →
    Prop where
  | mismatched (hphase : c.phase = .locked) :
      Moves s i c s.broker { c with phase := .refused } .unlocks
  | claimed (hphase : c.phase = .locked) :
      Moves s i c (s.broker.prepareClaim settings c.claimant s.clock).1
        { c with
          phase := .claimed (s.broker.prepareClaim settings c.claimant s.clock).2
          generation := (s.broker.prepareClaim settings c.claimant s.clock).2.generation } .quiet
  | stored {claim : Claim} (hphase : c.phase = .claimed claim) :
      Moves s i c (s.broker.writeClaim claim) { c with phase := .stored claim } .quiet
  | unwritten {claim : Claim} (hphase : c.phase = .claimed claim) :
      Moves s i c (s.broker.abandonSessionFlows c.clientId claim.generation s.clock)
        { c with phase := .refused } .unlocks
  | registered {claim : Claim} (hphase : c.phase = .stored claim) :
      Moves s i c (s.broker.registerSession c.clientId claim i)
        { c with phase := .registered claim, resume := claim.resume } .notifies
  | installed {claim : Claim} (hphase : c.phase = .registered claim) :
      Moves s i c (s.broker.installSubscriptions c.clientId (order claim.session.subscriptions))
        { c with phase := .connecting, session := some claim.session } .unlocks
  | answered (hphase : c.phase = .connecting) :
      Moves s i c s.broker { c with phase := .serving } .quiet
  | unanswered (hphase : c.phase = .connecting) :
      Moves s i c s.broker { c with phase := .leaving .abandoned } .quiet
  | disconnected {reasonCode : ReasonCode} {expiry : Option UInt32} {written : Bool}
      {b : BrokerState} {c' : Connection} (hphase : c.phase = .serving)
      (hhandled : handleDisconnect settings s c reasonCode expiry written = some (b, c')) :
      Moves s i c b c' .quiet
  | closed (hphase : c.phase = .serving) :
      Moves s i c s.broker { c with phase := .leaving .closed } .quiet
  | takenOver (hphase : c.phase = .serving) (hnotice : s.notices i = true) :
      Moves s i c s.broker { c with phase := .leaving .takenOver } .quiet
  | arming {exit : Exit} (hphase : c.phase = .releasing exit) (hexit : exit = .closed)
      (hnormal : c.normalDisconnect = false) (hdelay : c.willDelay.any (· ≠ 0) = true) :
      Moves s i c (s.broker.armWill c.clientId c.generation).1
        { c with phase := .armed exit (s.broker.armWill c.clientId c.generation).2 } .quiet
  | unarmed {exit : Exit} (hphase : c.phase = .releasing exit)
      (hno : exit ≠ .closed ∨ c.normalDisconnect = true ∨ c.willDelay.any (· ≠ 0) = false) :
      Moves s i c s.broker { c with phase := .armed exit false } .quiet
  | sessionless {exit : Exit} {armed : Bool} (hphase : c.phase = .armed exit armed)
      (hsession : c.session = none) :
      Moves s i c s.broker { c with phase := .unflowed exit armed } .quiet
  | unflowed {exit : Exit} {armed : Bool} {session : ClientSession} {written : UInt64 → Bool}
      (hphase : c.phase = .armed exit armed) (hsession : c.session = some session) :
      Moves s i c
        (s.broker.releaseSessionFlows c.clientId c.generation session written s.clock).1
        { c with
          phase := .unflowed exit armed
          session := some (s.broker.releaseSessionFlows c.clientId c.generation session written
            s.clock).2 } .quiet
  | released {exit : Exit} {armed : Bool} (hphase : c.phase = .unflowed exit armed)
      (howner : s.broker.isCurrentOwner c.clientId c.generation = true) :
      Moves s i c (s.broker.releaseClient c.clientId c.generation c.sessionPreserved).1
        { c with phase := .persisting exit armed } .quiet
  | displaced {exit : Exit} {armed : Bool} (hphase : c.phase = .unflowed exit armed)
      (howner : s.broker.isCurrentOwner c.clientId c.generation = false) :
      Moves s i c s.broker { c with phase := .unlocking exit armed false } .quiet
  | persisted {exit : Exit} {armed : Bool} {session : ClientSession}
      (hphase : c.phase = .persisting exit armed) (hsession : c.session = some session) :
      Moves s i c
        (s.broker.persistSessionEnd c.clientId c.generation session c.normalDisconnect s.clock)
        { c with phase := .unlocking exit armed true } .quiet
  | unpersisted {exit : Exit} {armed : Bool} (hphase : c.phase = .persisting exit armed) :
      Moves s i c s.broker { c with phase := .unlocking exit armed true } .quiet
  | unlocked {exit : Exit} {armed owned : Bool} (hphase : c.phase = .unlocking exit armed owned) :
      Moves s i c s.broker { c with phase := .cleaning exit armed owned } .unlocks
  | abandoned {exit : Exit} {armed owned discard : Bool}
      (hphase : c.phase = .cleaning exit armed owned) (hexit : exit = .abandoned) :
      Moves s i c (s.broker.finishQueue c.clientId discard) { c with phase := .ended .unaccepted }
        .quiet
  | unwilling {exit : Exit} {armed owned discard : Bool}
      (hphase : c.phase = .cleaning exit armed owned)
      (hnone : c.normalDisconnect = true ∨ c.will = none) :
      Moves s i c (s.broker.finishQueue c.clientId discard)
        { c with phase := .ended .nothing } .quiet
  | willPublished {exit : Exit} {armed owned discard written : Bool} {will : WillMessage}
      (hphase : c.phase = .cleaning exit armed owned) (hexit : exit ≠ .abandoned)
      (hnormal : c.normalDisconnect = false) (hwill : c.will = some will) :
      Moves s i c
        ((s.broker.finishQueue c.clientId discard).clearStoredWill c.clientId c.generation written)
        { c with phase := .ended .published }
        (.publishes (willPublish will c.clientId c.claimant.userId))
  | willDenied {exit : Exit} {armed owned discard written : Bool}
      (hphase : c.phase = .cleaning exit armed owned) (hexit : exit ≠ .abandoned)
      (hnormal : c.normalDisconnect = false) :
      Moves s i c
        ((s.broker.finishQueue c.clientId discard).clearStoredWill c.clientId c.generation written)
        { c with phase := .ended .denied } .quiet
  | willDelayed {exit : Exit} {owned discard : Bool} {deadline : SystemTime}
      (hphase : c.phase = .cleaning exit true owned) (hexit : exit ≠ .abandoned)
      (hnormal : c.normalDisconnect = false) (hdelay : c.willDelay.any (· ≠ 0) = true) :
      Moves s i c (s.broker.finishQueue c.clientId discard)
        { c with phase := .waiting deadline } .quiet
  | willDropped {exit : Exit} {owned discard : Bool}
      (hphase : c.phase = .cleaning exit false owned) (hexit : exit ≠ .abandoned)
      (hnormal : c.normalDisconnect = false) (hdelay : c.willDelay.any (· ≠ 0) = true) :
      Moves s i c (s.broker.finishQueue c.clientId discard)
        { c with phase := .ended .dropped } .quiet
  | fired {deadline : SystemTime} {written : Bool} (hphase : c.phase = .waiting deadline)
      (harmed : s.broker.pendingWills.lookup c.clientId = some c.generation) :
      Moves s i c (s.broker.claimWill c.clientId c.generation written).1
        { c with phase := .publishing } .quiet
  | cancelled {deadline : SystemTime} (hphase : c.phase = .waiting deadline)
      (harmed : s.broker.pendingWills.lookup c.clientId ≠ some c.generation) :
      Moves s i c s.broker { c with phase := .ended .dropped } .quiet
  | published {will : WillMessage} (hphase : c.phase = .publishing) (hwill : c.will = some will) :
      Moves s i c s.broker { c with phase := .ended .published }
        (.publishes (willPublish will c.clientId c.claimant.userId))
  | denied (hphase : c.phase = .publishing) :
      Moves s i c s.broker { c with phase := .ended .denied } .quiet

/-- The steps of a sweep. -/
inductive Sweeps (s : State) (clientId : String) : Stage → BrokerState → Stage → Prop where
  | owned : Sweeps s clientId .locked s.broker .unlocking
  | unowned (hnone : s.broker.clients.lookup clientId = none) :
      Sweeps s clientId .locked s.broker .unowned
  | storeless : Sweeps s clientId .unowned s.broker .clearing
  | expired {sessions : Sessions} (hsessions : s.broker.sessions = some sessions) :
      Sweeps s clientId .unowned
        { s.broker with sessions := some (sessions.removeExpiredSession clientId s.clock).1 } .swept
  | unwritten : Sweeps s clientId .unowned s.broker .unlocking
  | kept : Sweeps s clientId .swept s.broker .unlocking
  | found {token : UInt64} : Sweeps s clientId .swept s.broker (.stranded token)
  | gone : Sweeps s clientId .swept s.broker .clearing
  | ended {token : UInt64} :
      Sweeps s clientId (.stranded token) (s.broker.endStrandedSession clientId token s.clock)
        .unlocking
  | unended {token : UInt64} : Sweeps s clientId (.stranded token) s.broker .unlocking
  | cleared :
      Sweeps s clientId .clearing { s.broker with
        subscriptions := s.broker.subscriptions.removeClientSubscriptions clientId
        queues := s.broker.queues.erase clientId
        flows := s.broker.flows.erase clientId } .unlocking

variable {settings order} {s s' : State} {i : Nat} {c : Connection} {a : Action}

theorem cleanup_moves {exit : Exit} {armed owned authorized written : Bool}
    (hph : c.phase = .cleaning exit armed owned) :
    ∃ b c' effect, Moves settings order s i c b c' effect ∧
      cleanup s i c exit armed owned authorized written = s.moved i b c' effect := by
  dsimp only [cleanup]
  split
  · rename_i hexit
    exact ⟨_, _, _, .abandoned hph hexit, rfl⟩
  · rename_i hexit
    split
    · rename_i hnorm
      exact ⟨_, _, _, .unwilling hph (.inl hnorm), rfl⟩
    · rename_i hnorm
      rw [not_eq_true] at hnorm
      split
      · rename_i will _ hwill hdelay
        split
        · split
          · exact ⟨_, _, _, .willPublished hph hexit hnorm hwill, rfl⟩
          · exact ⟨_, _, _, .willDenied hph hexit hnorm, rfl⟩
        · rename_i hzero
          have hany : c.willDelay.any (· ≠ 0) := by simpa [hdelay] using hzero
          cases armed with
          | true => exact ⟨_, _, _, .willDelayed hph hexit hnorm hany, rfl⟩
          | false => exact ⟨_, _, _, .willDropped hph hexit hnorm hany, rfl⟩
      · rename_i hnot
        have hnone : c.will = none := by
          cases hsess : c.session with
          | none => simp [Connection.will, hsess]
          | some session =>
            cases hwill : session.willMessage with
            | none => simp [Connection.will, hsess, hwill]
            | some will =>
              refine (hnot will (min (session.willDelayInterval.getD 0)
                (session.expiryInterval.getD 4294967295)) ?_ ?_).elim
              · simp [Connection.will, hsess, hwill]
              · simp [Connection.willDelay, hsess, hwill, ClientSession.willPublishDelay]
        exact ⟨_, _, _, .unwilling hph (.inr hnone), rfl⟩

/-- Every step of a connection is one of those listed. -/
theorem actConnection_moves (h : actConnection settings order s i c a = some s') :
    ∃ b c' effect, Moves settings order s i c b c' effect ∧ s' = s.moved i b c' effect := by
  unfold actConnection at h
  dsimp only at h
  split at h
  · rename_i hph
    split at h
    · cases h
      exact ⟨_, _, _, .mismatched hph, rfl⟩
    · cases h
      exact ⟨_, _, _, .claimed hph, rfl⟩
  · rename_i claim hph
    split at h
    · cases h
      exact ⟨_, _, _, .stored hph, rfl⟩
    · cases h
      exact ⟨_, _, _, .unwritten hph, rfl⟩
  · rename_i claim hph
    cases h
    refine ⟨_, _, _, .registered hph, ?_⟩
    show _ = { s.notify c.clientId with broker := _ }.setTask i _
    unfold State.notify
    split <;> rfl
  · rename_i claim hph
    cases h
    exact ⟨_, _, _, .installed hph, rfl⟩
  · rename_i sent hph
    cases h
    cases sent with
    | true => exact ⟨_, _, _, .answered hph, rfl⟩
    | false => exact ⟨_, _, _, .unanswered hph, rfl⟩
  · rename_i written hph
    obtain ⟨⟨b, c'⟩, hhand, hs⟩ := map_eq_some_iff.mp h
    cases hs
    exact ⟨_, _, _, .disconnected hph hhand, rfl⟩
  · rename_i hph
    cases h
    exact ⟨_, _, _, .closed hph, rfl⟩
  · rename_i hph
    split at h
    · rename_i hnote
      cases h
      exact ⟨_, _, _, .takenOver hph hnote, rfl⟩
    · cases h
  · rename_i exit hph
    split at h
    · rename_i hcond
      simp only [and_eq_true, decide_eq_true_eq, not_eq_true'] at hcond
      cases h
      exact ⟨_, _, _, .arming hph hcond.1.1 hcond.1.2 hcond.2, rfl⟩
    · rename_i hcond
      simp only [and_eq_true, decide_eq_true_eq, not_eq_true', not_and_or,
        not_eq_true, not_eq_false] at hcond
      cases h
      refine ⟨_, _, _, .unarmed hph ?_, rfl⟩
      rcases hcond with (hexit | hnorm) | hdelay
      · exact .inl hexit
      · exact .inr (.inl hnorm)
      · exact .inr (.inr hdelay)
  · rename_i written exit armed hph
    split at h
    · rename_i hsess
      cases h
      exact ⟨_, _, _, .sessionless hph hsess, rfl⟩
    · rename_i session hsess
      cases h
      exact ⟨_, _, _, .unflowed hph hsess, rfl⟩
  · rename_i exit armed hph
    cases h
    cases hown : s.broker.isCurrentOwner c.clientId c.generation with
    | true =>
      refine ⟨_, _, _, .released hph hown, ?_⟩
      simp [BrokerState.releaseClient, hown, State.moved]
    | false =>
      refine ⟨_, _, _, .displaced hph hown, ?_⟩
      simp [BrokerState.releaseClient, hown, State.moved]
  · rename_i written exit armed hph
    split at h
    · rename_i session hsess
      split at h
      · cases h
        exact ⟨_, _, _, .persisted hph hsess, rfl⟩
      · cases h
        exact ⟨_, _, _, .unpersisted hph, rfl⟩
    · cases h
      exact ⟨_, _, _, .unpersisted hph, rfl⟩
  · rename_i exit armed owned hph
    cases h
    exact ⟨_, _, _, .unlocked hph, rfl⟩
  · rename_i authorized written exit armed owned hph
    cases h
    exact cleanup_moves hph
  · rename_i written deadline hph
    split at h
    · cases h
    by_cases harmed : s.broker.pendingWills.lookup c.clientId = some c.generation
    · cases h
      refine ⟨_, _, _, @Moves.fired settings order s i c deadline written hph harmed, ?_⟩
      simp only [BrokerState.claimWill, if_pos harmed, State.moved, if_true]
    · cases h
      refine ⟨_, _, _, .cancelled hph harmed, ?_⟩
      simp [BrokerState.claimWill, harmed, State.moved]
  · rename_i authorized hph
    obtain ⟨_, hwill, hs⟩ := map_eq_some_iff.mp h
    cases hs
    cases authorized with
    | true => exact ⟨_, _, _, .published hph hwill, rfl⟩
    | false => exact ⟨_, _, _, .denied hph, rfl⟩
  · cases h

theorem actSweep_sweeps {clientId : String} {stage : Stage}
    (h : actSweep s i clientId stage a = some s') :
    (∃ b stage', Sweeps s clientId stage b stage' ∧
        s' = { s with broker := b }.setTask i (.sweep clientId stage')) ∨
      (stage = .unlocking ∧ a.isSweep = false ∧
        s' = (s.unlock clientId).setTask i (.sweep clientId .finished)) := by
  unfold actSweep at h
  dsimp only at h
  split at h
  · cases h
    cases hown : s.broker.clients.lookup clientId with
    | none => exact .inl ⟨_, _, .unowned hown, rfl⟩
    | some _ => exact .inl ⟨_, _, .owned, rfl⟩
  · split at h
    · cases h
      exact .inl ⟨_, _, .storeless, rfl⟩
    · rename_i hsesns
      split at h
      · cases h
        exact .inl ⟨_, _, .expired hsesns, rfl⟩
      · cases h
        exact .inl ⟨_, _, .unwritten, rfl⟩
  · split at h
    · rename_i session hsess
      cases h
      cases session.connected with
      | true => exact .inl ⟨_, _, .found, rfl⟩
      | false => exact .inl ⟨_, _, .kept, rfl⟩
    · cases h
      exact .inl ⟨_, _, .gone, rfl⟩
  · rename_i written _
    cases h
    cases written with
    | true => exact .inl ⟨_, _, .ended, rfl⟩
    | false => exact .inl ⟨_, _, .unended, rfl⟩
  · cases h
    exact .inl ⟨_, _, .cleared, rfl⟩
  · cases h
    exact .inr ⟨rfl, rfl, rfl⟩
  · cases h

/-- A task that has just been started. -/
def Task.IsNew : Task → Prop
  | .connection c => ∃ claimant, c = { claimant }
  | .sweep _ stage => stage = .started

/-- How a task takes its slot. -/
inductive Locks : Task → Task → Prop where
  | claim {c : Connection} (hphase : c.phase = .accepted) :
      Locks (.connection c) (.connection { c with phase := .locked })
  | release {c : Connection} {exit : Exit} (hphase : c.phase = .leaving exit) :
      Locks (.connection c) (.connection { c with phase := .releasing exit })
  | sweep {clientId : String} : Locks (.sweep clientId .started) (.sweep clientId .locked)

variable (settings order) in
/-- Every step is of the clock, starts a task, takes a slot, or is a step of a task. -/
inductive Steps (s : State) : Action → State → Prop where
  | advanced {now : SystemTime} : Steps s (.advance now) { s with clock := now }
  | started {a : Action} {i : Nat} {t : Task} (hsweep : a.isSweep = false)
    (hnone : s.tasks i = none)
      (hnew : t.IsNew) : Steps s a (s.setTask i t)
  | locked {i : Nat} {t t' : Task} (htask : s.tasks i = some t)
      (hfree : s.slots.lookup t.clientId = none) (hlocks : Locks t t') :
      Steps s (.lock i) ({ s with slots := s.slots.insert t.clientId i }.setTask i t')
  | moved {a : Action} {i : Nat} {c c' : Connection} {b : BrokerState} {effect : Effect}
      (hsweep : a.isSweep = false) (htask : s.tasks i = some (.connection c))
      (hmoves : Moves settings order s i c b c' effect) : Steps s a (s.moved i b c' effect)
  | swept {a : Action} {i : Nat} {clientId : String} {stage stage' : Stage} {b : BrokerState}
      (htask : s.tasks i = some (.sweep clientId stage))
      (hsweeps : Sweeps s clientId stage b stage') :
      Steps s a ({ s with broker := b }.setTask i (.sweep clientId stage'))
  | unlocked {a : Action} {i : Nat} {clientId : String} (hsweep : a.isSweep = false)
      (htask : s.tasks i = some (.sweep clientId .unlocking)) :
      Steps s a ((s.unlock clientId).setTask i (.sweep clientId .finished))

theorem lock_locks (h : lock s i = some s') :
    ∃ t t', s.tasks i = some t ∧ s.slots.lookup t.clientId = none ∧ Locks t t' ∧
      s' = { s with slots := s.slots.insert t.clientId i }.setTask i t' := by
  unfold lock at h
  cases htask : s.tasks i with
  | none => simp [htask] at h
  | some t =>
    simp only [htask] at h
    obtain ⟨hfree, h⟩ := ite_none_left_eq_some.mp h
    rw [not_eq_true, isSome_eq_false_iff, isNone_iff_eq_none] at hfree
    cases t with
    | connection c =>
      dsimp only at h
      split at h
      · rename_i hph
        cases h
        exact ⟨_, _, rfl, hfree, .claim hph, rfl⟩
      · rename_i hph
        cases h
        exact ⟨_, _, rfl, hfree, .release hph, rfl⟩
      · cases h
    | sweep clientId stage =>
      cases stage <;> cases h
      exact ⟨_, _, rfl, hfree, .sweep, rfl⟩

theorem act_steps (h : act settings order s a = some s') : Steps settings order s a s' := by
  unfold act at h
  split at h
  · split at h
    · rename_i hnone
      cases h
      exact .started rfl hnone ⟨_, rfl⟩
    · cases h
  · split at h
    · rename_i hnone
      cases h
      exact .started rfl hnone rfl
    · cases h
  · split at h
    · cases h
    cases h
    exact .advanced
  · obtain ⟨t, _, htask, hfree, hlocks, hs⟩ := lock_locks h
    rw [hs]
    exact .locked htask hfree hlocks
  · split at h
    · cases h
    split at h
    · cases h
    · rename_i htask
      obtain ⟨b, _, _, hmov, hs⟩ := actConnection_moves h
      rw [hs]
      exact .moved (by cases a <;> first | rfl | cases h) htask hmov
    · rename_i htask
      rcases actSweep_sweeps h with ⟨b, _, hsweeps, hs⟩ | ⟨hstg, hsweep, hs⟩
      · rw [hs]
        exact .swept htask hsweeps
      · rw [hs]
        exact .unlocked hsweep (hstg ▸ htask)

/-! ## Slots -/

/-- Every task in a section of its slot has the slot. -/
def State.SlotsHeld (s : State) : Prop :=
  ∀ i t, s.tasks i = some t → t.holdsSlot = true → s.slots.lookup t.clientId = some i

section Moved

variable {b : BrokerState} {c' : Connection} {effect : Effect} {t t' : Task}
  {reasonCode : ReasonCode}

@[simp] theorem tasks_moved :
    (s.moved i b c effect).tasks = update s.tasks i (some (.connection c)) := by
  cases effect with
  | notifies =>
    dsimp only [State.moved, State.setTask, State.notify]
    split <;> rfl
  | _ => rfl

@[simp] theorem broker_moved : (s.moved i b c effect).broker = b := by
  cases effect <;> rfl

theorem lookup_slots_moved {clientId : String} (h : clientId ≠ c.clientId ∨ effect ≠ .unlocks) :
    (s.moved i b c effect).slots.lookup clientId = s.slots.lookup clientId := by
  cases effect with
  | quiet => rfl
  | unlocks => exact lookup_erase_ne (h.resolve_right fun hne => hne rfl)
  | notifies =>
    dsimp only [State.moved, State.setTask, State.notify]
    split <;> rfl
  | publishes _ => rfl

theorem slots_moved (h : effect ≠ .unlocks) : (s.moved i b c effect).slots = s.slots :=
  ext_lookup fun _ => lookup_slots_moved (.inr h)

theorem disconnected_eq (c : Connection) (reasonCode : ReasonCode) :
    ∃ session normal, c.disconnected reasonCode =
      { c with phase := .leaving .closed, session := session, normalDisconnect := normal } ∧
        (normal = false → session = c.session ∧ c.normalDisconnect = false) ∧
        normal = (c.normalDisconnect || decide (reasonCode ≠ .disconnectWithWillMessage)) := by
  unfold Connection.disconnected
  split
  · exact ⟨_, _, rfl, fun h => ⟨rfl, h⟩, by simp [*]⟩
  · exact ⟨_, _, rfl, (fun h => nomatch h), by simp [*]⟩

/-- What drops the Will: a DISCONNECT packet with any reason code but 0x04, unless its Session
Expiry Interval is the protocol error of changing a 0. -/
def DropsWill (connect : ConnectPacket) (reasonCode : ReasonCode) (expiry : Option UInt32) : Prop :=
  reasonCode ≠ .disconnectWithWillMessage ∧
    ¬ (ClientSession.expiryFromConnect connect = some 0 ∧ expiry.any (· ≠ 0) = true)

/-- A DISCONNECT packet keeps the Will, unless it is normal. -/
theorem handleDisconnect_eq {expiry : Option UInt32} {written : Bool}
    (h : handleDisconnect settings s c reasonCode expiry written = some (b, c')) :
    ∃ session normal,
      c' = { c with
        phase := .leaving .closed, session := session, normalDisconnect := normal
        disconnect := some (reasonCode, expiry) } ∧
      (normal = false → session.bind (·.willMessage) = c.will ∧ c.normalDisconnect = false) ∧
      (normal = true ↔
        c.normalDisconnect = true ∨ DropsWill c.claimant.connect reasonCode expiry) := by
  unfold handleDisconnect at h
  unfold DropsWill
  dsimp only at h
  split at h
  · cases h
    obtain ⟨session, normal, heq, hkept, hnormal⟩ := disconnected_eq
      { c with disconnect := some (reasonCode, none) } reasonCode
    refine ⟨session, normal, heq, fun hnorm => ?_, by simp [hnormal]⟩
    rw [(hkept hnorm).1]
    exact ⟨rfl, (hkept hnorm).2⟩
  · rename_i requested
    split at h
    · rename_i hchanged
      cases h
      exact ⟨_, _, rfl, fun hnorm => ⟨rfl, hnorm⟩, by simp [hchanged]⟩
    · rename_i hkeeps
      split at h
      · cases h
      cases h
      obtain ⟨session, normal, heq, hkept, hnormal⟩ := disconnected_eq
        { c with
          disconnect := some (reasonCode, some requested)
          session := c.session.map fun session => { session with
            expiryInterval := some (ClientSession.grantedExpiry (some requested)
              (s.broker.maximumSessionExpiry settings)) } } reasonCode
      refine ⟨session, normal, heq, fun hnorm => ?_, by simp [hnormal, hkeeps]⟩
      rw [(hkept hnorm).1]
      refine ⟨?_, (hkept hnorm).2⟩
      unfold Connection.will
      cases c.session <;> rfl

/-- A connection keeps its CONNECT packet, and drops its slot where it leaves the section. -/
theorem Moves.facts (h : Moves settings order s i c b c' effect) :
    c'.claimant = c.claimant ∧
      (effect = .unlocks → c.phase.holdsSlot ∧ c'.phase.holdsSlot = false) ∧
      (effect ≠ .unlocks → c'.phase.holdsSlot = c.phase.holdsSlot) := by
  cases h with
  | disconnected hph hhand =>
    obtain ⟨_, _, rfl, -⟩ := handleDisconnect_eq hhand
    exact ⟨rfl, (fun h => nomatch h), fun _ => by rw [hph]; rfl⟩
  | mismatched hph | unwritten hph | installed hph | unlocked hph =>
    exact ⟨rfl, fun _ => ⟨by rw [hph]; rfl, rfl⟩, fun h => (h rfl).elim⟩
  | _ => exact ⟨rfl, (fun h => nomatch h), fun _ => by rw [‹c.phase = _›]; rfl⟩

theorem Moves.clientId_eq (h : Moves settings order s i c b c' effect) :
    c'.clientId = c.clientId := congrArg Claimant.clientId h.facts.1

/-- The slots after a step of a task that has been started. -/
theorem State.SlotsHeld.update (hs : s.SlotsHeld) (htask : s.tasks i = some t)
    (htasks : s'.tasks = update s.tasks i (some t')) (hid : t'.clientId = t.clientId)
    (hhold : t'.holdsSlot → t.holdsSlot)
    (hslots : ∀ clientId, (clientId ≠ t.clientId ∨ t.holdsSlot = false ∨ t'.holdsSlot) →
      s'.slots.lookup clientId = s.slots.lookup clientId) : s'.SlotsHeld := by
  intro j u hj hu
  rw [htasks, update_apply] at hj
  split at hj
  · rename_i hji
    cases hj
    rw [hji, hslots _ (.inr (.inr hu)), hid]
    exact hs i t htask (hhold hu)
  · rename_i hji
    have hslot := hs j u hj hu
    by_cases hcl : u.clientId = t.clientId
    · -- the task of the step does not hold the slot of the other one
      have hfree : t.holdsSlot = false := by
        by_contra hheld
        rw [not_eq_false] at hheld
        rw [hcl, hs i t htask hheld] at hslot
        exact hji (some.inj hslot).symm
      rw [hslots _ (.inr (.inl hfree))]
      exact hslot
    · rw [hslots _ (.inl hcl)]
      exact hslot

theorem State.SlotsHeld.moves (hs : s.SlotsHeld) (htask : s.tasks i = some (.connection c))
    (h : Moves settings order s i c b c' effect) : (s.moved i b c' effect).SlotsHeld := by
  obtain ⟨-, hunlocks, hkeeps⟩ := h.facts
  refine hs.update htask tasks_moved h.clientId_eq ?_ ?_
  · intro hhold
    by_cases hunlock : effect = .unlocks
    · exact (hunlocks hunlock).1
    · exact (hkeeps hunlock).symm.trans hhold
  · intro _ hwhy
    refine lookup_slots_moved (hwhy.imp (fun hne => by rwa [h.clientId_eq]) ?_)
    rintro (hfree | hhold) hunlock
    · exact absurd (hunlocks hunlock).1 (by rw [show c.phase.holdsSlot = false from hfree]; simp)
    · exact absurd (hunlocks hunlock).2 (by rw [show c'.phase.holdsSlot = true from hhold]; simp)

theorem Task.IsNew.holdsSlot (h : t.IsNew) : t.holdsSlot = false := by
  cases t with
  | connection c =>
    obtain ⟨_, rfl⟩ := h
    rfl
  | sweep _ stage =>
    cases (h : stage = .started)
    rfl

theorem Locks.facts (h : Locks t t') : t.holdsSlot = false ∧ t'.clientId = t.clientId := by
  cases h with
  | claim hph | release hph => exact ⟨by simp [Task.holdsSlot, hph, Phase.holdsSlot], rfl⟩
  | sweep => exact ⟨rfl, rfl⟩

theorem State.SlotsHeld.locks (hs : s.SlotsHeld)
    (hfree : s.slots.lookup t.clientId = none) (hlocks : Locks t t') :
    ({ s with slots := s.slots.insert t.clientId i }.setTask i t').SlotsHeld := by
  intro j u hj hu
  dsimp only [State.setTask] at hj ⊢
  rw [update_apply] at hj
  split at hj
  · rename_i hji
    cases hj
    rw [hlocks.facts.2, hji]
    exact lookup_insert _
  · have hslot := hs j u hj hu
    rw [lookup_insert_of_ne]
    · exact hslot
    · rintro heq
      rw [heq, hfree] at hslot
      cases hslot

/-- Every step keeps the slots with the tasks in their sections. -/
theorem State.SlotsHeld.act (hs : s.SlotsHeld) (h : act settings order s a = some s') :
    s'.SlotsHeld := by
  cases act_steps h with
  | advanced => exact hs
  | started _ hnone hnew =>
    intro j u hj hu
    dsimp only [State.setTask] at hj
    rw [update_apply] at hj
    split at hj
    · cases hj
      rw [hnew.holdsSlot] at hu
      cases hu
    · exact hs j u hj hu
  | locked _ hfree hlocks => exact hs.locks hfree hlocks
  | moved _ htask hmov => exact hs.moves htask hmov
  | swept htask hsweeps =>
    refine hs.update htask rfl rfl (fun _ => ?_) (fun _ _ => rfl)
    cases hsweeps <;> rfl
  | unlocked _ htask =>
    refine hs.update htask rfl rfl (fun h => nomatch h) ?_
    rintro clientId (hne | hfree | hhold)
    · exact lookup_erase_ne hne
    · cases hfree
    · cases hhold

end Moved

end Lifecycle

end MqttLib.Broker
