/-
MqttLib.Broker.Claim

From a CONNECT packet to the registration of its connection (`handle_session` and what it
calls in `client_handler/connect.rs`, `client_handler/subscribe.rs` and `router.rs`).  The
claim of the session is written to the storage before the connection displaces the one
that is registered; the data flows are claimed before the write.
-/

import MqttLib.Broker.Authentication
import MqttLib.Broker.SessionFlows
import MqttLib.Broker.Subscriptions
import MqttLib.Storage.Messages
import MqttLib.Storage.Sessions

namespace MqttLib.Broker

open Foundation Protocol Storage Finmap

/-! ## The state of the broker -/

/-- The router's entry of a client: the generation of its connection, and the connection that
holds the other end of the disconnect channel. -/
structure ClientInfo where
  generation : Nat
  connection : Nat
  deriving DecidableEq

/-- What connections share: the sessions of the storage, if one is configured, and the tables
of the router by client. -/
structure BrokerState where
  sessions : Option Sessions := none
  clients : Table String ClientInfo := ∅
  subscriptions : Subscriptions := {}
  queues : Table String (List QueuedMessage) := ∅
  /-- The generation that armed the pending Will. -/
  pendingWills : Table String Nat := ∅
  flows : Table String SessionFlows := ∅
  generations : Nat := 0

/-- What the handlers read of the configuration. -/
structure BrokerSettings where
  /-- In whole seconds. -/
  sessionExpiryInterval : UInt32 := 4294967295
  maximumQos : UInt8 := 2
  retainAvailable : Bool := true
  /-- 0 is no limit. -/
  maxRetainedMessageSize : Nat := 0
  authorizeSubscribe : String → Option String → String → Bool := fun _ _ _ => true

/-- A CONNECT packet that has been accepted, and the user it is authenticated as. -/
structure Claimant where
  connect : ConnectPacket
  userId : Option String := none

/-- A session that is claimed for a connection. -/
structure Claim where
  generation : Nat
  session : ClientSession
  resume : Bool

def Claimant.clientId (claimant : Claimant) : String := claimant.connect.clientId

namespace BrokerState

variable (settings : BrokerSettings)

/-! ## Claiming a session -/

def maximumSessionExpiry (b : BrokerState) : UInt32 :=
  if b.sessions.isNone then 0 else settings.sessionExpiryInterval

def grantedExpiry (b : BrokerState) (connect : ConnectPacket) : UInt32 :=
  ClientSession.grantedExpiry (ClientSession.expiryFromConnect connect)
    (b.maximumSessionExpiry settings)

/-- The stored session a CONNECT packet may resume. -/
def resumable (b : BrokerState) (connect : ConnectPacket) (now : SystemTime) :
    Option ClientSession :=
  (b.sessions.bind fun sessions => sessions.getSession connect.clientId now).filter fun session =>
    !connect.cleanStart && session.expiryInterval != some 0

/-- A session of another user is not handed over. -/
def userMismatch (b : BrokerState) (claimant : Claimant) (now : SystemTime) : Bool :=
  (b.resumable claimant.connect now).any fun session => session.userId != claimant.userId

def dropUnauthorizedSubscriptions (userId : Option String) (session : ClientSession) :
    ClientSession :=
  session.retainSubscriptions fun filter _ =>
    settings.authorizeSubscribe session.clientId userId filter

def sessionForClaim (claimant : Claimant) (resumable : Option ClientSession) (granted : UInt32)
    (now : SystemTime) : ClientSession :=
  let connect := claimant.connect
  let session := match resumable with
    | some session =>
      { dropUnauthorizedSubscriptions settings claimant.userId session with
        willMessage := connect.will
        willDelayInterval := connect.will.bind fun will => will.properties.willDelayInterval }
    | none => ClientSession.newWithWill connect.clientId true (some granted) connect.will now
  { session with
    expiryInterval := some granted
    receiveMaximum := connect.properties.getReceiveMaximum.getD 65535
    userId := claimant.userId }

/-- `claim_session_flows`: subscriptions on flows that are gone are not resumed. -/
def claimSessionFlows (b : BrokerState) (clientId : String) (generation : Nat)
    (session : ClientSession)
    (fresh : Bool) (now : SystemTime) : BrokerState × ClientSession :=
  let flows := ((b.flows.lookup clientId).getD {}).claim generation fresh now
  ({ b with flows := withSessionFlows b.flows clientId (·.claim generation fresh now) },
    session.retainSubscriptions fun _ sub => sub.flowId.all flows.holds)

def abandonSessionFlows (b : BrokerState) (clientId : String) (generation : Nat)
    (now : SystemTime) :
    BrokerState :=
  { b with flows := withSessionFlows b.flows clientId fun flows =>
      (flows.release generation true now).1 }

/-- `handle_session` up to the write of the claim, where the user is the session's. -/
def prepareClaim (b : BrokerState) (claimant : Claimant) (now : SystemTime) : BrokerState × Claim :=
  let resumable := b.resumable claimant.connect now
  let generation := b.generations + 1
  let session := (sessionForClaim settings claimant resumable
    (b.grantedExpiry settings claimant.connect) now).markConnected (.ofNat generation) now
  let (b, session) := { b with generations := generation }.claimSessionFlows claimant.clientId
    generation session resumable.isNone now
  (b, { generation, session, resume := resumable.isSome })

/-- `write_claim`, where the write succeeds. -/
def writeClaim (b : BrokerState) (claim : Claim) : BrokerState :=
  { b with sessions := b.sessions.map fun sessions => sessions.storeSession claim.session }

/-- `register_session_as`: a fresh session starts without subscriptions and with an empty queue,
and a pending Will is cancelled. -/
def registerSession (b : BrokerState) (clientId : String) (claim : Claim) (connection : Nat) :
    BrokerState :=
  { b with
    subscriptions :=
      if claim.resume then b.subscriptions else b.subscriptions.removeClientSubscriptions clientId
    pendingWills := b.pendingWills.erase clientId
    queues := if claim.resume then b.queues else b.queues.erase clientId
    clients := b.clients.insert clientId ⟨claim.generation, connection⟩ }

/-- `set_client_subscriptions`, for an order of the session's subscriptions; it stops at one that
is not valid. -/
def installSubscriptions (b : BrokerState) (clientId : String)
    (stored : List (String × StoredSubscription)) : BrokerState :=
  let requests := stored.map fun (filter, sub) => storedSubscriptionRequest clientId filter sub
  { b with
    subscriptions := (requests.takeWhile fun request => request.retainHandling ≤ 2).foldl
      (fun s request => s.place request.actualFilter request.subscription)
      (b.subscriptions.prune clientId requests) }

/-! ## A CONNECT packet -/

/-- How a CONNECT packet ends: with a session that is present or new, with a CONNACK that
refuses it, or with an error only. -/
inductive Ending where
  | connected (claim : Claim)
  | refused (refused : Refused)
  | closed (error : MqttError)
  | waiting

/-- `validate_will_capabilities`: the refusal of a Will, or the error alone. -/
def validateWillCapabilities (protocolVersion : UInt8) (connect : ConnectPacket) :
    Except Ending Unit :=
  match connect.will with
  | none => .ok ()
  | some will =>
    if will.qos.toU8 > settings.maximumQos then
      .error (.refused ⟨newConnack protocolVersion false .qoSNotSupported,
        .protocolError "Will QoS exceeds server maximum"⟩)
    else if will.retain && !settings.retainAvailable then
      .error (.refused ⟨newConnack protocolVersion false .retainNotSupported,
        .protocolError "Retain not supported"⟩)
    else if will.retain && settings.maxRetainedMessageSize > 0 &&
        will.payload.length > settings.maxRetainedMessageSize then
      let error := .protocolError "Retained Will exceeds the retained message size limit"
      if protocolVersion ≠ 4 then
        .error (.refused ⟨newConnack protocolVersion false .quotaExceeded, error⟩)
      else .error (.closed error)
    else .ok ()

/-- What the handling of a CONNECT packet meets: the outcome of the write, the times at which
the flows are claimed and given up, the order of the session's subscriptions, and the number
of the connection. -/
structure Circumstances where
  written : Except MqttError Unit := .ok ()
  now : SystemTime
  later : SystemTime
  order : Table String StoredSubscription → List (String × StoredSubscription)
  connection : Nat := 0

/-- `handle_session`. -/
def handleSession (b : BrokerState) (c : Circumstances) (protocolVersion : UInt8)
    (claimant : Claimant) :
    BrokerState × Ending :=
  if b.userMismatch claimant c.now then
    (b, .refused ⟨newConnack protocolVersion false .notAuthorized, .authenticationFailed⟩)
  else
    let (b, claim) := b.prepareClaim settings claimant c.now
    match b.sessions, c.written with
    | some _, .error error =>
      (b.abandonSessionFlows claimant.clientId claim.generation c.later,
        .refused ⟨newConnack protocolVersion false .serverUnavailable, error⟩)
    | _, _ =>
      let b := (b.writeClaim claim).registerSession claimant.clientId claim c.connection
      (b.installSubscriptions claimant.clientId (c.order claim.session.subscriptions),
        .connected claim)

/-- `complete_connect` up to the CONNACK, for what has been negotiated. -/
def completeConnect (b : BrokerState) (c : Circumstances) (negotiated : Negotiated) :
    BrokerState × Ending :=
  match negotiated with
  | .refused refused => (b, .refused refused)
  | .closed error => (b, .closed error)
  | .waiting _ => (b, .waiting)
  | .accepted handler pending =>
    match validateWillCapabilities settings handler.protocolVersion pending.connect with
    | .error ending => (b, ending)
    | .ok _ =>
      b.handleSession settings c handler.protocolVersion ⟨pending.connect, handler.userId⟩

/-- A CONNECT packet and the AUTH packets that follow it. -/
def connectClient (env : Surroundings) (provider : AuthProvider) (b : BrokerState)
    (c : Circumstances) (connect : ConnectPacket)
    (exchange : List (AuthPacket × Except MqttError EnhancedAuthResult)) : BrokerState × Ending :=
  b.completeConnect settings c (negotiateConnect env provider connect exchange)

/-! ## A refused CONNECT packet -/

/-- Nothing but the counter of the generations is different. -/
structure Unchanged (b b' : BrokerState) : Prop where
  subscriptions : b'.subscriptions = b.subscriptions
  queues : b'.queues = b.queues
  sessions : b'.sessions = b.sessions
  pendingWills : b'.pendingWills = b.pendingWills
  flows : b'.flows = b.flows
  clients : b'.clients = b.clients

theorem Unchanged.refl (b : BrokerState) : Unchanged b b := ⟨rfl, rfl, rfl, rfl, rfl, rfl⟩

/-- What the client has in the flow table, if anything, is a session to be resumed, of no
connection, and its flows are kept for longer than the claim takes. -/
def FlowsSettled (b : BrokerState) (claimant : Claimant) (c : Circumstances) : Prop :=
  ∀ s, b.flows.lookup claimant.clientId = some s →
    (b.resumable claimant.connect c.now).isSome = true ∧ s.owner = none ∧ s.failed = ∅ ∧
      s.flows ≠ ∅ ∧ ∀ id flow, s.flows.lookup id = some flow →
        flow.isKept c.now = true ∧ flow.isKept c.later = true

/-- A CONNECT packet that gets as far as the claim of a session only meets settled flows. -/
def ClaimsSettledFlows (b : BrokerState) (c : Circumstances) (negotiated : Negotiated) : Prop :=
  ∀ handler pending, negotiated = .accepted handler pending →
    validateWillCapabilities settings handler.protocolVersion pending.connect matches .ok _ →
    b.userMismatch ⟨pending.connect, handler.userId⟩ c.now = false →
    b.FlowsSettled ⟨pending.connect, handler.userId⟩ c

variable {settings} {b b' : BrokerState} {c : Circumstances} {claimant : Claimant}
  {refused : Refused}

/-- A failed write changes the flow table only. -/
theorem unchanged_abandon :
    Unchanged b ((b.prepareClaim settings claimant c.now).1.abandonSessionFlows claimant.clientId
        (b.prepareClaim settings claimant c.now).2.generation c.later) ↔
      b.FlowsSettled claimant c := by
  have hflows := withSessionFlows_abandoned b.flows claimant.clientId (b.generations + 1)
    (b.resumable claimant.connect c.now).isNone c.now c.later
  have hfresh : (b.resumable claimant.connect c.now).isNone = false ↔
      (b.resumable claimant.connect c.now).isSome = true := by
    cases b.resumable claimant.connect c.now <;> simp
  unfold FlowsSettled
  rw [← hfresh]
  rw [← hflows]
  constructor
  · exact fun h => h.flows
  · exact fun h => ⟨rfl, rfl, rfl, rfl, h, rfl⟩

theorem handleSession_refused {protocolVersion : UInt8}
    (h : b.handleSession settings c protocolVersion claimant = (b', .refused refused)) :
    (b.userMismatch claimant c.now ∧ b' = b) ∨
      (b.userMismatch claimant c.now = false ∧
        b' = (b.prepareClaim settings claimant c.now).1.abandonSessionFlows claimant.clientId
          (b.prepareClaim settings claimant c.now).2.generation c.later) := by
  unfold handleSession at h
  split at h
  · rename_i hmismatch
    exact Or.inl ⟨hmismatch, (Prod.mk.inj h).1.symm⟩
  · rename_i hmatch
    rw [Bool.not_eq_true] at hmatch
    dsimp only at h
    split at h
    · exact Or.inr ⟨hmatch, (Prod.mk.inj h).1.symm⟩
    · cases (Prod.mk.inj h).2

theorem unchanged_completeConnect {negotiated : Negotiated}
    (h : b.completeConnect settings c negotiated = (b', .refused refused)) :
    Unchanged b b' ↔ ClaimsSettledFlows settings b c negotiated := by
  cases negotiated with
  | refused _ =>
    rw [← (Prod.mk.inj h).1]
    exact iff_of_true (Unchanged.refl b) (fun _ _ hcase => nomatch hcase)
  | closed error | waiting handler => cases (Prod.mk.inj h).2
  | accepted handler pending =>
    dsimp only [completeConnect] at h
    cases hwill : validateWillCapabilities settings handler.protocolVersion pending.connect with
    | error _ =>
      rw [hwill] at h
      rw [← (Prod.mk.inj h).1]
      refine iff_of_true (Unchanged.refl b) ?_
      rintro handler' pending' hcase hok -
      cases hcase
      rw [hwill] at hok
      cases hok
    | ok _ =>
      rw [hwill] at h
      have hclaims : ClaimsSettledFlows settings b c (.accepted handler pending) ↔
          (b.userMismatch ⟨pending.connect, handler.userId⟩ c.now = false →
            b.FlowsSettled ⟨pending.connect, handler.userId⟩ c) := by
        constructor
        · exact fun hsettl hmatch => hsettl handler pending rfl (by rw [hwill]) hmatch
        · rintro hsettl handler' pending' hcase - hmatch
          cases hcase
          exact hsettl hmatch
      rw [hclaims]
      rcases handleSession_refused h with ⟨hmismatch, hsame⟩ | ⟨hmatch, habandoned⟩
      · rw [hsame, hmismatch]
        exact iff_of_true (Unchanged.refl b) (fun h => nomatch h)
      · rw [habandoned, unchanged_abandon]
        exact ⟨fun hsettl _ => hsettl, fun hsettl => hsettl hmatch⟩

/-- A CONNECT packet that is refused leaves the subscriptions, queued messages, stored sessions,
pending Wills, data flows and connections as they were if and only if the flows of its client
are settled in case it gets as far as the write of its claim. -/
theorem refused_connect_unchanged {env : Surroundings} {provider : AuthProvider}
    {connect : ConnectPacket} {exchange : List (AuthPacket × Except MqttError EnhancedAuthResult)}
    {refused : Refused}
    (h : connectClient settings env provider b c connect exchange = (b', .refused refused)) :
    Unchanged b b' ↔
      ClaimsSettledFlows settings b c (negotiateConnect env provider connect exchange) :=
  unchanged_completeConnect h

/-! ## A clean start that cannot be written -/

def visitor : ConnectPacket where
  protocolVersion := 5
  cleanStart := true
  keepAlive := 60
  clientId := "c"

def allowAll : AuthProvider :=
  ⟨fun _ => .ok { authenticated := true, reasonCode := .success }, none⟩

def diskFull : Circumstances where
  written := .error (.io "No space left on device")
  now := 5000000000
  later := 5000000000
  order := fun _ => []

/-- A broker that keeps the session of the client, with a data flow and a pending Will, while
another client is connected. -/
def waitingBroker : BrokerState where
  sessions := some ((singleton "c" (ClientSession.new "c" true (some 60) 0)).insert "d"
    ((ClientSession.new "d" true (some 60) 0).markConnected 1 0))
  clients := singleton "d" ⟨1, 0⟩
  pendingWills := singleton "c" 2
  flows := singleton "c" { flows := singleton 4 ⟨60000000000, .kept 60000000000⟩ }
  generations := 2

/-- The client comes back to its session while the disk is full, and nothing changes. -/
theorem refused_connect_unchanged_returning :
    ∃ b' refused, connectClient {} ⟨.tcp, fun _ => none, none⟩ allowAll waitingBroker diskFull
        { visitor with cleanStart := false } [] = (b', .refused refused) ∧
      Unchanged waitingBroker b' := by
  obtain ⟨b', refused, h⟩ : ∃ b' refused, connectClient {} ⟨.tcp, fun _ => none, none⟩ allowAll
      waitingBroker diskFull { visitor with cleanStart := false } [] = (b', .refused refused) :=
    ⟨_, _, rfl⟩
  refine ⟨b', refused, h, (refused_connect_unchanged h).mpr ?_⟩
  rintro handler pending hnegotiated - - s hs
  cases hnegotiated
  cases hs
  refine ⟨rfl, rfl, rfl, by decide, fun id flow hflow => ?_⟩
  obtain rfl : id = 4 := (Finmap.mem_singleton _ _ _).mp (Finmap.mem_of_lookup_eq_some hflow)
  cases hflow
  exact ⟨rfl, rfl⟩

/-- A broker to which the client is connected, with a data flow. -/
def connectedBroker : BrokerState where
  sessions := some (singleton "c"
    ((ClientSession.new "c" true (some 60) 0).markConnected 1 0))
  clients := singleton "c" ⟨1, 0⟩
  flows := singleton "c"
    { owner := some 1, flows := singleton 4 ⟨60000000000, .opened 1 8⟩ }
  generations := 1

/-- The connected client loses its flow, though the clean start is refused. -/
theorem refused_clean_start_clears_flows :
    ∃ b' refused, connectClient {} ⟨.tcp, fun _ => none, none⟩ allowAll connectedBroker diskFull
        visitor [] = (b', .refused refused) ∧
      b'.flows.lookup "c" = none ∧ ¬Unchanged connectedBroker b' := by
  refine ⟨_, _, rfl, rfl, fun hsame => ?_⟩
  have hflows := congrArg (fun flows => (flows.lookup "c").isSome) hsame.flows
  exact absurd hflows (by decide)

end BrokerState

end MqttLib.Broker
