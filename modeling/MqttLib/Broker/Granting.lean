/-
MqttLib.Broker.Granting

SUBSCRIBE packets against take-overs and storage failures (`client_handler/subscribe.rs`,
`client_handler/connect.rs`, `router.rs`): a packet is routed filter by filter, written to
the stored session and answered, while other connections claim the session.

The session slot is held from the first filter to the write or the restoring of the routes,
and by a claim from reading the stored session to installing its subscriptions.  The SUBACK
is written after the slot has been given back.

For each client identifier the router's maps are those with its own subscriptions; no
function here looks at another client's.  A storage is configured.
-/

import MqttLib.Broker.Subscribing

namespace MqttLib.Broker.Granting

open Foundation Protocol Storage Function List Option Finmap
open MqttLib.Broker.Subscribing

/-! ## State -/

/-- The answer to one filter of a SUBSCRIBE packet, and what has been routed for it. -/
structure Answer where
  filter : TopicFilter
  code : SubAckReasonCode
  stored : Option StoredSubscription

/-- Where a connection stands. -/
inductive Phase where
  | idle
  /-- The claim has read the stored session. -/
  | claiming (session : ClientSession) (resume : Bool)
  /-- The claimed session is stored. -/
  | claimed (session : ClientSession) (resume : Bool)
  /-- The router knows the connection. -/
  | registered (session : ClientSession)
  | serving
  /-- The filters of a packet have been looked at. -/
  | validated (packet : SubscribePacket) (flowId : Option UInt64)
      (codes : List (Option SubAckReasonCode))
  /-- Some of the filters have been routed. -/
  | routing (packet : SubscribePacket) (flowId : Option UInt64) (answers : List Answer)
      (rest : List (TopicFilter × Option SubAckReasonCode))
  /-- The routed filters are to be written. -/
  | routed (packet : SubscribePacket) (flowId : Option UInt64) (answers : List Answer)
  /-- The write has failed. -/
  | restoring
  /-- The SUBACK is to be written. -/
  | answering (packet : SubscribePacket) (flowId : Option UInt64) (answers : List Answer)
  | closed
  | gone

def Phase.holdsSlot : Phase → Bool
  | .claiming .. | .claimed .. | .registered _ | .routing .. | .routed .. | .restoring => true
  | _ => false

/-- From the registration to the release. -/
def Phase.active : Phase → Bool
  | .idle | .claiming .. | .claimed .. | .gone => false
  | _ => true

def Phase.isClaimed : Phase → Bool
  | .claimed .. => true
  | _ => false

/-- The session a claim is about. -/
def Phase.session : Phase → Option ClientSession
  | .claiming session _ | .claimed session _ | .registered session => some session
  | _ => none

structure Connection where
  protocolVersion : UInt8 := 5
  phase : Phase := .idle

/-- What the broker holds for one client identifier, and who claimed its session last. -/
structure Client where
  subscriptions : Subscriptions := {}
  session : Option ClientSession := none
  registered : Option UInt64 := none
  slot : Option UInt64 := none
  connections : UInt64 → Connection := fun _ => {}
  lastClaim : Option UInt64 := none

/-- A client is applied to a generation for its connection. -/
instance : CoeFun Client fun _ => UInt64 → Connection := ⟨Client.connections⟩

abbrev State := String → Client

def State.initial : State := fun _ => {}

/-! ## Operations -/

section

variable (settings : Settings) (clientId : String) (c : Client) (g : UInt64)

/-- What the handler functions read of a connection. -/
def Client.handler : Handler where
  clientId := clientId
  generation := g
  protocolVersion := (c.connections g).protocolVersion
  settings := settings

def Client.setPhase (phase : Phase) : Client :=
  { c with
    connections := update c.connections g { c.connections g with phase := phase } }

/-- `update_session`. -/
def updateSession (update : ClientSession → ClientSession) (stored : Option ClientSession) :
    Option ClientSession :=
  stored.map fun session => if session.connectionToken = g then update session else session

/-- The subscriptions of the stored session. -/
def Client.storedSubscriptions : Table String StoredSubscription :=
  match c.session with
  | some session => session.subscriptions
  | none => ∅

/-- `set_client_subscriptions` with the subscriptions in the order they are visited. -/
def install (listed : List (String × StoredSubscription)) (s : Subscriptions) : Subscriptions :=
  match s.setClientSubscriptions clientId listed with
  | .ok s => s
  | .error _ => s

/-- `handle_session` up to the claim, under the slot.  A session that may be resumed keeps its
subscriptions but those that are no longer authorized. -/
def Client.claim (protocolVersion : UInt8) (resumes : ClientSession → Bool)
    (unauthorized : List String) (expiry : UInt32) (now : SystemTime) : Option Client :=
  match (c.connections g).phase, c.slot with
  | .idle, none =>
    let resumable := c.session.filter resumes
    let session := match resumable with
      | some session => removeSubscriptions unauthorized session
      | none => ClientSession.new clientId true (some expiry) now
    let session := { session with
      expiryInterval := some expiry
      connectionToken := g }
    some { c with
      slot := some g
      connections := update c.connections g
        ⟨protocolVersion, .claiming session resumable.isSome⟩ }
  | _, _ => none

/-- `store_session` of the claim; where it fails the connection is refused. -/
def Client.storeClaim (ok : Bool) : Option Client :=
  match (c.connections g).phase with
  | .claiming session resume =>
    if ok then
      some { c.setPhase g (.claimed session resume) with
        session := some session
        lastClaim := some g }
    else some { c.setPhase g .gone with slot := none }
  | _ => none

/-- `register_session_as`: a fresh session starts without subscriptions. -/
def Client.register : Option Client :=
  match (c.connections g).phase with
  | .claimed session resume =>
    some { c.setPhase g (.registered session) with
      registered := some g
      subscriptions :=
        if resume then c.subscriptions else c.subscriptions.removeClientSubscriptions clientId }
  | _ => none

/-- The claimed session's subscriptions are installed, and the slot is given back. -/
def Client.endClaim (listed : List (String × StoredSubscription)) : Option Client :=
  match (c.connections g).phase with
  | .registered _ =>
    some { c.setPhase g .serving with
      subscriptions := install clientId listed c.subscriptions
      slot := none }
  | _ => none

/-- A SUBSCRIBE packet arrives: every filter is looked at; a protocol error closes the
connection. -/
def Client.receive (authorizeSubscribe : String → Bool) (flowId : Option UInt64)
    (packet : SubscribePacket) : Option Client :=
  match (c.connections g).phase with
  | .serving =>
    match packet.filters.mapM (validate authorizeSubscribe) with
    | .error _ => some (c.setPhase g .closed)
    | .ok codes => some (c.setPhase g (.validated packet flowId codes))
  | _ => none

def Client.lock : Option Client :=
  match (c.connections g).phase, c.slot with
  | .validated packet flowId codes, none =>
    some { c.setPhase g (.routing packet flowId [] (packet.filters.zip codes)) with
      slot := some g }
  | _, _ => none

/-- What has been routed, in the order of the filters. -/
def granted (answers : List Answer) : List (String × StoredSubscription) :=
  answers.filterMap fun answer => answer.stored.map fun stored => (answer.filter.filter, stored)

/-- One filter of `route_subscriptions`.  After the last one the packet is written, or answered
at once when no filter has been accepted. -/
def Client.route : Option Client :=
  match (c.connections g).phase with
  | .routing packet flowId answers [] =>
    if (granted answers).isEmpty then
      some { c.setPhase g (.answering packet flowId answers) with slot := none }
    else some (c.setPhase g (.routed packet flowId answers))
  | .routing packet flowId answers ((filter, some code) :: rest) =>
    some (c.setPhase g (.routing packet flowId (answers ++ [⟨filter, code, none⟩]) rest))
  | .routing packet flowId answers ((filter, none) :: rest) =>
    let h := c.handler settings clientId g
    match checkSubscriptionQuota h filter c.subscriptions with
    | some code =>
      some (c.setPhase g (.routing packet flowId (answers ++ [⟨filter, code, none⟩]) rest))
    | none =>
      let stored := storedSubscription h packet.properties.getSubscriptionIdentifier flowId filter
      match subscribeAs c.subscriptions (c.registered = some g)
          (storedSubscriptionRequest clientId filter.filter stored) with
      | .error _ => some (c.setPhase g .restoring)
      | .ok (_, .fenced) => some { c.setPhase g .serving with slot := none }
      | .ok (subscriptions, _) =>
        some { c.setPhase g (.routing packet flowId
            (answers ++ [⟨filter, .fromQos stored.qos, some stored⟩]) rest) with
          subscriptions := subscriptions }
  | _ => none

/-- `update_stored_session`. -/
def Client.write (ok : Bool) : Option Client :=
  match (c.connections g).phase with
  | .routed packet flowId answers =>
    if ok then
      some { c.setPhase g (.answering packet flowId answers) with
        session := updateSession g (addSubscriptions (granted answers)) c.session
        slot := none }
    else some (c.setPhase g .restoring)
  | _ => none

/-- `restore_stored_routes`; the connection ends. -/
def Client.restore (listed : List (String × StoredSubscription)) : Option Client :=
  match (c.connections g).phase with
  | .restoring =>
    some { c.setPhase g .closed with
      subscriptions := install clientId listed c.subscriptions
      slot := none }
  | _ => none

/-- The SUBACK. -/
def Client.answer : Option Client :=
  match (c.connections g).phase with
  | .answering .. => some (c.setPhase g .serving)
  | _ => none

/-- `handle_unsubscribe`, under the slot from its first filter to its write. -/
def Client.unsubscribe (flowId : Option UInt64) (filters : List String) (ok : Bool)
    (listed : List (String × StoredSubscription)) : Option Client :=
  match (c.connections g).phase, c.slot with
  | .serving, none =>
    if c.registered ≠ some g ∧ filters ≠ [] then some c
    else
      let (subscriptions, removed, _) :=
        unsubscribeEach (c.handler settings clientId g) flowId filters c.subscriptions
      if removed = [] then some { c with subscriptions := subscriptions }
      else if ok then
        some { c with
          subscriptions := subscriptions
          session := updateSession g (removeSubscriptions removed) c.session }
      else
        some { c.setPhase g .closed with
          subscriptions := install clientId listed subscriptions }
  | _, _ => none

/-- The connection fails, also between the write of a packet and its SUBACK. -/
def Client.fail : Option Client :=
  match (c.connections g).phase with
  | .serving | .validated .. | .answering .. => some (c.setPhase g .closed)
  | _ => none

/-- `release_ownership` under the slot: `ok` tells whether the stored session can be
removed. -/
def Client.release (preserved ok : Bool) : Option Client :=
  match (c.connections g).phase, c.slot with
  | .closed, none =>
    if c.registered = some g then
      some { c.setPhase g .gone with
        registered := none
        subscriptions :=
          if preserved then c.subscriptions
          else c.subscriptions.removeClientSubscriptions clientId
        session :=
          if preserved || !ok then c.session
          else c.session.filter fun session => session.connectionToken ≠ g }
    else some (c.setPhase g .gone)
  | _, _ => none

/-- `sweep_session` under the slot. -/
def Client.sweep (expired : Bool) : Option Client :=
  if c.slot = none ∧ c.registered = none then
    if expired || c.session.isNone then
      some { c with
        session := none
        subscriptions := c.subscriptions.removeClientSubscriptions clientId }
    else some c
  else none

end

/-! ## Steps -/

inductive Step where
  | claim (g : UInt64) (protocolVersion : UInt8) (resumes : ClientSession → Bool)
      (unauthorized : List String) (expiry : UInt32) (now : SystemTime)
  | storeClaim (g : UInt64) (ok : Bool)
  | register (g : UInt64)
  | endClaim (g : UInt64) (listed : List (String × StoredSubscription))
  | receive (g : UInt64) (authorizeSubscribe : String → Bool) (flowId : Option UInt64)
      (packet : SubscribePacket)
  | lock (g : UInt64)
  | route (g : UInt64)
  | write (g : UInt64) (ok : Bool)
  | restore (g : UInt64) (listed : List (String × StoredSubscription))
  | answer (g : UInt64)
  | unsubscribe (g : UInt64) (flowId : Option UInt64) (filters : List String) (ok : Bool)
      (listed : List (String × StoredSubscription))
  | fail (g : UInt64)
  | release (g : UInt64) (preserved ok : Bool)
  | sweep (expired : Bool)

def Client.step (settings : Settings) (clientId : String) (c : Client) : Step → Option Client
  | .claim g protocolVersion resumes unauthorized expiry now =>
    c.claim clientId g protocolVersion resumes unauthorized expiry now
  | .storeClaim g ok => c.storeClaim g ok
  | .register g => c.register clientId g
  | .endClaim g listed => c.endClaim clientId g listed
  | .receive g authorizeSubscribe flowId packet => c.receive g authorizeSubscribe flowId packet
  | .lock g => c.lock g
  | .route g => c.route settings clientId g
  | .write g ok => c.write g ok
  | .restore g listed => c.restore clientId g listed
  | .answer g => c.answer g
  | .unsubscribe g flowId filters ok listed =>
    c.unsubscribe settings clientId g flowId filters ok listed
  | .fail g => c.fail g
  | .release g preserved ok => c.release clientId g preserved ok
  | .sweep expired => c.sweep clientId expired

/-- A step for one client identifier. -/
structure Action where
  clientId : String
  step : Step

def act (settings : Settings) (s : State) (a : Action) : Option State :=
  ((s a.clientId).step settings a.clientId a.step).map (update s a.clientId)

/-- The subscriptions are visited in some order of the table they are stored in. -/
def Client.Listed (c : Client) : Step → Prop
  | .endClaim g listed => ∀ session, (c.connections g).phase.session = some session →
    Table.Lists session.subscriptions listed
  | .restore _ listed | .unsubscribe _ _ _ _ listed => Table.Lists c.storedSubscriptions listed
  | _ => True

def Listed (s : State) (a : Action) : Prop := (s a.clientId).Listed a.step

/-! ## What a packet has been granted -/

/-- The codes that grant a filter. -/
def grants : SubAckReasonCode → Bool
  | .grantedQoS0 | .grantedQoS1 | .grantedQoS2 => true
  | _ => false

open Granting.Client

theorem grants_fromQos (qos : QoS) : grants (.fromQos qos) := by
  cases qos <;> rfl

/-- The last of the entries for a filter. -/
def latest (entries : List (String × StoredSubscription)) (filter : String) :
    Option StoredSubscription :=
  entries.reverse.lookup filter

theorem latest_append (entries : List (String × StoredSubscription)) (added filter : String)
    (stored : StoredSubscription) : latest (entries ++ [(added, stored)]) filter =
      if filter = added then some stored else latest entries filter := by
  unfold latest
  rw [reverse_append]
  show lookup filter ((added, stored) :: entries.reverse) = _
  rw [lookup_cons]
  by_cases hfilt : filter = added
  · simp [hfilt]
  · have hne : (filter == added) = false := by simpa using hfilt
    simp [hne, hfilt]

theorem lookup_addAll (entries : List (String × StoredSubscription))
    (stored : Table String StoredSubscription) (filter : String) :
    (entries.foldl (fun stored entry => stored.insert entry.1 entry.2) stored).lookup filter =
      (latest entries filter).or (stored.lookup filter) := by
  induction entries using reverseRecOn with
  | nil => rfl
  | append_singleton entries entry ih =>
    obtain ⟨added, _⟩ := entry
    rw [foldl_append, foldl_cons, foldl_nil, latest_append]
    by_cases hfilt : filter = added
    · subst hfilt
      rw [lookup_insert, if_pos rfl]
      rfl
    · rw [lookup_insert_of_ne _ hfilt, ih, if_neg hfilt]

variable {entries : List (String × StoredSubscription)} {filter : String}
  {stored : StoredSubscription} {clientId : String}

theorem mem_of_latest (h : latest entries filter = some stored) : (filter, stored) ∈ entries := by
  induction entries using reverseRecOn with
  | nil => cases h
  | append_singleton entries entry ih =>
    obtain ⟨_, _⟩ := entry
    rw [latest_append] at h
    split at h
    · rename_i hfilt
      cases h
      subst hfilt
      exact mem_append_right _ mem_cons_self
    · exact mem_append_left _ (ih h)

theorem granted_append (answers : List Answer) (answer : Answer) :
    granted (answers ++ [answer]) = granted answers ++ granted [answer] :=
  filterMap_append

theorem mem_granted {answers : List Answer} :
    (filter, stored) ∈ granted answers ↔
      ∃ answer ∈ answers, answer.filter.filter = filter ∧ answer.stored = some stored := by
  unfold granted
  rw [mem_filterMap]
  constructor
  · rintro ⟨answer, hmem, hmap⟩
    obtain ⟨_, hvalue, heq⟩ := map_eq_some_iff.mp hmap
    cases heq
    exact ⟨answer, hmem, rfl, hvalue⟩
  · rintro ⟨answer, hmem, rfl, hsto⟩
    exact ⟨answer, hmem, by rw [hsto]; rfl⟩

/-- The router holds the last subscription of each filter. -/
def Placed (clientId : String) (s : Subscriptions) (entries : List (String × StoredSubscription)) :
    Prop :=
  ∀ filter stored, latest entries filter = some stored →
    subscriptionOf clientId filter stored ∈ s.get (keyOf filter)

theorem Placed.place {s : Subscriptions} (hplaced : Placed clientId s entries) :
    Placed clientId (s.place (keyOf filter) (subscriptionOf clientId filter stored))
      (entries ++ [(filter, stored)]) := by
  intro filter' stored' hlat
  rw [latest_append] at hlat
  rw [Subscriptions.mem_place]
  split at hlat
  · rename_i hfilt
    cases hlat
    subst hfilt
    exact .inl ⟨rfl, rfl⟩
  · rename_i hfilt
    refine .inr ⟨hplaced filter' stored' hlat, ?_⟩
    rintro ⟨hkey, hident⟩
    exact hfilt (filter_eq_of_identity hkey (congrArg (fun i => i.2.1) hident))

/-! ## The invariant -/

section

variable {settings : Settings} {clientId : String} {c c' : Client} {g j : UInt64}

/-- Every answer tells what became of its filter. -/
structure Answer.Good (h : Handler) (packet : SubscribePacket) (flowId : Option UInt64)
    (answer : Answer) : Prop where
  refused : answer.stored = none → grants answer.code = false
  accepted : ∀ stored, answer.stored = some stored →
    stored = storedSubscription h packet.properties.getSubscriptionIdentifier flowId answer.filter ∧
      answer.code = .fromQos stored.qos

/-- The router can install every entry of the session. -/
def Installable (subscriptions : Table String StoredSubscription) : Prop :=
  ∀ filter stored, subscriptions.lookup filter = some stored → stored.retainHandling ≤ 2

/-- The stored session is the connection's, with what it has been granted. -/
def Client.Holds (c : Client) (g : UInt64) (entries : List (String × StoredSubscription)) : Prop :=
  ∃ session, c.session = some session ∧ session.connectionToken = g ∧
    ∀ filter stored, latest entries filter = some stored →
      session.subscriptions.lookup filter = some stored

/-- What is known of a packet at each phase. -/
def Client.Progress (settings : Settings) (clientId : String) (c : Client) (g : UInt64) :
    Phase → Prop
  | .registered _ => c.registered = some g
  | .validated _ _ codes => ∀ code, some code ∈ codes → grants code = false
  | .routing packet flowId answers rest =>
    (∀ answer ∈ answers, answer.Good (c.handler settings clientId g) packet flowId) ∧
    (∀ filter code, (filter, some code) ∈ rest → grants code = false) ∧
    (granted answers ≠ [] → c.registered = some g) ∧
    Placed clientId c.subscriptions (granted answers)
  | .routed packet flowId answers =>
    (∀ answer ∈ answers, answer.Good (c.handler settings clientId g) packet flowId) ∧
    c.registered = some g ∧ Placed clientId c.subscriptions (granted answers)
  | .restoring => c.registered = some g
  | .answering packet flowId answers =>
    (∀ answer ∈ answers, answer.Good (c.handler settings clientId g) packet flowId) ∧
    (granted answers ≠ [] → c.lastClaim = some g →
      Placed clientId c.subscriptions (granted answers) ∧ c.Holds g (granted answers))
  | _ => True

structure Sound (settings : Settings) (clientId : String) (c : Client) : Prop where
  slot : ∀ k, (c.connections k).phase.holdsSlot = true → c.slot = some k
  stored : Installable c.storedSubscriptions
  claims : ∀ k session, (c.connections k).phase.session = some session →
    Installable session.subscriptions ∧ session.connectionToken = k
  claimed : ∀ k, (c.connections k).phase.isClaimed = true →
    c.lastClaim = some k ∧ c.Holds k []
  owner : ∀ k, c.registered = some k → (c.connections k).phase.active = true ∧
    ((∀ j, (c.connections j).phase.isClaimed = false) → c.Holds k [])
  current : ∀ k, (c.connections k).phase.active = true → c.lastClaim = some k →
    c.registered = some k
  progress : ∀ k, c.Progress settings clientId k (c.connections k).phase

theorem Sound.initial : Sound settings clientId {} where
  slot := fun _ h => (Bool.false_ne_true h).elim
  stored := by
    intro _ stored h
    rw [show storedSubscriptions {} = ∅ from rfl, lookup_empty] at h
    cases h
  claims := fun _ _ h => (some_ne_none _ h.symm).elim
  claimed := fun _ h => (Bool.false_ne_true h).elim
  owner := fun _ h => (some_ne_none _ h.symm).elim
  current := fun _ h => (Bool.false_ne_true h).elim
  progress := fun _ => trivial

variable {phase : Phase} {connection : Connection} {k : UInt64} {filter : TopicFilter} {ok : Bool}
  {listed : List (String × StoredSubscription)} {authorizeSubscribe : String → Bool}
  {code : SubAckReasonCode} {flowId : Option UInt64} {packet : SubscribePacket}
  {answers : List Answer}

theorem Phase.isClaimed_of_free (h : phase.holdsSlot = false) : phase.isClaimed = false := by
  cases phase <;> first | rfl | cases h

theorem Phase.isClaimed_of_active (h : phase.active) : phase.isClaimed = false := by
  cases phase <;> first | rfl | cases h

theorem Client.Progress.congr (hprog : c.Progress settings clientId g phase)
    (hhandler : c'.handler settings clientId g = c.handler settings clientId g)
    (hsame : phase.holdsSlot ∨ (phase.active ∧ c'.lastClaim = some g) →
      c'.subscriptions = c.subscriptions ∧ c'.session = c.session ∧
        c'.registered = c.registered ∧ c'.lastClaim = c.lastClaim) :
    c'.Progress settings clientId g phase := by
  cases phase with
  | routing packet flowId answers rest | routed packet flowId answers =>
    obtain ⟨hsubs, -, hreg, -⟩ := hsame (.inl rfl)
    simp only [Client.Progress, hhandler, hsubs, hreg]
    exact hprog
  | restoring | registered session =>
    obtain ⟨-, -, hreg, -⟩ := hsame (.inl rfl)
    exact hreg.trans hprog
  | answering packet flowId answers =>
    refine ⟨hhandler ▸ hprog.1, fun hgranted hlast => ?_⟩
    obtain ⟨hsubs, hsess, -, hlastClaim⟩ := hsame (.inr ⟨rfl, hlast⟩)
    rw [hsubs, Client.Holds, hsess]
    exact hprog.2 hgranted (hlastClaim ▸ hlast)
  | validated packet flowId _ => exact hprog
  | _ => trivial

theorem Client.connections_setPhase (c : Client) (g : UInt64) (phase : Phase) :
    (c.setPhase g phase).connections =
      update c.connections g { c g with phase := phase } :=
  rfl

theorem Client.handler_of_other
    (hconns : c'.connections = update c.connections g connection) (hk : k ≠ g) :
    c'.handler settings clientId k = c.handler settings clientId k := by
  unfold handler
  rw [hconns, update_of_ne hk]

section

variable (hs : Sound settings clientId c)
include hs

/-- A step of one connection that changes nothing the others share but the slot. -/
theorem Sound.quiet (hconns : c'.connections = update c.connections g connection)
    (hsame : c'.subscriptions = c.subscriptions ∧ c'.session = c.session ∧
      c'.registered = c.registered ∧ c'.lastClaim = c.lastClaim)
    (hself : connection.phase.holdsSlot → c'.slot = some g)
    (hoth : ∀ k, k ≠ g → (c k).phase.holdsSlot → c'.slot = some k)
    (hclaims : ∀ session, connection.phase.session = some session →
      Installable session.subscriptions ∧ session.connectionToken = g)
    (hunclaimed : connection.phase.isClaimed = false ∧ (c g).phase.isClaimed = false)
    (hactv : connection.phase.active = (c g).phase.active ∨
      (connection.phase.active = false ∧ c.registered ≠ some g))
    (hprog : c'.Progress settings clientId g connection.phase) :
    Sound settings clientId c' := by
  obtain ⟨hsubs, hsess, hreg, hlast⟩ := hsame
  have hclmd : ∀ k, (c' k).phase.isClaimed = (c k).phase.isClaimed :=
    forall_update hconns (hunclaimed.1.trans hunclaimed.2.symm) fun _ _ => rfl
  have hhold : ∀ k entries, c'.Holds k entries ↔ c.Holds k entries := by
    intro k entries
    unfold Client.Holds
    rw [hsess]
  have hstays : ∀ k, c.registered = some k → (c' k).phase.active := by
    refine forall_update hconns (fun hg => ?_) fun k _ hk => (hs.owner k hk).1
    rcases hactv with h | h
    · rw [h]
      exact (hs.owner g hg).1
    · exact (h.2 hg).elim
  refine ⟨forall_update hconns hself hoth, ?_,
    forall_update hconns hclaims fun k _ => hs.claims k, ?_, ?_, ?_, ?_⟩
  · rw [storedSubscriptions, hsess]
    exact hs.stored
  · intro k hk
    rw [hclmd] at hk
    rw [hlast, hhold]
    exact hs.claimed k hk
  · intro k hk
    rw [hreg] at hk
    refine ⟨hstays k hk, fun hnone => ?_⟩
    rw [hhold]
    exact (hs.owner k hk).2 fun j => (hclmd j).symm.trans (hnone j)
  · rw [hlast, hreg]
    refine forall_update hconns (fun hgactive => hs.current g ?_) fun k _ => hs.current k
    rcases hactv with h | h
    · rw [← h]
      exact hgactive
    · rw [h.1] at hgactive
      cases hgactive
  · exact forall_update hconns hprog fun k hk =>
      (hs.progress k).congr (handler_of_other hconns hk)
        fun _ => ⟨hsubs, hsess, hreg, hlast⟩

/-- A claim that has stored its session would hold the slot, and the owner has registered. -/
theorem Sound.unclaimed (hown : c.registered = some g)
    (hfree : ∀ k, k ≠ g → (c k).phase.holdsSlot = false) (k : UInt64) :
    (c k).phase.isClaimed = false := by
  by_cases hk : k = g
  · rw [hk]
    exact Phase.isClaimed_of_active (hs.owner g hown).1
  · exact Phase.isClaimed_of_free (hfree k hk)

/-- A step of the registered connection while no other connection holds the slot. -/
theorem Sound.owned (hconns : c'.connections = update c.connections g connection)
    (hown : c.registered = some g) (hfree : ∀ k, k ≠ g → (c k).phase.holdsSlot = false)
    (hself : connection.phase.holdsSlot → c'.slot = some g)
    (hsto : Installable c'.storedSubscriptions) (hsess : c.Holds g [] → c'.Holds g [])
    (hlastClaim : c'.lastClaim = c.lastClaim) (hreg : c'.registered = some g)
    (hph : connection.phase.active ∧ connection.phase.session = none)
    (hprog : c'.Progress settings clientId g connection.phase) :
    Sound settings clientId c' := by
  have hunclaimed := hs.unclaimed hown hfree
  have hgsession := hsess ((hs.owner g hown).2 hunclaimed)
  refine ⟨?_, hsto, ?_, ?_, ?_, ?_, ?_⟩
  · refine forall_update hconns hself fun k hk hhold => ?_
    rw [hfree k hk] at hhold
    cases hhold
  · refine forall_update hconns (fun session hsess => ?_) fun k _ => hs.claims k
    rw [hph.2] at hsess
    cases hsess
  · refine forall_update hconns (fun hclmd => ?_) fun k _ hclmd => ?_
    · rw [Phase.isClaimed_of_active hph.1] at hclmd
      cases hclmd
    · rw [hunclaimed k] at hclmd
      cases hclmd
  · intro k hk
    rw [hreg] at hk
    cases hk
    rw [hconns, update_self]
    exact ⟨hph.1, fun _ => hgsession⟩
  · rw [hlastClaim, hreg, ← hown]
    exact forall_update hconns (fun _ _ => hown) fun k _ => hs.current k
  · refine forall_update hconns hprog fun k hk => ?_
    refine (hs.progress k).congr (handler_of_other hconns hk) ?_
    rintro (hhold | ⟨hkactive, hlast⟩)
    · rw [hfree k hk] at hhold
      cases hhold
    · -- the last claim is the owner's
      rw [hlastClaim] at hlast
      have hboth := hs.current k hkactive hlast
      rw [hown] at hboth
      exact (hk (some.inj hboth).symm).elim

/-! ## The steps -/

theorem Sound.free_of_slot (hslot : c.slot = none) (k : UInt64) :
    (c k).phase.holdsSlot = false := by
  cases hk : (c k).phase.holdsSlot with
  | false => rfl
  | true =>
    rw [hs.slot k hk] at hslot
    cases hslot

theorem Sound.holder_unique (hhold : (c g).phase.holdsSlot) (hk : (c k).phase.holdsSlot) : k = g :=
  some.inj ((hs.slot k hk).symm.trans (hs.slot g hhold))

theorem Sound.free_of_holds (hhold : (c g).phase.holdsSlot) (hk : k ≠ g) :
    (c k).phase.holdsSlot = false :=
  Bool.eq_false_iff.mpr fun hoth => hk (hs.holder_unique hhold hoth)

theorem Sound.progressAt (hph : (c g).phase = phase) : c.Progress settings clientId g phase :=
  hph ▸ hs.progress g

/-- A step of one connection that changes nothing but its phase, and does not lock. -/
theorem Sound.move (hhold : phase.holdsSlot → (c g).phase.holdsSlot) (hsess : phase.session = none)
    (hactv : phase.active ∧ (c g).phase.active) (hprog : c.Progress settings clientId g phase) :
    Sound settings clientId (c.setPhase g phase) := by
  refine hs.quiet rfl ⟨rfl, rfl, rfl, rfl⟩ (fun h => hs.slot g (hhold h))
    (fun k _ hk => hs.slot k hk) ?_
    ⟨Phase.isClaimed_of_active hactv.1, Phase.isClaimed_of_active hactv.2⟩
    (.inl (hactv.1.trans hactv.2.symm)) ?_
  · intro session h
    rw [hsess] at h
    cases h
  · refine hprog.congr ?_ (fun _ => ⟨rfl, rfl, rfl, rfl⟩)
    simp [handler, setPhase]

/-- A step of one connection that gives the slot back and changes nothing else. -/
theorem Sound.unlock (hhold : (c g).phase.holdsSlot)
    (hph : phase.holdsSlot = false ∧ phase.session = none ∧ phase.isClaimed = false)
    (hunclaimed : (c g).phase.isClaimed = false) (hactv : phase.active = (c g).phase.active)
    (hprog : c.Progress settings clientId g phase) :
    Sound settings clientId { c.setPhase g phase with slot := none } := by
  obtain ⟨hfree, hsess, hnotClaimed⟩ := hph
  refine hs.quiet rfl ⟨rfl, rfl, rfl, rfl⟩ ?_ ?_ ?_ ⟨hnotClaimed, hunclaimed⟩ (.inl hactv) ?_
  · intro h
    rw [hfree] at h
    cases h
  · exact fun k hk h => (hk (hs.holder_unique hhold h)).elim
  · intro session h
    rw [hsess] at h
    cases h
  · refine hprog.congr ?_ (fun _ => ⟨rfl, rfl, rfl, rfl⟩)
    simp [handler, setPhase]

end

theorem lookup_eraseAll {filters : List String} {stored : Table String StoredSubscription}
    {filter : String} {entry : StoredSubscription}
    (h : (filters.foldl (fun stored filter => stored.erase filter) stored).lookup filter =
      some entry) : stored.lookup filter = some entry := by
  induction filters generalizing stored with
  | nil => exact h
  | cons _ _ ih =>
    exact (Table.of_lookup_erase (ih h)).2

theorem Installable.removeSubscriptions {session : ClientSession}
    (h : Installable session.subscriptions) (filters : List String) :
    Installable (removeSubscriptions filters session).subscriptions :=
  fun filter stored hlook => h filter stored (lookup_eraseAll hlook)

section

variable (hs : Sound settings clientId c)
include hs

theorem Sound.installable {session : ClientSession}
    (h : c.session = some session) : Installable session.subscriptions := by
  have hsto := hs.stored
  rwa [storedSubscriptions, h] at hsto

theorem Sound.claim {protocolVersion : UInt8} {resumes : ClientSession → Bool}
    {unauthorized : List String} {expiry : UInt32} {now : SystemTime}
    (hstep : c.claim clientId g protocolVersion resumes unauthorized expiry now = some c') :
    Sound settings clientId c' := by
  unfold Client.claim at hstep
  dsimp only at hstep
  split at hstep
  · rename_i hph hslot
    cases hstep
    refine hs.quiet rfl ⟨rfl, rfl, rfl, rfl⟩ (fun _ => rfl) ?_ ?_
      ⟨rfl, by rw [hph]; rfl⟩ (.inl (by rw [hph]; rfl)) trivial
    · intro k _ hk
      rw [hs.free_of_slot hslot k] at hk
      cases hk
    · intro session hsess
      cases hsess
      refine ⟨?_, rfl⟩
      cases hresumable : c.session.filter resumes with
      | none =>
        intro filter _ hlook
        rw [show (ClientSession.new clientId true (some expiry) now).subscriptions = ∅ from rfl,
          lookup_empty] at hlook
        cases hlook
      | some session =>
        exact (hs.installable (filter_eq_some_iff.mp hresumable).1).removeSubscriptions _
  · cases hstep

theorem Sound.storeClaim (hstep : c.storeClaim g ok = some c') : Sound settings clientId c' := by
  unfold Client.storeClaim at hstep
  split at hstep
  · rename_i session resume hph
    have hhold : (c g).phase.holdsSlot := by rw [hph]; rfl
    have hslot := hs.slot g hhold
    obtain ⟨hinst, htoken⟩ := hs.claims g session (by rw [hph]; rfl)
    split at hstep
    · cases hstep
      have hconns := connections_setPhase c g (.claimed session resume)
      refine ⟨?_, hinst, ?_, ?_, ?_, ?_, ?_⟩
      · exact forall_update hconns (fun _ => hslot)
          fun k hk hk' => (hk (hs.holder_unique hhold hk')).elim
      · refine forall_update hconns (fun _ hsess => ?_) fun k _ => hs.claims k
        cases hsess
        exact ⟨hinst, htoken⟩
      · refine forall_update hconns (fun _ => ⟨rfl, session, rfl, htoken, nofun⟩) fun k hk hk' => ?_
        rw [Phase.isClaimed_of_free (hs.free_of_holds hhold hk)] at hk'
        cases hk'
      · intro k hk'
        have hkactive := (hs.owner k hk').1
        refine ⟨?_, fun hnone => ?_⟩
        · revert hkactive
          refine forall_update hconns (fun hgactive => ?_) (fun _ _ h => h) k
          rw [hph] at hgactive
          cases hgactive
        · have hnot := hnone g
          simp [setPhase, Phase.isClaimed] at hnot
      · intro k hk' hlast
        cases hlast
        simp [setPhase, Phase.active] at hk'
      · refine forall_update hconns trivial fun k hk => ?_
        refine (hs.progress k).congr (handler_of_other rfl hk) ?_
        rintro (hkholds | ⟨-, hlast⟩)
        · exact (hk (hs.holder_unique hhold hkholds)).elim
        · cases hlast
          exact (hk rfl).elim
    · cases hstep
      exact hs.unlock hhold ⟨rfl, rfl, rfl⟩ (by rw [hph]; rfl) (by rw [hph]; rfl) trivial
  · cases hstep

theorem Sound.register (hstep : c.register clientId g = some c') : Sound settings clientId c' := by
  unfold Client.register at hstep
  split at hstep
  · rename_i session _ hph
    have hhold : (c g).phase.holdsSlot := by rw [hph]; rfl
    have hslot := hs.slot g hhold
    obtain ⟨hlast, hgholds⟩ := hs.claimed g (by rw [hph]; rfl)
    cases hstep
    have hconns := connections_setPhase c g (.registered session)
    refine ⟨?_, hs.stored, ?_, ?_, ?_, ?_, ?_⟩
    · exact forall_update hconns (fun _ => hslot)
        fun k hk hk' => (hk (hs.holder_unique hhold hk')).elim
    · refine forall_update hconns (fun _ hsess => ?_) fun k _ => hs.claims k
      cases hsess
      exact hs.claims g session (by rw [hph]; rfl)
    · refine forall_update hconns nofun fun k hk hk' => ?_
      rw [Phase.isClaimed_of_free (hs.free_of_holds hhold hk)] at hk'
      cases hk'
    · intro k hk'
      cases hk'
      refine ⟨?_, fun _ => hgholds⟩
      simp [setPhase, Phase.active]
    · intro k _ hk'
      exact hlast.symm.trans hk'
    · refine forall_update hconns rfl fun k hk => ?_
      refine (hs.progress k).congr (handler_of_other rfl hk) ?_
      rintro (hkholds | ⟨-, hklast⟩)
      · exact (hk (hs.holder_unique hhold hkholds)).elim
      · exact (hk (some.inj (hklast.symm.trans hlast))).elim
  · cases hstep

theorem Sound.endClaim
    (hstep : c.endClaim clientId g listed = some c') : Sound settings clientId c' := by
  unfold Client.endClaim at hstep
  split at hstep
  · rename_i hph
    have hhold : (c g).phase.holdsSlot := by rw [hph]; rfl
    have hreg : c.registered = some g := hs.progressAt hph
    cases hstep
    exact hs.owned rfl hreg (fun k hk => hs.free_of_holds hhold hk) nofun hs.stored id rfl
      hreg ⟨rfl, rfl⟩ trivial
  · cases hstep

end

/-- A filter that is not accepted at once is refused. -/
theorem grants_of_validate (h : validate authorizeSubscribe filter = .ok (some code)) :
    grants code = false := by
  unfold validate Acl.validateSubscribeFilter at h
  dsimp only at h
  split at h
  · cases h
  split at h
  · cases h
    rfl
  · split at h
    · cases h
      rfl
    · split at h
      · cases h
        rfl
      · cases h

theorem grants_of_mapM {filters : List TopicFilter} {codes : List (Option SubAckReasonCode)}
    (h : filters.mapM (validate authorizeSubscribe) = .ok codes)
    (hmem : some code ∈ codes) : grants code = false := by
  induction filters generalizing codes with
  | nil =>
    cases h
    cases hmem
  | cons filter rest ih =>
    rw [mapM_cons] at h
    cases hfirst : validate authorizeSubscribe filter with
    | error error =>
      rw [hfirst] at h
      cases h
    | ok _ =>
      cases hrest : rest.mapM (validate authorizeSubscribe) with
      | error error =>
        rw [hfirst, hrest] at h
        cases h
      | ok _ =>
        rw [hfirst, hrest] at h
        cases h
        rcases mem_cons.mp hmem with hhead | htail
        · rw [← hhead] at hfirst
          exact grants_of_validate hfirst
        · exact ih hrest htail

theorem Sound.receive (hs : Sound settings clientId c)
    (hstep : c.receive g authorizeSubscribe flowId packet = some c') :
    Sound settings clientId c' := by
  unfold Client.receive at hstep
  split at hstep
  · rename_i hph
    have hactv : (c g).phase.active := by rw [hph]; rfl
    split at hstep
    · cases hstep
      exact hs.move nofun rfl ⟨rfl, hactv⟩ trivial
    · rename_i hcodes
      cases hstep
      exact hs.move nofun rfl ⟨rfl, hactv⟩ (fun _ hmem => grants_of_mapM hcodes hmem)
  · cases hstep

theorem Sound.lock (hs : Sound settings clientId c) (hstep : c.lock g = some c') :
    Sound settings clientId c' := by
  unfold Client.lock at hstep
  split at hstep
  · rename_i hph hslot
    have hcodes := hs.progress g
    rw [hph] at hcodes
    cases hstep
    refine hs.quiet rfl ⟨rfl, rfl, rfl, rfl⟩ (fun _ => rfl) ?_
      (fun _ h => (some_ne_none _ h.symm).elim) ⟨rfl, by rw [hph]; rfl⟩
      (.inl (by rw [hph]; rfl))
      ⟨fun _ h => (not_mem_nil h).elim, ?_, fun h => (h rfl).elim,
        fun _ _ h => (some_ne_none _ h.symm).elim⟩
    · intro k _ hk
      rw [hs.free_of_slot hslot k] at hk
      cases hk
    · exact fun _ code hmem => hcodes code (of_mem_zip hmem).2
  · cases hstep

/-- The handler of a connection does not depend on its phase. -/
theorem Client.handler_setPhase (phase : Phase) :
    (c.setPhase g phase).handler settings clientId g = c.handler settings clientId g := by
  simp [handler, setPhase]

theorem Client.handler_setPhase_subscriptions (phase : Phase) (s : Subscriptions) :
    handler settings clientId { c.setPhase g phase with subscriptions := s } g =
      c.handler settings clientId g :=
  handler_setPhase phase

/-- A refused filter adds its answer and nothing else. -/
theorem Sound.refuse {reasonCode : Option SubAckReasonCode}
    {rest : List (TopicFilter × Option SubAckReasonCode)} (hs : Sound settings clientId c)
    (hph : (c g).phase = .routing packet flowId answers ((filter, reasonCode) :: rest))
    (hcode : grants code = false) :
    Sound settings clientId
      (c.setPhase g (.routing packet flowId (answers ++ [⟨filter, code, none⟩]) rest)) := by
  obtain ⟨hgood, hrest, hown, hplaced⟩ := hs.progressAt hph
  have hgranted : granted (answers ++ [⟨filter, code, none⟩]) = granted answers := by
    rw [granted_append]
    exact append_nil _
  refine hs.move (fun _ => by rw [hph]; rfl) rfl ⟨rfl, by rw [hph]; rfl⟩ ⟨?_, ?_, ?_, ?_⟩
  · intro answer hmem
    rcases mem_append.mp hmem with hold | hnew
    · exact hgood answer hold
    · rw [mem_singleton.mp hnew]
      exact ⟨fun _ => hcode, nofun⟩
  · exact fun filter' code' hmem => hrest filter' code' (mem_cons_of_mem _ hmem)
  · rw [hgranted]
    exact hown
  · rw [hgranted]
    exact hplaced

theorem grants_of_quota {h : Handler} {s : Subscriptions}
    (hcode : checkSubscriptionQuota h filter s = some code) : grants code = false := by
  obtain ⟨-, rfl⟩ := ite_some_none_eq_some.mp hcode
  rfl

theorem Sound.route (hs : Sound settings clientId c)
    (hstep : c.route settings clientId g = some c') : Sound settings clientId c' := by
  unfold Client.route at hstep
  split at hstep
  · -- every filter has its answer
    rename_i packet flowId answers hph
    obtain ⟨hgood, -, hown, hplaced⟩ := hs.progressAt hph
    have hhold : (c g).phase.holdsSlot := by rw [hph]; rfl
    split at hstep
    · rename_i hemp
      cases hstep
      refine hs.unlock hhold ⟨rfl, rfl, rfl⟩ (by rw [hph]; rfl) (by rw [hph]; rfl)
        ⟨hgood, fun hne => ?_⟩
      exact (hne (isEmpty_iff.mp hemp)).elim
    · rename_i hne
      cases hstep
      refine hs.move (fun _ => hhold) rfl ⟨rfl, by rw [hph]; rfl⟩ ⟨hgood, hown ?_, hplaced⟩
      exact fun hemp => hne (isEmpty_iff.mpr hemp)
  · rename_i packet flowId answers filter code rest hph
    cases hstep
    exact hs.refuse hph ((hs.progressAt hph).2.1 filter code mem_cons_self)
  · rename_i packet flowId answers filter rest hph
    dsimp only at hstep
    split at hstep
    · rename_i code hcode
      cases hstep
      exact hs.refuse hph (grants_of_quota hcode)
    · have hhold : (c g).phase.holdsSlot := by rw [hph]; rfl
      have hactv : (c g).phase.active := by rw [hph]; rfl
      obtain ⟨hgood, hrest, -, hplaced⟩ := hs.progressAt hph
      obtain ⟨_, hnew, hsubd⟩ := Subscriptions.subscribe_ok c.subscriptions
        (storedSubscriptionRequest clientId filter.filter (storedSubscription
          (c.handler settings clientId g) packet.properties.getSubscriptionIdentifier flowId
            filter))
        (retainHandling_storedSubscription (c.handler settings clientId g) filter
          packet.properties.getSubscriptionIdentifier flowId)
      by_cases hreg : c.registered = some g
      · rw [subscribeAs, if_pos (decide_eq_true hreg), hsubd] at hstep
        split at hstep
        · rename_i herror
          cases herror
        · rename_i hfen
          cases hfen
          exact (hnew rfl).elim
        · rename_i subscriptions _ _ hplace
          cases hplace
          cases hstep
          refine hs.owned rfl hreg (fun k hk => hs.free_of_holds hhold hk)
            (fun _ => hs.slot g hhold) hs.stored id rfl hreg ⟨rfl, rfl⟩ ⟨?_, ?_, ?_, ?_⟩
          · intro answer hmem
            rw [handler_setPhase_subscriptions]
            rcases mem_append.mp hmem with hold | hadded
            · exact hgood answer hold
            · rw [mem_singleton.mp hadded]
              refine ⟨nofun, ?_⟩
              intro stored hsto
              cases hsto
              exact ⟨rfl, rfl⟩
          · exact fun filter' code' hmem => hrest filter' code' (mem_cons_of_mem _ hmem)
          · exact fun _ => hreg
          · rw [granted_append]
            exact hplaced.place
      · rw [subscribeAs, if_neg (by simpa using hreg), hsubd] at hstep
        cases hstep
        exact hs.unlock hhold ⟨rfl, rfl, rfl⟩ (by rw [hph]; rfl) hactv.symm trivial
  · cases hstep

theorem updateSession_holds (update : ClientSession → ClientSession) {session : ClientSession}
    (hsess : c.session = some session) (htoken : session.connectionToken = g) :
    updateSession g update c.session = some (update session) := by
  rw [hsess]
  show some (if session.connectionToken = g then update session else session) = _
  rw [if_pos htoken]

section

variable (hs : Sound settings clientId c)
include hs

theorem Sound.write (hstep : c.write g ok = some c') : Sound settings clientId c' := by
  unfold Client.write at hstep
  split at hstep
  · rename_i packet flowId answers hph
    obtain ⟨hgood, hreg, hplaced⟩ := hs.progressAt hph
    have hhold : (c g).phase.holdsSlot := by rw [hph]; rfl
    have hfree : ∀ k, k ≠ g → (c k).phase.holdsSlot = false := fun k hk => hs.free_of_holds hhold hk
    split at hstep
    · cases hstep
      -- the slot keeps claims out, so the stored session is still the connection's
      obtain ⟨session, hsess, htoken, -⟩ := (hs.owner g hreg).2 (hs.unclaimed hreg hfree)
      have hwrit := updateSession_holds (addSubscriptions (granted answers)) hsess htoken
      have hlook : ∀ filter stored, latest (granted answers) filter = some stored →
          (addSubscriptions (granted answers) session).subscriptions.lookup filter =
            some stored := by
        intro filter stored hlat
        show (lookup filter ((granted answers).foldl _ session.subscriptions)) = some stored
        rw [lookup_addAll, hlat]
        rfl
      refine hs.owned rfl hreg hfree nofun ?_ ?_ rfl hreg ⟨rfl, rfl⟩ ⟨?_, ?_⟩
      · rw [storedSubscriptions]
        dsimp only
        rw [hwrit]
        intro filter stored hsto
        have hsto : (lookup filter
            ((granted answers).foldl _ session.subscriptions)) = some stored := hsto
        rw [lookup_addAll] at hsto
        cases hlat : latest (granted answers) filter with
        | none =>
          rw [hlat] at hsto
          exact hs.installable hsess filter stored hsto
        | some _ =>
          rw [hlat] at hsto
          cases hsto
          obtain ⟨answer, hmem, -, hans⟩ := mem_granted.mp (mem_of_latest hlat)
          rw [((hgood answer hmem).accepted _ hans).1]
          exact retainHandling_storedSubscription ..
      · exact fun _ => ⟨_, hwrit, htoken, nofun⟩
      · intro answer hmem
        have hsame : handler settings clientId
            { c.setPhase g (.answering packet flowId answers) with
              session := updateSession g (addSubscriptions (granted answers)) c.session
              slot := none } g = c.handler settings clientId g := handler_setPhase _
        rw [hsame]
        exact hgood answer hmem
      · exact fun _ _ => ⟨hplaced, _, hwrit, htoken, hlook⟩
    · cases hstep
      exact hs.move (fun _ => hhold) rfl ⟨rfl, by rw [hph]; rfl⟩ hreg
  · cases hstep

theorem Sound.restore (hstep : c.restore clientId g listed = some c') :
    Sound settings clientId c' := by
  unfold Client.restore at hstep
  split at hstep
  · rename_i hph
    have hhold : (c g).phase.holdsSlot := by rw [hph]; rfl
    have hreg : c.registered = some g := hs.progressAt hph
    cases hstep
    exact hs.owned rfl hreg (fun k hk => hs.free_of_holds hhold hk) nofun hs.stored id rfl
      hreg ⟨rfl, rfl⟩ trivial
  · cases hstep

theorem Sound.answer (hstep : c.answer g = some c') : Sound settings clientId c' := by
  unfold Client.answer at hstep
  split at hstep
  · rename_i hph
    cases hstep
    exact hs.move nofun rfl ⟨rfl, by rw [hph]; rfl⟩ trivial
  · cases hstep

theorem Sound.fail (hstep : c.fail g = some c') : Sound settings clientId c' := by
  unfold Client.fail at hstep
  split at hstep
  all_goals
    first
    | cases hstep
      rename_i hph
      exact hs.move nofun rfl ⟨rfl, by rw [hph]; rfl⟩ trivial
    | cases hstep

theorem Sound.unsubscribe {flowId : Option UInt64} {filters : List String} {ok : Bool}
    {listed : List (String × StoredSubscription)}
    (hstep : c.unsubscribe settings clientId g flowId filters ok listed = some c') :
    Sound settings clientId c' := by
  unfold Client.unsubscribe at hstep
  split at hstep
  · rename_i hph hslot
    have hfree : ∀ k, k ≠ g → (c k).phase.holdsSlot = false := fun k _ => hs.free_of_slot hslot k
    have hself : (c g).phase.holdsSlot → c.slot = some g := by
      rw [hph]
      nofun
    have hactv : (c g).phase.active = true ∧
        (c g).phase.session = none := by
      rw [hph]
      exact ⟨rfl, rfl⟩
    have hsame : c.connections = update c.connections g (c g) :=
      (update_eq_self g c.connections).symm
    have hprog : ∀ c' : Client, c'.Progress settings clientId g (c g).phase := by
      intro c'
      rw [hph]
      trivial
    split at hstep
    · cases hstep
      exact hs
    · rename_i hrdy
      by_cases hreg : c.registered = some g
      · dsimp only at hstep
        split at hstep
        · cases hstep
          exact hs.owned hsame hreg hfree hself hs.stored id rfl hreg hactv (hprog _)
        · split at hstep
          · cases hstep
            refine hs.owned hsame hreg hfree hself ?_ ?_ rfl hreg hactv (hprog _)
            · cases hsess : c.session with
              | none =>
                have hsto := hs.stored
                rw [storedSubscriptions, hsess] at hsto
                rw [storedSubscriptions]
                exact hsto
              | some session =>
                rw [storedSubscriptions]
                show Installable (ClientSession.toSessionRecord
                  (if session.connectionToken = g then _ else _)).subscriptions
                split
                · exact (hs.installable hsess).removeSubscriptions _
                · exact hs.installable hsess
            · rintro ⟨session, hsess, htoken, -⟩
              exact ⟨_, updateSession_holds _ hsess htoken, htoken, nofun⟩
          · cases hstep
            exact hs.owned rfl hreg hfree nofun hs.stored id rfl hreg ⟨rfl, rfl⟩
              trivial
      · -- a packet without filters changes nothing
        have hnil : filters = [] := by
          by_contra hne
          exact hrdy ⟨hreg, hne⟩
        subst hnil
        cases hstep
        exact hs
  · cases hstep

theorem installable_of_filter {p : ClientSession → Bool}
    (hsess : c'.session = c.session.filter p) : Installable c'.storedSubscriptions := by
  rw [storedSubscriptions, hsess]
  cases hfilt : c.session.filter p with
  | none =>
    intro filter _ hlook
    dsimp only at hlook
    rw [lookup_empty] at hlook
    cases hlook
  | some session => exact hs.installable (filter_eq_some_iff.mp hfilt).1

/-- The session and the router change while no connection holds the slot, and none is
registered afterwards. -/
theorem Sound.ownerless (hslot : c.slot = none)
    (hconns : ∀ k, c'.connections k = c k ∨ (c.registered = some k ∧ (c' k).phase = .gone))
    (hreg : c.registered = none ∨ ∃ k, c.registered = some k ∧ (c' k).phase = .gone)
    (hsto : Installable c'.storedSubscriptions) (hreld : c'.registered = none)
    (hlastClaim : c'.lastClaim = c.lastClaim) : Sound settings clientId c' := by
  have hfree : ∀ k, (c' k).phase.holdsSlot = false := by
    intro k
    rcases hconns k with hsame | ⟨-, hgone⟩
    · rw [hsame]
      exact hs.free_of_slot hslot k
    · rw [hgone]
      rfl
  -- the last claim was that of the connection that is gone
  have hlast : ∀ k, (c' k).phase.active → c'.lastClaim ≠ some k := by
    intro k hactv hk
    rw [hlastClaim] at hk
    rcases hconns k with hsame | ⟨-, hgone⟩
    · rw [hsame] at hactv
      have hboth := hs.current k hactv hk
      rcases hreg with hnone | ⟨j, hj, hgone⟩
      · rw [hnone] at hboth
        cases hboth
      · rw [hj] at hboth
        cases hboth
        rw [← hsame, hgone] at hactv
        cases hactv
    · rw [hgone] at hactv
      cases hactv
  refine ⟨?_, hsto, ?_, ?_, ?_, ?_, ?_⟩
  · intro k hk
    rw [hfree k] at hk
    cases hk
  · intro k session hk
    rcases hconns k with hsame | ⟨-, hgone⟩
    · rw [hsame] at hk
      exact hs.claims k session hk
    · rw [hgone] at hk
      cases hk
  · intro k hk
    rw [Phase.isClaimed_of_free (hfree k)] at hk
    cases hk
  · intro k hk
    rw [hreld] at hk
    cases hk
  · exact fun k hactv hk => (hlast k hactv hk).elim
  · intro k
    rcases hconns k with hsame | ⟨-, hgone⟩
    · have hnot := hfree k
      rw [hsame] at hnot ⊢
      refine (hs.progress k).congr ?_ ?_
      · unfold handler
        rw [hsame]
      · rintro (hhold | ⟨hactv, hk⟩)
        · rw [hnot] at hhold
          cases hhold
        · exact (hlast k (by rw [hsame]; exact hactv) hk).elim
    · rw [hgone]
      trivial

theorem Sound.release {preserved : Bool}
    (hstep : c.release clientId g preserved ok = some c') : Sound settings clientId c' := by
  unfold Client.release at hstep
  split at hstep
  · rename_i hph hslot
    split at hstep
    · rename_i hreg
      cases hstep
      have hgone : ((c.setPhase g .gone).connections g).phase = .gone := by simp [setPhase]
      refine hs.ownerless hslot ?_ (.inr ⟨g, hreg, hgone⟩) ?_ rfl rfl
      · intro k
        by_cases hk : k = g
        · subst hk
          exact .inr ⟨hreg, hgone⟩
        · exact .inl (update_of_ne hk ..)
      · by_cases hkept : (preserved || !ok) = true
        · rw [storedSubscriptions]
          dsimp only
          rw [if_pos hkept]
          exact hs.stored
        · refine installable_of_filter (p := fun session => session.connectionToken ≠ g) hs ?_
          dsimp only
          rw [if_neg hkept]
    · rename_i hreg
      cases hstep
      exact hs.quiet rfl ⟨rfl, rfl, rfl, rfl⟩ (fun h => (Bool.false_ne_true h).elim)
        (fun k _ hk => hs.slot k hk) (fun _ h => (some_ne_none _ h.symm).elim)
        ⟨rfl, by rw [hph]; rfl⟩ (.inr ⟨rfl, hreg⟩) trivial
  · cases hstep

theorem Sound.sweep {expired : Bool}
    (hstep : c.sweep clientId expired = some c') : Sound settings clientId c' := by
  obtain ⟨hidle, hstep⟩ := ite_none_right_eq_some.mp hstep
  split at hstep
  · cases hstep
    refine hs.ownerless hidle.1 (fun k => .inl rfl) (.inl hidle.2) ?_ hidle.2 rfl
    intro _ _ hlook
    rw [storedSubscriptions] at hlook
    dsimp only at hlook
    rw [lookup_empty] at hlook
    cases hlook
  · cases hstep
    exact hs

/-- Every step keeps the invariant. -/
theorem Sound.step {step : Step}
    (hstep : c.step settings clientId step = some c') : Sound settings clientId c' := by
  cases step with
  | claim => exact hs.claim hstep
  | storeClaim => exact hs.storeClaim hstep
  | register => exact hs.register hstep
  | endClaim => exact hs.endClaim hstep
  | receive => exact hs.receive hstep
  | lock => exact hs.lock hstep
  | route => exact hs.route hstep
  | write => exact hs.write hstep
  | restore => exact hs.restore hstep
  | answer => exact hs.answer hstep
  | unsubscribe => exact hs.unsubscribe hstep
  | fail => exact hs.fail hstep
  | release => exact hs.release hstep
  | sweep => exact hs.sweep hstep

end

/-- The invariant along a run, for every client identifier. -/
theorem sound_of_reachable {s t : State} (hs : ∀ clientId, Sound settings clientId (s clientId))
    (hrun : Reachable (act settings) Listed s t) (clientId : String) :
    Sound settings clientId (t clientId) := by
  induction hrun generalizing clientId with
  | start => exact hs clientId
  | @step t t' a run hlist hact ih =>
    obtain ⟨_, hstep, rfl⟩ := map_eq_some_iff.mp hact
    exact forall_update rfl ((ih a.clientId).step hstep) (fun k _ => ih k) clientId

/-! ## A failed write -/

/-- The phases after a failed write. -/
def Phase.ended : Phase → Bool
  | .restoring | .closed | .gone => true
  | _ => false

theorem Client.ended_update (hconns : c'.connections = update c.connections g connection)
    (hended : (c k).phase.ended) (hstep : (c g).phase.ended → connection.phase.ended) :
    (c' k).phase.ended := by
  revert hended
  exact forall_update hconns hstep (fun _ _ hended => hended) k

theorem Client.step_ended {step : Step} (hstep : c.step settings clientId step = some c')
    (hended : (c k).phase.ended) : (c' k).phase.ended := by
  -- a phase that is not one of the ended ones cannot be that of the connection
  have hnot : ∀ {g : UInt64} {connection : Connection}, (c g).phase.ended = false →
      (c g).phase.ended = true → connection.phase.ended = true := by
    intro g connection hfalse htrue
    rw [hfalse] at htrue
    cases htrue
  cases step with
  | claim g | lock g =>
    simp only [step, claim, lock] at hstep
    split at hstep
    · rename_i hph _
      cases hstep
      exact ended_update rfl hended (hnot (by rw [hph]; rfl))
    · cases hstep
  | storeClaim g ok | receive g authorizeSubscribe flowId packet | write g ok =>
    simp only [step, storeClaim, receive, write] at hstep
    split at hstep
    · rename_i hph
      split at hstep <;> cases hstep <;> exact ended_update rfl hended (hnot (by rw [hph]; rfl))
    · cases hstep
  | register g | endClaim g listed | answer g =>
    simp only [step, register, endClaim, answer] at hstep
    split at hstep
    · rename_i hph
      cases hstep
      exact ended_update rfl hended (hnot (by rw [hph]; rfl))
    · cases hstep
  | route g =>
    obtain ⟨packet, flowId, answers, rest, hph⟩ : ∃ packet flowId answers rest,
        (c g).phase = .routing packet flowId answers rest := by
      simp only [step, route] at hstep
      split at hstep
      iterate 3 exact ⟨_, _, _, _, ‹_›⟩
      cases hstep
    obtain ⟨connection, hconns⟩ : ∃ connection,
        c'.connections = update c.connections g connection := by
      simp only [step, route] at hstep
      split at hstep
      · split at hstep <;> cases hstep <;> exact ⟨_, rfl⟩
      · cases hstep
        exact ⟨_, rfl⟩
      · split at hstep
        · cases hstep
          exact ⟨_, rfl⟩
        · split at hstep <;> cases hstep <;> exact ⟨_, rfl⟩
      · cases hstep
    exact ended_update hconns hended (hnot (by rw [hph]; rfl))
  | restore g listed =>
    simp only [step, restore] at hstep
    split at hstep
    · cases hstep
      exact ended_update rfl hended (fun _ => rfl)
    · cases hstep
  | unsubscribe g flowId _ ok listed =>
    simp only [step, unsubscribe] at hstep
    split at hstep
    · rename_i hph _
      have hfalse : (c g).phase.ended = false := by rw [hph]; rfl
      split at hstep
      · cases hstep
        exact hended
      · split at hstep
        · cases hstep
          exact hended
        · split at hstep
          · cases hstep
            exact hended
          · cases hstep
            exact ended_update rfl hended (hnot hfalse)
    · cases hstep
  | fail g =>
    simp only [step, fail] at hstep
    split at hstep
    all_goals
      first
      | cases hstep
        exact ended_update rfl hended (fun _ => rfl)
      | cases hstep
  | release g _ ok =>
    simp only [step, release] at hstep
    split at hstep
    · split at hstep <;> cases hstep <;> exact ended_update rfl hended (fun _ => rfl)
    · cases hstep
  | sweep _ =>
    simp only [step, sweep] at hstep
    split at hstep
    · split at hstep <;> cases hstep <;> exact hended
    · cases hstep

/-- After a failed write the connection never gets to a SUBACK again. -/
theorem ended_of_reachable {s t : State} (hrun : Reachable (act settings) Listed s t)
    (hended : ((s clientId).connections g).phase.ended) :
    ((t clientId).connections g).phase.ended := by
  induction hrun with
  | start => exact hended
  | @step t t' a run hlist hact ih =>
    obtain ⟨_, hstep, rfl⟩ := map_eq_some_iff.mp hact
    revert ih
    exact forall_update rfl (step_ended hstep) (fun _ _ ih => ih) clientId

/-- Restoring makes the router hold exactly the stored subscriptions. -/
theorem Sound.restore_mirrored (hs : Sound settings clientId c)
    (hlist : Table.Lists c.storedSubscriptions listed)
    (hstep : c.restore clientId g listed = some c') :
    Mirrored clientId c'.subscriptions c'.storedSubscriptions := by
  unfold Client.restore at hstep
  split at hstep
  · cases hstep
    obtain ⟨_, hset, hmirr⟩ :=
      mirrored_setClientSubscriptions (c := clientId) hlist hs.stored c.subscriptions
    show Mirrored clientId (install clientId listed c.subscriptions) c.storedSubscriptions
    unfold install
    rw [hset]
    exact hmirr
  · cases hstep

/-! ## The answers -/

/-- The last answer that grants a filter. -/
def lastGrant (answers : List Answer) (filter : String) : Option Answer :=
  answers.reverse.find? fun answer => answer.filter.filter = filter && grants answer.code

/-- The last entry routed for a filter is that of its last grant. -/
theorem latest_granted {h : Handler} {filter : String} {last : Answer}
    (hgood : ∀ answer ∈ answers, answer.Good h packet flowId)
    (hlast : lastGrant answers filter = some last) :
    ∃ stored, last.stored = some stored ∧ latest (granted answers) filter = some stored := by
  induction answers using reverseRecOn with
  | nil => cases hlast
  | append_singleton answers answer ih =>
    have hans := hgood answer (mem_append_right _ mem_cons_self)
    unfold lastGrant at hlast
    rw [reverse_append] at hlast
    replace hlast : (answer :: answers.reverse).find? _ = some last := hlast
    rw [find?_cons] at hlast
    rw [granted_append]
    cases hsto : answer.stored with
    | none =>
      have hgranted : granted [answer] = [] := by simp [granted, hsto]
      rw [hans.refused hsto, Bool.and_false] at hlast
      rw [hgranted, append_nil]
      exact ih (fun a ha => hgood a (mem_append_left _ ha)) hlast
    | some stored =>
      have hgranted : granted [answer] = [(answer.filter.filter, stored)] := by
        simp [granted, hsto]
      rw [(hans.accepted stored hsto).2, grants_fromQos, Bool.and_true] at hlast
      rw [hgranted, latest_append]
      by_cases hfilt : answer.filter.filter = filter
      · rw [decide_eq_true hfilt] at hlast
        cases hlast
        rw [if_pos hfilt.symm]
        exact ⟨stored, hsto, rfl⟩
      · rw [decide_eq_false hfilt] at hlast
        rw [if_neg (Ne.symm hfilt)]
        exact ih (fun a ha => hgood a (mem_append_left _ ha)) hlast

/-- What a SUBACK grants is stored under the connection's token and routed, unless a newer
connection has claimed the session since. -/
theorem Sound.answering_durable {answer : Answer} (hs : Sound settings clientId c)
    (hph : (c g).phase = .answering packet flowId answers) (hmem : answer ∈ answers)
    (hgrants : grants answer.code) :
    c.lastClaim ≠ some g ∨ ∃ last stored session,
      lastGrant answers answer.filter.filter = some last ∧
      stored = storedSubscription (c.handler settings clientId g)
        packet.properties.getSubscriptionIdentifier flowId last.filter ∧
      last.code = .fromQos stored.qos ∧
      c.session = some session ∧ session.connectionToken = g ∧
      session.subscriptions.lookup answer.filter.filter = some stored ∧
      subscriptionOf clientId answer.filter.filter stored ∈
        c.subscriptions.get (keyOf answer.filter.filter) := by
  by_cases hclaim : c.lastClaim = some g
  · right
    obtain ⟨hgood, hdurable⟩ := hs.progressAt hph
    have hsome : (lastGrant answers answer.filter.filter).isSome := by
      refine find?_isSome.mpr ⟨answer, mem_reverse.mpr hmem, ?_⟩
      rw [hgrants]
      simp
    obtain ⟨last, hlast⟩ := isSome_iff_exists.mp hsome
    obtain ⟨stored, hsto, hlat⟩ := latest_granted hgood hlast
    have hlastMem : last ∈ answers := mem_reverse.mp (mem_of_find?_eq_some hlast)
    obtain ⟨hoptions, hcode⟩ := (hgood last hlastMem).accepted stored hsto
    have hne : granted answers ≠ [] := ne_nil_of_mem (mem_of_latest hlat)
    obtain ⟨hplaced, session, hsess, htoken, hlook⟩ := hdurable hne hclaim
    exact ⟨last, stored, session, hlast, hoptions, hcode, hsess, htoken,
      hlook _ _ hlat, hplaced _ _ hlat⟩
  · exact .inl hclaim

/-- In every run, whatever connections claim the session and whatever writes fail: when a
SUBACK is written, each filter it grants is in the stored session under the connection's
token with the options of the filter's last grant in the packet, and routed, unless a newer
connection has claimed the session since.  When the write of the session fails, no SUBACK is
written, and restoring leaves the router with exactly the stored subscriptions. -/
theorem granted_suback_durable {s : State} (hrun : Reachable (act settings) Listed .initial s)
    (clientId : String) (g : UInt64) :
    (∀ packet flowId answers,
      ((s clientId).connections g).phase = .answering packet flowId answers →
      ∀ answer ∈ answers, grants answer.code = true →
        (s clientId).lastClaim ≠ some g ∨ ∃ last stored session,
          lastGrant answers answer.filter.filter = some last ∧
          stored = storedSubscription ((s clientId).handler settings clientId g)
            packet.properties.getSubscriptionIdentifier flowId last.filter ∧
          last.code = .fromQos stored.qos ∧
          (s clientId).session = some session ∧ session.connectionToken = g ∧
          session.subscriptions.lookup answer.filter.filter = some stored ∧
          subscriptionOf clientId answer.filter.filter stored ∈
            (s clientId).subscriptions.get (keyOf answer.filter.filter)) ∧
    ∀ s', act settings s ⟨clientId, .write g false⟩ = some s' →
      ((s' clientId).connections g).phase = .restoring ∧
      ∀ t, Reachable (act settings) Listed s' t →
        act settings t ⟨clientId, .answer g⟩ = none ∧
        ∀ listed t', Listed t ⟨clientId, .restore g listed⟩ →
          act settings t ⟨clientId, .restore g listed⟩ = some t' →
          Mirrored clientId (t' clientId).subscriptions (t' clientId).storedSubscriptions := by
  have hsound : ∀ id, Sound settings id (s id) := sound_of_reachable (fun _ => Sound.initial) hrun
  refine ⟨fun packet flowId answers hphase answer hmem hgrants =>
    (hsound clientId).answering_durable hphase hmem hgrants, ?_⟩
  intro s' hwrite
  have hsound' : ∀ id, Sound settings id (s' id) :=
    sound_of_reachable hsound
      (Reachable.start.step (show Listed s ⟨clientId, .write g false⟩ from trivial) hwrite)
  obtain ⟨c', hstep, rfl⟩ := map_eq_some_iff.mp hwrite
  have hrestoring : (c'.connections g).phase = .restoring := by
    simp only [step, write] at hstep
    split at hstep
    · cases hstep
      simp [setPhase]
    · cases hstep
  refine ⟨by rw [update_self]; exact hrestoring, fun t ht => ⟨?_, ?_⟩⟩
  · have hended : ((t clientId).connections g).phase.ended := by
      refine ended_of_reachable ht ?_
      rw [update_self, hrestoring]
      rfl
    have hnone : (t clientId).answer g = none := by
      unfold answer
      split
      · rename_i hphase
        rw [hphase] at hended
        cases hended
      · rfl
    show ((t clientId).answer g).map _ = none
    rw [hnone]
    rfl
  · intro listed t' hlisted hrestore
    obtain ⟨_, hrestored, rfl⟩ := map_eq_some_iff.mp hrestore
    rw [update_self]
    exact (sound_of_reachable hsound' ht clientId).restore_mirrored hlisted hrestored

end

/-! ### One connection, one packet -/

def filterOf (qos : QoS) : TopicFilter := { filter := "a", options := { qos := qos } }

/-- The claim of the first connection with a fresh session, up to installing its
subscriptions. -/
def firstClaim : List Step :=
  [.claim 1 5 (fun _ => false) [] 100 0, .storeClaim 1 true, .register 1]

/-- A packet with two filters of one text, up to the write of the session. -/
def sameFilterTwice : List Step :=
  [.receive 1 (fun _ => true) none
      { packetId := 1, filters := [filterOf .atMostOnce, filterOf .atLeastOnce] },
    .lock 1, .route 1, .route 1, .route 1]

/-- Steps that visit no table. -/
def Step.plain : Step → Bool
  | .endClaim .. | .restore .. | .unsubscribe .. => false
  | _ => true

theorem reachable_plain {s t : State} {steps : List Step}
    (hrun : Reachable (act {}) Listed .initial s) (hplain : ∀ step ∈ steps, step.plain)
    (hfollow : follow (act {}) s (steps.map (⟨clientId, ·⟩)) = some t) :
    Reachable (act {}) Listed .initial t := by
  refine hrun.follow ?_ hfollow
  intro a ha u
  obtain ⟨step, hstep, rfl⟩ := mem_map.mp ha
  have hvisits := hplain step hstep
  cases step <;> trivial

/-- The first connection is served with an empty session. -/
theorem exists_served : ∃ s, Reachable (act {}) Listed .initial s ∧
    follow (act {}) .initial ((firstClaim ++ [Step.endClaim 1 []]).map (⟨"c", ·⟩)) = some s := by
  have hrun := reachable_plain .start (by decide)
    (show follow (act {}) .initial (firstClaim.map (⟨"c", ·⟩)) = some _ from rfl)
  refine ⟨_, hrun.step (a := ⟨"c", .endClaim 1 []⟩) ?_ rfl, rfl⟩
  rintro session hph
  cases hph
  exact Table.lists_empty

theorem granted_suback_durable_twice : ∃ s, Reachable (act {}) Listed .initial s ∧
    ∃ packet answers, ((s "c").connections 1).phase = .answering packet none answers ∧
      answers.map (·.code) = [.grantedQoS0, .grantedQoS1] ∧
      ∀ answer ∈ answers, grants answer.code = true →
        (s "c").lastClaim ≠ some 1 ∨ ∃ last stored session,
          lastGrant answers answer.filter.filter = some last ∧
          stored = storedSubscription ((s "c").handler {} "c" 1)
            packet.properties.getSubscriptionIdentifier none last.filter ∧
          last.code = .fromQos stored.qos ∧
          (s "c").session = some session ∧ session.connectionToken = 1 ∧
          session.subscriptions.lookup answer.filter.filter = some stored ∧
          subscriptionOf "c" answer.filter.filter stored ∈
            (s "c").subscriptions.get (keyOf answer.filter.filter) := by
  obtain ⟨_, hserved, hfollow⟩ := exists_served
  cases hfollow
  have hrun := reachable_plain hserved (by decide) (show follow (act {}) _
    ((sameFilterTwice ++ [Step.write 1 true]).map (⟨"c", ·⟩)) = some _ from rfl)
  exact ⟨_, hrun, _, _, rfl, rfl, (granted_suback_durable hrun "c" 1).1 _ none _ rfl⟩

/-- The claim of a second connection with a fresh session. -/
def secondClaim : List Step :=
  [.claim 2 5 (fun _ => false) [] 100 0, .storeClaim 2 true, .register 2]

/-- The two filters of one text are both granted, the first with a QoS that the stored session,
which nobody has claimed since, does not have.  And a second connection with a clean start
can claim the session between the write and the SUBACK: the router then has no subscription
of the filter. -/
theorem granted_options_replaced :
    (∃ s packet answers,
      follow (act {}) .initial ((firstClaim ++ [Step.endClaim 1 []] ++ sameFilterTwice ++
        [Step.write 1 true]).map (⟨"c", ·⟩)) = some s ∧
      ((s "c").connections 1).phase = .answering packet none answers ∧
      answers.map (fun answer => (answer.filter.filter, answer.code)) =
        [("a", .grantedQoS0), ("a", .grantedQoS1)] ∧
      (s "c").lastClaim = some 1 ∧
      ((s "c").session.bind fun session => session.subscriptions.lookup "a").map (·.qos) =
        some .atLeastOnce) ∧
    ∃ s packet answers,
      follow (act {}) .initial ((firstClaim ++ [Step.endClaim 1 []] ++ sameFilterTwice ++
        [Step.write 1 true] ++ secondClaim).map (⟨"c", ·⟩)) = some s ∧
      ((s "c").connections 1).phase = .answering packet none answers ∧
      answers.map (fun answer => (answer.filter.filter, answer.code)) =
        [("a", .grantedQoS0), ("a", .grantedQoS1)] ∧
      (s "c").lastClaim = some 2 ∧ (s "c").subscriptions.get "a" = [] :=
  ⟨⟨_, _, _, rfl, rfl, rfl, rfl, rfl⟩, _, _, _, rfl, rfl, rfl, rfl, rfl⟩

end MqttLib.Broker.Granting
