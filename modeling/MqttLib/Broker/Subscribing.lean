/-
MqttLib.Broker.Subscribing

SUBSCRIBE and UNSUBSCRIBE packets of the owner of a client id
(`client_handler/subscribe.rs`).  The router keeps a subscription for every filter, share
group and flow; the stored session has one entry for every filter text, from which
`set_client_subscriptions` restores them.
-/

import MqttLib.Acl.Subscription
import MqttLib.Broker.Subscriptions
import MqttLib.Foundation.Fallible
import MqttLib.Foundation.Reachable
import MqttLib.Protocol.Packet

namespace MqttLib.Broker.Subscribing

open Foundation Protocol Storage Acl Subscriptions Finmap List Option Table

/-! ## The handlers -/

/-- What the handlers read of the broker's configuration. -/
structure Settings where
  maximumQos : UInt8 := 2
  /-- The patterns of `change_only_delivery_config`, if it is enabled. -/
  changeOnlyPatterns : Option (List String) := none
  /-- 0 is no limit. -/
  maxSubscriptionsPerClient : Nat := 0

/-- The connection that handles the packets. -/
structure Handler where
  clientId : String
  generation : UInt64
  protocolVersion : UInt8 := 5
  settings : Settings := {}

structure State where
  subscriptions : Subscriptions := {}
  /-- The generation in the router's entry of every client. -/
  clients : Table String UInt64 := ∅
  /-- The sessions of the storage, if one is configured. -/
  sessions : Option (Table String ClientSession) := none
  /-- The copy the handler has of its session. -/
  session : Option ClientSession := none

structure AcceptedFilter where
  filter : TopicFilter
  stored : StoredSubscription
  isNew : Bool

/-- How a packet ends: with the answers for its filters, ignored since the session has been
taken over, or with an error that closes the connection. -/
inductive Outcome (γ : Type) where
  | answered (answer : γ)
  | ignored
  | failed (error : MqttError)

/-- `has_subscription`: on any flow. -/
def hasSubscription (s : Subscriptions) (clientId topicFilter : String) : Bool :=
  (s.get (parseSharedSubscription topicFilter).1).any fun sub =>
    sub.clientId == clientId && sub.shareGroup == (parseSharedSubscription topicFilter).2

/-- `subscription_count_for_client`. -/
def subscriptionCountForClient (s : Subscriptions) (clientId : String) : Nat :=
  let count (subs : List Subscription) := subs.countP (·.clientId == clientId)
  (s.exact.buckets.table.values.map count).sum + (s.wildcard.buckets.table.values.map count).sum

/-- `check_subscription_quota`. -/
def checkSubscriptionQuota (h : Handler) (filter : TopicFilter) (s : Subscriptions) :
    Option SubAckReasonCode :=
  let limit := h.settings.maxSubscriptionsPerClient
  if limit > 0 && !hasSubscription s h.clientId filter.filter &&
      subscriptionCountForClient s h.clientId ≥ limit then
    some .quotaExceeded
  else none

/-- The entry of the session for a filter that is accepted. -/
def storedSubscription (h : Handler) (subscriptionId : Option UInt32) (flowId : Option UInt64)
    (filter : TopicFilter) : StoredSubscription where
  qos := QoS.fromU8 (if filter.options.qos.toU8 > h.settings.maximumQos then h.settings.maximumQos
    else filter.options.qos.toU8)
  noLocal := filter.options.noLocal
  retainAsPublished := filter.options.retainAsPublished
  retainHandling := filter.options.retainHandling.toU8
  subscriptionId := subscriptionId
  protocolVersion := h.protocolVersion
  changeOnly := match h.settings.changeOnlyPatterns with
    | none => false
    | some patterns => patterns.any fun pattern => topicMatchesFilter filter.filter pattern
  flowId := flowId

/-- `subscribe_as`, for the answer of the generation check. -/
def subscribeAs (s : Subscriptions) (current : Bool) (request : SubscriptionRequest) :
    Except MqttError (Subscriptions × Subscribed) :=
  if current then s.subscribe request
  else (s.subscribe request).map fun _ => (s, .fenced)

/-- `route_subscriptions`: what the router has then, the answers, and the filters that have
been accepted.  Filters that already have an answer are passed over. -/
def routeSubscriptions (h : Handler) (current : Bool) (subscriptionId : Option UInt32)
    (flowId : Option UInt64) : List (TopicFilter × Option SubAckReasonCode) → Subscriptions →
    Subscriptions × Outcome (List SubAckReasonCode × List AcceptedFilter)
  | [], s => (s, .answered ([], []))
  | (filter, reasonCode) :: rest, s =>
    let refuse (code : SubAckReasonCode) :=
      match routeSubscriptions h current subscriptionId flowId rest s with
      | (s, .answered (codes, accepted)) => (s, .answered (code :: codes, accepted))
      | other => other
    match reasonCode with
    | some code => refuse code
    | none =>
      match checkSubscriptionQuota h filter s with
      | some code => refuse code
      | none =>
        let stored := storedSubscription h subscriptionId flowId filter
        match subscribeAs s current
            (storedSubscriptionRequest h.clientId filter.filter stored) with
        | .error error => (s, .failed error)
        | .ok (_, .fenced) => (s, .ignored)
        | .ok (s, outcome) =>
          match routeSubscriptions h current subscriptionId flowId rest s with
          | (s, .answered (codes, accepted)) =>
            (s, .answered (.fromQos stored.qos :: codes,
              ⟨filter, stored, outcome = .new⟩ :: accepted))
          | other => other

/-- `update_session` of the storage: only the session of this connection is changed. -/
def updateStoredSession (h : Handler) (update : ClientSession → ClientSession)
    (sessions : Table String ClientSession) : Table String ClientSession :=
  match sessions.lookup h.clientId with
  | none => sessions
  | some session =>
    if session.connectionToken = h.generation then sessions.insert h.clientId (update session)
    else sessions

/-- `restore_stored_routes`, for an order of the stored subscriptions. -/
def restoreStoredRoutes (h : Handler)
    (order : Table String StoredSubscription → List (String × StoredSubscription)) (s : State) :
    Except MqttError State :=
  let stored := s.sessions.bind fun sessions => sessions.lookup h.clientId
  let listed := match stored with
    | none => []
    | some session => order session.subscriptions
  match s.subscriptions.setClientSubscriptions h.clientId listed with
  | .error error => .error error
  | .ok subscriptions =>
    .ok { s with
      subscriptions
      session := match s.session, stored with
        | some session, some stored => some { session with subscriptions := stored.subscriptions }
        | session, _ => session }

/-- `persist_or_restore_routes`: when the storage fails, the router goes back to what is
stored. -/
def persistOrRestoreRoutes (h : Handler)
    (order : Table String StoredSubscription → List (String × StoredSubscription))
    (written : Except MqttError Unit) (update : ClientSession → ClientSession) (s : State) :
    State × Option MqttError :=
  match s.sessions, written with
  | some _, .error error =>
    match restoreStoredRoutes h order s with
    | .error restoring => (s, some restoring)
    | .ok s => (s, some error)
  | sessions, _ =>
    ({ s with sessions := sessions.map (updateStoredSession h update) }, none)

def addSubscriptions (accepted : List (String × StoredSubscription)) (session : ClientSession) :
    ClientSession :=
  { session with
    subscriptions := accepted.foldl (fun subscriptions entry =>
      subscriptions.insert entry.1 entry.2) session.subscriptions }

def removeSubscriptions (filters : List String) (session : ClientSession) : ClientSession :=
  { session with
    subscriptions := filters.foldl (fun subscriptions filter =>
      subscriptions.erase filter) session.subscriptions }

/-- `validate_subscribe_filter`. -/
def validate (authorizeSubscribe : String → Bool) (filter : TopicFilter) :
    Except MqttError (Option SubAckReasonCode) :=
  validateSubscribeFilter authorizeSubscribe filter.filter filter.options.noLocal

def AcceptedFilter.entry (accepted : AcceptedFilter) : String × StoredSubscription :=
  (accepted.filter.filter, accepted.stored)

section

variable (h : Handler)
  (order : Table String StoredSubscription → List (String × StoredSubscription))

/-- Whether the handler's registration is the one in the router. -/
def State.isCurrent (s : State) : Bool := s.clients.lookup h.clientId == some h.generation

/-- `handle_subscribe` up to the SUBACK: the answers, and the filters whose retained messages
are delivered before it. -/
def handleSubscribe (authorizeSubscribe : String → Bool) (flowId : Option UInt64)
    (written : Except MqttError Unit) (subscribe : SubscribePacket) (s : State) :
    State × Outcome (List SubAckReasonCode × List AcceptedFilter) :=
  match subscribe.filters.mapM (validate authorizeSubscribe) with
  | .error error => (s, .failed error)
  | .ok reasonCodes =>
    let (subscriptions, outcome) := routeSubscriptions h (s.isCurrent h)
      subscribe.properties.getSubscriptionIdentifier flowId (subscribe.filters.zip reasonCodes)
      s.subscriptions
    let s := { s with subscriptions }
    match outcome with
    | .ignored => (s, .ignored)
    | .failed error =>
      match restoreStoredRoutes h order s with
      | .error restoring => (s, .failed restoring)
      | .ok s => (s, .failed error)
    | .answered (codes, accepted) =>
      if accepted.isEmpty then (s, .answered (codes, accepted))
      else
        let entries := accepted.map AcceptedFilter.entry
        match persistOrRestoreRoutes h order written (addSubscriptions entries) s with
        | (s, some error) => (s, .failed error)
        | (s, none) =>
          ({ s with session := s.session.map (addSubscriptions entries) },
            .answered (codes, accepted))

/-- The loop of `handle_unsubscribe`: the filters that have been removed, and the answers. -/
def unsubscribeEach (flowId : Option UInt64) :
    List String → Subscriptions → Subscriptions × List String × List UnsubAckReasonCode
  | [], s => (s, [], [])
  | filter :: rest, s =>
    let (next, outcome) := s.unsubscribe h.clientId filter flowId
    let (last, removed, codes) := unsubscribeEach flowId rest next
    if outcome = .removed then (last, filter :: removed, .success :: codes)
    else (last, removed, .noSubscriptionExisted :: codes)

/-- `handle_unsubscribe` up to the UNSUBACK. -/
def handleUnsubscribe (flowId : Option UInt64) (written : Except MqttError Unit)
    (unsubscribe : UnsubscribePacket) (s : State) : State × Outcome (List UnsubAckReasonCode) :=
  if !s.isCurrent h && !unsubscribe.filters.isEmpty then (s, .ignored)
  else
    let (subscriptions, removed, codes) :=
      unsubscribeEach h flowId unsubscribe.filters s.subscriptions
    let s := { s with subscriptions }
    if removed.isEmpty then (s, .answered codes)
    else match persistOrRestoreRoutes h order written (removeSubscriptions removed) s with
      | (s, some error) => (s, .failed error)
      | (s, none) =>
        ({ s with session := s.session.map (removeSubscriptions removed) }, .answered codes)

inductive Action where
  /-- A SUBSCRIBE packet on the control connection or on a flow, with the answers of the
  authorization. -/
  | subscribe (flowId : Option UInt64) (authorizeSubscribe : String → Bool)
      (packet : SubscribePacket)
  | unsubscribe (flowId : Option UInt64) (packet : UnsubscribePacket)

/-- A packet is handled, and the storage takes what is written. -/
def handle (s : State) : Action → State
  | .subscribe flowId authorizeSubscribe packet =>
    (handleSubscribe h order authorizeSubscribe flowId (.ok ()) packet s).1
  | .unsubscribe flowId packet => (handleUnsubscribe h order flowId (.ok ()) packet s).1

end

/-! ## One entry of the session and the subscription it stands for -/

/-- The subscription of an entry of the session. -/
def subscriptionOf (clientId filter : String) (stored : StoredSubscription) : Subscription :=
  (storedSubscriptionRequest clientId filter stored).subscription

/-- The filter it is kept under. -/
def keyOf (filter : String) : String := (parseSharedSubscription filter).1

/-- The router has the subscriptions of the session's entries for the client, and no other. -/
structure Mirrored (clientId : String) (subscriptions : Subscriptions)
    (stored : Table String StoredSubscription) : Prop where
  mem : ∀ key sub, sub.clientId = clientId → (sub ∈ subscriptions.get key ↔
    ∃ filter entry, stored.lookup filter = some entry ∧ keyOf filter = key ∧
      subscriptionOf clientId filter entry = sub)
  retainHandling : ∀ filter entry, stored.lookup filter = some entry → entry.retainHandling ≤ 2

section

variable {c filter filter' : String} {s : Subscriptions} {stored : Table String StoredSubscription}
  {entry entry' : StoredSubscription}

/-- Entries of different filters stand for different subscriptions. -/
theorem filter_eq_of_identity (hkey : keyOf filter = keyOf filter')
    (hgroup : (subscriptionOf c filter entry).shareGroup =
      (subscriptionOf c filter' entry').shareGroup) : filter = filter' :=
  parseSharedSubscription_inj (Prod.ext hkey hgroup)

/-- An entry takes the place of one of the same flow. -/
theorem Mirrored.add (hmir : Mirrored c s stored) (hretain : entry.retainHandling ≤ 2)
    (hflow : ∀ old, stored.lookup filter = some old → old.flowId = entry.flowId) :
    Mirrored c (s.place (keyOf filter) (subscriptionOf c filter entry))
      (stored.insert filter entry) := by
  refine ⟨fun key sub hsub => ?_, fun filter' entry' hlook => ?_⟩
  · rw [mem_place, hmir.mem key sub hsub]
    constructor
    · rintro (⟨rfl, rfl⟩ | ⟨⟨filter', entry', hlook, rfl, rfl⟩, hoth⟩)
      · exact ⟨filter, entry, lookup_insert _, rfl, rfl⟩
      · refine ⟨filter', entry', ?_, rfl, rfl⟩
        rw [lookup_insert_of_ne]
        · exact hlook
        · -- the same filter on the same flow is the same subscription
          rintro rfl
          refine hoth ⟨rfl, ?_⟩
          show (c, _, entry'.flowId) = (c, _, entry.flowId)
          rw [hflow entry' hlook]
          rfl
    · rintro ⟨filter', entry', hlook, rfl, rfl⟩
      rcases of_lookup_insert hlook with ⟨rfl, rfl⟩ | ⟨hfilt, hlook⟩
      · exact .inl ⟨rfl, rfl⟩
      · refine .inr ⟨⟨filter', entry', hlook, rfl, rfl⟩, ?_⟩
        rintro ⟨hkey, hident⟩
        exact hfilt (filter_eq_of_identity hkey (congrArg (fun i => i.2.1) hident))
  · rcases of_lookup_insert hlook with ⟨-, rfl⟩ | ⟨-, hlook⟩
    · exact hretain
    · exact hmir.retainHandling filter' entry' hlook

/-- Removing the subscription of an entry and the entry. -/
theorem Mirrored.erase (hmir : Mirrored c s stored) (hlook : stored.lookup filter = some entry) :
    Mirrored c (s.remove (keyOf filter) (subscriptionOf c filter entry).identity)
      (stored.erase filter) := by
  refine ⟨fun key sub hsub => ?_, fun filter' entry' hlook' => ?_⟩
  · rw [mem_remove, hmir.mem key sub hsub]
    constructor
    · rintro ⟨⟨filter', entry', hlook', rfl, rfl⟩, hoth⟩
      refine ⟨filter', entry', ?_, rfl, rfl⟩
      rw [lookup_erase_ne]
      · exact hlook'
      · rintro rfl
        rw [hlook] at hlook'
        obtain rfl := some.inj hlook'
        exact hoth ⟨rfl, rfl⟩
    · rintro ⟨filter', entry', hlook', rfl, rfl⟩
      obtain ⟨hfilt, hlook'⟩ := of_lookup_erase hlook'
      refine ⟨⟨filter', entry', hlook', rfl, rfl⟩, ?_⟩
      rintro ⟨hkey, hident⟩
      exact hfilt (filter_eq_of_identity hkey (congrArg (fun i => i.2.1) hident))
  · exact hmir.retainHandling filter' entry' (of_lookup_erase hlook').2

end

/-! ## What a packet does to the router and the session -/

def placeAll (c : String) (entries : List (String × StoredSubscription)) (s : Subscriptions) :
    Subscriptions :=
  entries.foldl (fun s entry => s.place (keyOf entry.1) (subscriptionOf c entry.1 entry.2)) s

section

variable {h : Handler} {s : Subscriptions} {filter : TopicFilter}

theorem hasSubscription_iff {c topicFilter : String} : hasSubscription s c topicFilter ↔
    ∃ sub ∈ s.get (keyOf topicFilter), sub.clientId = c ∧
      sub.shareGroup = (parseSharedSubscription topicFilter).2 := by
  unfold hasSubscription keyOf
  simp

/-- A subscribe removes no filter: what it replaces has its identity. -/
theorem hasSubscription_place {c topicFilter key : String} {sub : Subscription}
    (hhas : hasSubscription s c topicFilter) :
    hasSubscription (s.place key sub) c topicFilter := by
  rw [hasSubscription_iff] at hhas ⊢
  obtain ⟨old, hold, hcl, hgroup⟩ := hhas
  by_cases hsame : keyOf topicFilter = key ∧ old.identity = sub.identity
  · refine ⟨sub, mem_place.mpr (.inl ⟨hsame.1, rfl⟩), ?_, ?_⟩
    · exact (congrArg Prod.fst hsame.2).symm.trans hcl
    · exact (congrArg (fun i => i.2.1) hsame.2).symm.trans hgroup
  · exact ⟨old, mem_place.mpr (.inr ⟨hold, hsame⟩), hcl, hgroup⟩

theorem retainHandling_storedSubscription (h : Handler) (filter : TopicFilter)
    (subscriptionId : Option UInt32) (flowId : Option UInt64) :
    (storedSubscription h subscriptionId flowId filter).retainHandling ≤ 2 := by
  show filter.options.retainHandling.toU8 ≤ 2
  cases filter.options.retainHandling <;> decide

/-- The current owner's filters are accepted or refused one by one; one that the client
already has is not refused for the quota. -/
theorem routeSubscriptions_spec (subscriptionId : Option UInt32) (flowId : Option UInt64)
    (entries : List (TopicFilter × Option SubAckReasonCode)) (s : Subscriptions) :
    ∃ codes accepted, routeSubscriptions h true subscriptionId flowId entries s =
        (placeAll h.clientId (accepted.map AcceptedFilter.entry) s, .answered (codes, accepted)) ∧
      (∀ a ∈ accepted, (a.filter, none) ∈ entries ∧
        a.stored = storedSubscription h subscriptionId flowId a.filter) ∧
      ∀ filter, (filter, none) ∈ entries → hasSubscription s h.clientId filter.filter →
        ∃ a ∈ accepted, a.filter = filter := by
  induction entries generalizing s with
  | nil =>
    refine ⟨[], [], rfl, fun a ha => ?_, fun filter hmem => ?_⟩
    · cases ha
    · cases hmem
  | cons head rest ih =>
    obtain ⟨filter, reasonCode⟩ := head
    -- a filter that is refused leaves the router as it is
    have href : ∀ code : SubAckReasonCode,
        (∀ filter', (filter', none) = (filter, reasonCode) →
          hasSubscription s h.clientId filter'.filter = false) →
        ∃ codes accepted, (match routeSubscriptions h true subscriptionId flowId rest s with
            | (s, .answered (codes, accepted)) => (s, .answered (code :: codes, accepted))
            | other => other) =
            (placeAll h.clientId (accepted.map AcceptedFilter.entry) s,
              .answered (codes, accepted)) ∧
          (∀ a ∈ accepted, (a.filter, none) ∈ (filter, reasonCode) :: rest ∧
            a.stored = storedSubscription h subscriptionId flowId a.filter) ∧
          ∀ filter', (filter', none) ∈ (filter, reasonCode) :: rest →
            hasSubscription s h.clientId filter'.filter = true →
              ∃ a ∈ accepted, a.filter = filter' := by
      intro code hnew
      obtain ⟨codes, accepted, hroute, hacc, hkept⟩ := ih s
      refine ⟨code :: codes, accepted, by rw [hroute], fun a ha => ?_, fun filter' hmem hhas => ?_⟩
      · exact ⟨mem_cons_of_mem _ (hacc a ha).1, (hacc a ha).2⟩
      · rcases mem_cons.mp hmem with heq | hmem
        · rw [hnew filter' heq] at hhas
          cases hhas
        · exact hkept filter' hmem hhas
    unfold routeSubscriptions
    cases reasonCode with
    | some code => exact href code (fun filter' heq => by cases heq)
    | none =>
      cases hquota : checkSubscriptionQuota h filter s with
      | some code =>
        refine href code (fun filter' heq => ?_)
        cases heq
        unfold checkSubscriptionQuota at hquota
        by_contra hhas
        rw [Bool.not_eq_false] at hhas
        simp [hhas] at hquota
      | none =>
        obtain ⟨outcome, hfen, hsubd⟩ := subscribe_ok s
          (storedSubscriptionRequest h.clientId filter.filter
            (storedSubscription h subscriptionId flowId filter))
          (retainHandling_storedSubscription h filter subscriptionId flowId)
        obtain ⟨codes, accepted, hroute, hacc, hkept⟩ := ih (s.place (keyOf filter.filter)
          (subscriptionOf h.clientId filter.filter
            (storedSubscription h subscriptionId flowId filter)))
        replace hsubd : s.subscribe (storedSubscriptionRequest h.clientId filter.filter
            (storedSubscription h subscriptionId flowId filter)) =
          .ok (s.place (keyOf filter.filter) (subscriptionOf h.clientId filter.filter
            (storedSubscription h subscriptionId flowId filter)), outcome) := hsubd
        let first : AcceptedFilter :=
          ⟨filter, storedSubscription h subscriptionId flowId filter, outcome = .new⟩
        refine ⟨.fromQos first.stored.qos :: codes, first :: accepted, ?_, fun a ha => ?_,
          fun filter' hmem hhas => ?_⟩
        · dsimp only
          unfold subscribeAs
          rw [if_pos rfl, hsubd]
          cases outcome with
          | fenced => exact absurd rfl hfen
          | new | updated =>
            dsimp only
            rw [hroute]
            rfl
        · rcases mem_cons.mp ha with rfl | ha
          · exact ⟨mem_cons_self, rfl⟩
          · exact ⟨mem_cons_of_mem _ (hacc a ha).1, (hacc a ha).2⟩
        · rcases mem_cons.mp hmem with heq | hmem
          · cases heq
            exact ⟨first, mem_cons_self, rfl⟩
          · obtain ⟨a, ha, hfilt⟩ := hkept filter' hmem (hasSubscription_place hhas)
            exact ⟨a, mem_cons_of_mem _ ha, hfilt⟩

variable {flowId : Option UInt64} {entries : List (String × StoredSubscription)}
  {stored : Table String StoredSubscription}

theorem Mirrored.addAll {c : String} (hmir : Mirrored c s stored)
    (hents : ∀ entry ∈ entries, entry.2.retainHandling ≤ 2 ∧ entry.2.flowId = flowId)
    (hflow : ∀ entry ∈ entries, ∀ old, stored.lookup entry.1 = some old → old.flowId = flowId) :
    Mirrored c (placeAll c entries s)
      (entries.foldl (fun stored entry => stored.insert entry.1 entry.2) stored) := by
  induction entries generalizing s stored with
  | nil => exact hmir
  | cons entry _ ih =>
    obtain ⟨⟨hretain, hon⟩, hrest⟩ := forall_mem_cons.mp hents
    obtain ⟨hfirst, hlater⟩ := forall_mem_cons.mp hflow
    have hadd := hmir.add hretain (fun old hold => (hfirst old hold).trans hon.symm)
    refine ih hadd hrest fun later hmem old hold => ?_
    rcases of_lookup_insert hold with ⟨-, rfl⟩ | ⟨-, hold⟩
    · exact hon
    · exact hlater later hmem old hold

/-- Subscriptions of one flow leave those of the others. -/
theorem mem_placeAll_of_flow {c key : String} {sub : Subscription}
    (hents : ∀ entry ∈ entries, entry.2.flowId = flowId) (hflow : sub.flowId ≠ flowId)
    (hsub : sub ∈ s.get key) : sub ∈ (placeAll c entries s).get key := by
  induction entries generalizing s with
  | nil => exact hsub
  | cons entry _ ih =>
    obtain ⟨hon, hrest⟩ := forall_mem_cons.mp hents
    refine ih hrest (mem_place.mpr (.inr ⟨hsub, ?_⟩))
    rintro ⟨-, hident⟩
    exact hflow ((congrArg (fun i => i.2.2) hident).trans hon)

theorem lookup_insertAll_of_ne {filter : String} (hne : ∀ entry ∈ entries, entry.1 ≠ filter) :
    (entries.foldl (fun stored entry => stored.insert entry.1 entry.2) stored).lookup filter =
      stored.lookup filter := by
  induction entries generalizing stored with
  | nil => rfl
  | cons _ _ ih =>
    obtain ⟨hfirst, hrest⟩ := forall_mem_cons.mp hne
    rw [foldl_cons, ih hrest, lookup_insert_of_ne _ (Ne.symm hfirst)]

/-- The entry of a filter is the last one that has been added for it. -/
theorem lookup_insertAll {filter : String} (hents : ∀ entry ∈ entries, entry.2.flowId = flowId)
    (hmem : ∃ entry ∈ entries, entry.1 = filter) {entry : StoredSubscription}
    (hlook : (entries.foldl (fun stored entry => stored.insert entry.1 entry.2) stored).lookup
      filter = some entry) : entry.flowId = flowId := by
  induction entries generalizing stored with
  | nil => simp at hmem
  | cons first rest ih =>
    obtain ⟨hon, hrest⟩ := forall_mem_cons.mp hents
    by_cases hlater : ∃ entry ∈ rest, entry.1 = filter
    · exact ih hrest hlater hlook
    · obtain ⟨entry', hent', rfl⟩ := hmem
      have hfirst : entry' = first := by
        rcases mem_cons.mp hent' with h | h
        · exact h
        · exact absurd ⟨entry', h, rfl⟩ hlater
      subst hfirst
      rw [foldl_cons, lookup_insertAll_of_ne (fun e he heq => hlater ⟨e, he, heq⟩),
        lookup_insert] at hlook
      rw [← some.inj hlook]
      exact hon

theorem mirrored_addAll_iff {c : String} (hmir : Mirrored c s stored)
    (hents : ∀ entry ∈ entries, entry.2.retainHandling ≤ 2 ∧ entry.2.flowId = flowId) :
    Mirrored c (placeAll c entries s)
        (entries.foldl (fun stored entry => stored.insert entry.1 entry.2) stored) ↔
      ∀ entry ∈ entries, ∀ old, stored.lookup entry.1 = some old → old.flowId = flowId := by
  refine ⟨fun hafter entry hent old hold => ?_, hmir.addAll hents⟩
  by_contra hflow
  -- the old subscription is still there, but its entry is gone
  have hflows : ∀ entry ∈ entries, entry.2.flowId = flowId := fun e he => (hents e he).2
  have hsub : subscriptionOf c entry.1 old ∈ s.get (keyOf entry.1) :=
    (hmir.mem _ _ rfl).mpr ⟨entry.1, old, hold, rfl, rfl⟩
  have hstays := mem_placeAll_of_flow (c := c) hflows hflow hsub
  obtain ⟨filter, _, hlook, hkey, heq⟩ := (hafter.mem _ _ rfl).mp hstays
  have hfilt : filter = entry.1 := filter_eq_of_identity hkey (congrArg Subscription.shareGroup heq)
  subst hfilt
  have hnew := lookup_insertAll hflows ⟨entry, hent, rfl⟩ hlook
  exact hflow ((congrArg Subscription.flowId heq).symm.trans hnew)

end

/-! ## The owner of the client id -/

/-- The handler is registered, and the session of the client in the storage is its own. -/
structure Owner (h : Handler) (s : State) (session : ClientSession) : Prop where
  current : s.clients.lookup h.clientId = some h.generation
  stored : (s.sessions.bind fun sessions => sessions.lookup h.clientId) = some session
  token : session.connectionToken = h.generation

section

variable {h : Handler} {s : State} {session : ClientSession}
  {order : Table String StoredSubscription → List (String × StoredSubscription)}

theorem Owner.isCurrent (hown : Owner h s session) : s.isCurrent h := by
  unfold State.isCurrent
  rw [hown.current]
  simp

/-- What the owner writes is in its session. -/
theorem Owner.persist (order : Table String StoredSubscription → List (String × StoredSubscription))
    (hown : Owner h s session) (update : ClientSession → ClientSession)
    (hupd : (update session).connectionToken = session.connectionToken) :
    (persistOrRestoreRoutes h order (.ok ()) update s).2 = none ∧
    Owner h (persistOrRestoreRoutes h order (.ok ()) update s).1 (update session) ∧
    (persistOrRestoreRoutes h order (.ok ()) update s).1.subscriptions = s.subscriptions := by
  obtain ⟨sessions, hsesns, hlook⟩ := bind_eq_some_iff.mp hown.stored
  unfold persistOrRestoreRoutes
  rw [hsesns]
  refine ⟨rfl, ⟨hown.current, ?_, hupd.trans hown.token⟩, rfl⟩
  show (updateStoredSession h update sessions).lookup h.clientId = _
  unfold updateStoredSession
  rw [hlook]
  dsimp only
  rw [if_pos hown.token, lookup_insert]

/-- A SUBSCRIBE packet whose filters are well-formed puts the accepted ones into the router and
into the session. -/
theorem Owner.handleSubscribe (hown : Owner h s session) {authorizeSubscribe : String → Bool}
    {flowId : Option UInt64} {packet : SubscribePacket}
    (hvalid : ∀ filter ∈ packet.filters, ∃ code, validate authorizeSubscribe filter = .ok code) :
    ∃ accepted : List AcceptedFilter,
      (∀ a ∈ accepted, a.filter ∈ packet.filters ∧
        validate authorizeSubscribe a.filter = .ok none ∧
        a.stored = storedSubscription h packet.properties.getSubscriptionIdentifier flowId
          a.filter) ∧
      (∀ filter ∈ packet.filters, validate authorizeSubscribe filter = .ok none →
        hasSubscription s.subscriptions h.clientId filter.filter →
        ∃ a ∈ accepted, a.filter = filter) ∧
      (handle h order s (.subscribe flowId authorizeSubscribe packet)).subscriptions =
        placeAll h.clientId (accepted.map AcceptedFilter.entry) s.subscriptions ∧
      Owner h (handle h order s (.subscribe flowId authorizeSubscribe packet))
        (addSubscriptions (accepted.map AcceptedFilter.entry) session) := by
  obtain ⟨reasonCodes, hmapM⟩ := exists_mapM_iff.mpr hvalid
  obtain ⟨_, accepted, hroute, hacc, hkept⟩ := routeSubscriptions_spec (h := h)
    packet.properties.getSubscriptionIdentifier flowId (packet.filters.zip reasonCodes)
    s.subscriptions
  refine ⟨accepted, fun a ha => ?_, fun filter hmem hok hhas => ?_, ?_⟩
  · obtain ⟨hmem, hsto⟩ := hacc a ha
    obtain ⟨hmem, hok⟩ := (mem_zip_of_mapM hmapM _ _).mp hmem
    exact ⟨hmem, hok, hsto⟩
  · exact hkept filter ((mem_zip_of_mapM hmapM _ _).mpr ⟨hmem, hok⟩) hhas
  · dsimp only [handle]
    unfold Subscribing.handleSubscribe
    rw [hmapM]
    dsimp only
    rw [hown.isCurrent, hroute]
    dsimp only
    split
    · -- nothing has been accepted
      rename_i hemp
      obtain rfl := isEmpty_iff.mp hemp
      exact ⟨rfl, hown.current, hown.stored, hown.token⟩
    · have hown' : Owner h ⟨placeAll h.clientId (accepted.map AcceptedFilter.entry)
          s.subscriptions, s.clients, s.sessions, s.session⟩ session :=
        ⟨hown.current, hown.stored, hown.token⟩
      obtain ⟨hnone, hpers, hsubs⟩ := Owner.persist order hown'
        (addSubscriptions (accepted.map AcceptedFilter.entry)) rfl
      -- the copy of the session plays no part
      cases hresult : persistOrRestoreRoutes h order (.ok ())
          (addSubscriptions (accepted.map AcceptedFilter.entry)) ⟨placeAll h.clientId
            (accepted.map AcceptedFilter.entry) s.subscriptions, s.clients, s.sessions,
            s.session⟩ with
      | mk _ error =>
        rw [hresult] at hnone hpers hsubs
        obtain rfl : error = none := hnone
        exact ⟨hsubs, hpers.current, hpers.stored, hpers.token⟩

/-- A SUBSCRIBE packet of the owner keeps the router and the session alike exactly if the
client has none of the filters that get through on another flow. -/
theorem Owner.subscribe_mirrored_iff (hown : Owner h s session)
    (hmir : Mirrored h.clientId s.subscriptions session.subscriptions)
    {authorizeSubscribe : String → Bool} {flowId : Option UInt64} {packet : SubscribePacket}
    (hvalid : ∀ filter ∈ packet.filters, ∃ code, validate authorizeSubscribe filter = .ok code) :
    (∃ session', Owner h (handle h order s (.subscribe flowId authorizeSubscribe packet)) session' ∧
      Mirrored h.clientId (handle h order s
        (.subscribe flowId authorizeSubscribe packet)).subscriptions
        session'.subscriptions) ↔
      ∀ filter ∈ packet.filters, validate authorizeSubscribe filter = .ok none →
        ∀ old, session.subscriptions.lookup filter.filter = some old → old.flowId = flowId := by
  obtain ⟨accepted, hacc, hkept, hsubs, hown'⟩ :=
    Owner.handleSubscribe (h := h) (s := s) hown hvalid
  have hents : ∀ entry ∈ accepted.map AcceptedFilter.entry,
      entry.2.retainHandling ≤ 2 ∧ entry.2.flowId = flowId := by
    intro entry hent
    obtain ⟨a, ha, rfl⟩ := mem_map.mp hent
    obtain ⟨-, -, hsto⟩ := hacc a ha
    unfold AcceptedFilter.entry
    rw [hsto]
    exact ⟨retainHandling_storedSubscription h a.filter _ _, rfl⟩
  have hiff := mirrored_addAll_iff hmir hents
  constructor
  · rintro ⟨session', hsess', hafter⟩ filter hfilt hok old hold
    obtain rfl := some.inj (hown'.stored.symm.trans hsess'.stored)
    rw [hsubs] at hafter
    -- a filter the client has is accepted
    have hhas : hasSubscription s.subscriptions h.clientId filter.filter := by
      rw [hasSubscription_iff]
      refine ⟨subscriptionOf h.clientId filter.filter old, ?_, rfl, rfl⟩
      exact (hmir.mem _ _ rfl).mpr ⟨filter.filter, old, hold, rfl, rfl⟩
    obtain ⟨a, ha, rfl⟩ := hkept filter hfilt hok hhas
    exact hiff.mp hafter a.entry (mem_map_of_mem ha) old hold
  · intro hflow
    refine ⟨_, hown', ?_⟩
    rw [hsubs]
    refine hiff.mpr fun entry hent old hold => ?_
    obtain ⟨a, ha, rfl⟩ := mem_map.mp hent
    obtain ⟨hmem, hok, -⟩ := hacc a ha
    exact hflow a.filter hmem hok old hold

/-- One filter of an UNSUBSCRIBE packet: an entry of another flow is left, in the router and in
the session. -/
theorem Mirrored.unsubscribe (filter : String) (flowId : Option UInt64) {c : String}
    {subscriptions : Subscriptions} {stored : Table String StoredSubscription}
    (hmir : Mirrored c subscriptions stored) :
    Mirrored c (subscriptions.unsubscribe c filter flowId).1
      (if (subscriptions.unsubscribe c filter flowId).2 = .removed then stored.erase filter
        else stored) := by
  have houtcome : (subscriptions.unsubscribe c filter flowId).2 = .removed ↔
      ∃ entry, stored.lookup filter = some entry ∧ entry.flowId = flowId := by
    have hany : (subscriptions.unsubscribe c filter flowId).2 = .removed ↔
        ∃ sub ∈ subscriptions.get (keyOf filter),
          sub.identity = (c, (parseSharedSubscription filter).2, flowId) := by
      unfold Subscriptions.unsubscribe keyOf
      dsimp only
      rw [← any_eq_true.trans (exists_congr fun sub => and_congr_right fun _ =>
        decide_eq_true_iff)]
      cases (subscriptions.get (parseSharedSubscription filter).1).any _ <;> simp
    rw [hany]
    constructor
    · rintro ⟨sub, hsub, hident⟩
      have hcl : sub.clientId = c := congrArg Prod.fst hident
      obtain ⟨filter', entry, hlook, hkey, rfl⟩ := (hmir.mem _ _ hcl).mp hsub
      have hfilt : filter' = filter := by
        refine parseSharedSubscription_inj (Prod.ext hkey ?_)
        exact congrArg (fun i => i.2.1) hident
      subst hfilt
      exact ⟨entry, hlook, congrArg (fun i => i.2.2) hident⟩
    · rintro ⟨entry, hlook, rfl⟩
      exact ⟨subscriptionOf c filter entry, (hmir.mem _ _ rfl).mpr ⟨filter, entry, hlook, rfl,
        rfl⟩, rfl⟩
  by_cases hremoved : (subscriptions.unsubscribe c filter flowId).2 = .removed
  · rw [if_pos hremoved]
    obtain ⟨entry, hlook, rfl⟩ := houtcome.mp hremoved
    exact hmir.erase hlook
  · rw [if_neg hremoved]
    refine ⟨fun key sub hsub => ?_, hmir.retainHandling⟩
    rw [mem_unsubscribe, hmir.mem key sub hsub]
    refine ⟨fun hmem => hmem.1, fun hmem => ⟨hmem, ?_⟩⟩
    rintro ⟨rfl, hident⟩
    obtain ⟨filter', entry, hlook, hkey, rfl⟩ := hmem
    have hfilt : filter' = filter := by
      refine parseSharedSubscription_inj (Prod.ext hkey ?_)
      exact congrArg (fun i => i.2.1) hident
    subst hfilt
    exact hremoved (houtcome.mpr ⟨entry, hlook, congrArg (fun i => i.2.2) hident⟩)

theorem Mirrored.unsubscribeEach (flowId : Option UInt64) (filters : List String)
    {subscriptions : Subscriptions} {stored : Table String StoredSubscription}
    (hmir : Mirrored h.clientId subscriptions stored) :
    Mirrored h.clientId (unsubscribeEach h flowId filters subscriptions).1
      ((unsubscribeEach h flowId filters subscriptions).2.1.foldl
        (fun stored filter => stored.erase filter) stored) := by
  induction filters generalizing subscriptions stored with
  | nil => exact hmir
  | cons filter _ ih =>
    have hnext := ih (Mirrored.unsubscribe filter flowId hmir)
    unfold Subscribing.unsubscribeEach
    dsimp only
    by_cases hremoved : (subscriptions.unsubscribe h.clientId filter flowId).2 = .removed
    · rw [if_pos hremoved] at hnext ⊢
      exact hnext
    · rw [if_neg hremoved] at hnext ⊢
      exact hnext

/-- An UNSUBSCRIBE packet of the owner keeps the router and the session alike. -/
theorem Owner.unsubscribe_mirrored (hown : Owner h s session)
    (hmir : Mirrored h.clientId s.subscriptions session.subscriptions)
    {flowId : Option UInt64} {packet : UnsubscribePacket} :
    ∃ session', Owner h (handle h order s (.unsubscribe flowId packet)) session' ∧
      Mirrored h.clientId (handle h order s (.unsubscribe flowId packet)).subscriptions
        session'.subscriptions := by
  have hafter := Mirrored.unsubscribeEach flowId packet.filters hmir
  dsimp only [handle]
  unfold handleUnsubscribe
  rw [hown.isCurrent, Bool.not_true, Bool.false_and, if_neg (by decide)]
  cases hresult : unsubscribeEach h flowId packet.filters s.subscriptions with
  | mk subscriptions rest =>
    obtain ⟨removed, _⟩ := rest
    rw [hresult] at hafter
    dsimp only
    have hown' : Owner h ⟨subscriptions, s.clients, s.sessions, s.session⟩ session :=
      ⟨hown.current, hown.stored, hown.token⟩
    split
    · rename_i hemp
      obtain rfl := isEmpty_iff.mp hemp
      exact ⟨session, hown', hafter⟩
    · obtain ⟨hnone, hpers, hsubs⟩ := Owner.persist order hown'
        (removeSubscriptions removed) rfl
      cases hpersisted : persistOrRestoreRoutes h order (.ok ()) (removeSubscriptions removed)
          ⟨subscriptions, s.clients, s.sessions, s.session⟩ with
      | mk next error =>
        rw [hpersisted] at hnone hpers hsubs
        obtain rfl : error = none := hnone
        refine ⟨removeSubscriptions removed session, ⟨hpers.current, hpers.stored, hpers.token⟩, ?_⟩
        show Mirrored h.clientId next.subscriptions _
        rw [hsubs]
        exact hafter

end

/-! ## Restoring a session -/

/-- Requests of different filters, one after the other: what is there is one of theirs, or was
there and has been replaced by none of them. -/
theorem mem_subscribeEach {c : String} {entries : List (String × StoredSubscription)}
    (hnd : (entries.map Prod.fst).Nodup)
    (hretain : ∀ entry ∈ entries, entry.2.retainHandling ≤ 2) (s : Subscriptions) :
    ∃ s', (entries.map fun entry => storedSubscriptionRequest c entry.1 entry.2).foldlM
        (fun s request => (s.subscribe request).map Prod.fst) s = Except.ok s' ∧
      ∀ key sub, sub ∈ s'.get key ↔
        (∃ entry ∈ entries, keyOf entry.1 = key ∧ subscriptionOf c entry.1 entry.2 = sub) ∨
        (sub ∈ s.get key ∧ ∀ entry ∈ entries,
          ¬ (keyOf entry.1 = key ∧
            (subscriptionOf c entry.1 entry.2).identity = sub.identity)) := by
  induction entries generalizing s with
  | nil => exact ⟨s, rfl, fun key sub => by simp⟩
  | cons first _ ih =>
    rw [map_cons, nodup_cons] at hnd
    obtain ⟨hfirst, hrest⟩ := forall_mem_cons.mp hretain
    obtain ⟨outcome, -, hsubd⟩ := subscribe_ok s
      (storedSubscriptionRequest c first.1 first.2) hfirst
    replace hsubd : s.subscribe (storedSubscriptionRequest c first.1 first.2) =
      .ok (s.place (keyOf first.1) (subscriptionOf c first.1 first.2), outcome) := hsubd
    obtain ⟨s', hfold, hmem⟩ := ih hnd.2 hrest
      (s.place (keyOf first.1) (subscriptionOf c first.1 first.2))
    refine ⟨s', ?_, fun key sub => ?_⟩
    · rw [map_cons, foldlM_cons, hsubd]
      exact hfold
    · rw [hmem, mem_place]
      constructor
      · rintro (⟨entry, hent, hkey, hsub⟩ | ⟨⟨rfl, rfl⟩ | ⟨hold, hoth⟩, hnone⟩)
        · exact .inl ⟨entry, mem_cons_of_mem _ hent, hkey, hsub⟩
        · exact .inl ⟨first, mem_cons_self, rfl, rfl⟩
        · refine .inr ⟨hold, forall_mem_cons.mpr ⟨fun hboth => hoth ?_, hnone⟩⟩
          exact ⟨hboth.1.symm, hboth.2.symm⟩
      · rintro (⟨entry, hent, rfl, rfl⟩ | ⟨hold, hnone⟩)
        · rcases mem_cons.mp hent with rfl | hent
          · -- no later entry has its filter and group
            refine .inr ⟨.inl ⟨rfl, rfl⟩, fun later hlater hboth => hnd.1 ?_⟩
            have hfilt := filter_eq_of_identity hboth.1 (congrArg (fun i => i.2.1) hboth.2)
            exact mem_map.mpr ⟨later, hlater, hfilt⟩
          · exact .inl ⟨entry, hent, rfl, rfl⟩
        · obtain ⟨hhead, htail⟩ := forall_mem_cons.mp hnone
          exact .inr ⟨.inr ⟨hold, fun hboth => hhead ⟨hboth.1.symm, hboth.2.symm⟩⟩, htail⟩

/-- `set_client_subscriptions` makes the router mirror the session, whatever it had for the
client before. -/
theorem mirrored_setClientSubscriptions {c : String} {stored : Table String StoredSubscription}
    {order : List (String × StoredSubscription)} (horder : Table.Lists stored order)
    (hretain : ∀ filter entry, stored.lookup filter = some entry → entry.retainHandling ≤ 2)
    (s : Subscriptions) :
    ∃ s', s.setClientSubscriptions c order = .ok s' ∧ Mirrored c s' stored := by
  obtain ⟨s', hfold, hmem⟩ := mem_subscribeEach (c := c) horder.nodup
    (fun entry hent => hretain entry.1 entry.2 ((horder.mem _ _).mp hent))
    (s.prune c (order.map fun entry => storedSubscriptionRequest c entry.1 entry.2))
  refine ⟨s', hfold, fun _ _ hsub => ?_, hretain⟩
  rw [hmem]
  constructor
  · rintro (⟨entry, hent, hkey, heq⟩ | ⟨hold, hnone⟩)
    · exact ⟨entry.1, entry.2, (horder.mem _ _).mp hent, hkey, heq⟩
    · -- what has been left is named by a request, which has replaced it
      obtain ⟨-, hnamed⟩ := mem_prune.mp hold
      obtain ⟨request, hrequest, hkey, hident⟩ := hnamed hsub
      obtain ⟨entry, hent, rfl⟩ := mem_map.mp hrequest
      exact (hnone entry hent ⟨hkey, hident⟩).elim
  · rintro ⟨filter, entry, hlook, hkey, heq⟩
    exact .inl ⟨(filter, entry), (horder.mem _ _).mpr hlook, hkey, heq⟩

/-! ## Whole runs -/

/-- None of the filters of a SUBSCRIBE packet that get through is held by the client on another
flow; a packet with a filter that is a protocol error changes nothing. -/
def SameFlow (h : Handler) (s : State) : Action → Prop
  | .subscribe flowId authorizeSubscribe packet =>
    (∀ filter ∈ packet.filters, ∃ code, validate authorizeSubscribe filter = .ok code) →
    ∀ session, Owner h s session →
    ∀ filter ∈ packet.filters, validate authorizeSubscribe filter = .ok none →
      ∀ old, session.subscriptions.lookup filter.filter = some old → old.flowId = flowId
  | .unsubscribe _ _ => True

section

variable {h : Handler} {s : State} {session : ClientSession}
  {order : Table String StoredSubscription → List (String × StoredSubscription)}

theorem Owner.handle_mirrored_iff (hown : Owner h s session)
    (hmir : Mirrored h.clientId s.subscriptions session.subscriptions) (a : Action) :
    (∃ session', Owner h (handle h order s a) session' ∧
      Mirrored h.clientId (handle h order s a).subscriptions session'.subscriptions) ↔
      SameFlow h s a := by
  cases a with
  | unsubscribe flowId packet => exact iff_of_true (hown.unsubscribe_mirrored hmir) trivial
  | subscribe flowId authorizeSubscribe packet =>
    by_cases hvalid : ∀ filter ∈ packet.filters, ∃ code,
      validate authorizeSubscribe filter = .ok code
    · rw [hown.subscribe_mirrored_iff hmir hvalid]
      constructor
      · intro hflow _ session' hown'
        obtain rfl := some.inj (hown.stored.symm.trans hown'.stored)
        exact hflow
      · exact fun hflow => hflow hvalid session hown
    · -- the packet is refused before anything changes
      refine iff_of_true ⟨session, ?_⟩ (fun hall => absurd hall hvalid)
      have hsame : handle h order s (.subscribe flowId authorizeSubscribe packet) = s := by
        dsimp only [handle]
        unfold Subscribing.handleSubscribe
        cases hmapM : packet.filters.mapM (validate authorizeSubscribe) with
        | error error => rfl
        | ok reasonCodes => exact absurd (exists_mapM_iff.mp ⟨reasonCodes, hmapM⟩) hvalid
      rw [hsame]
      exact ⟨hown, hmir⟩

end

/-- For packets that put no filter on a second flow, the router has exactly the subscriptions of
the stored session after each of them, and restoring the session anywhere brings them back.
A packet that does not meet the condition breaks this at once. -/
theorem subscriptions_mirrored (h : Handler)
    (order : Table String StoredSubscription → List (String × StoredSubscription)) {s₀ s : State}
    {session₀ : ClientSession} (howner : Owner h s₀ session₀)
    (hmirror : Mirrored h.clientId s₀.subscriptions session₀.subscriptions)
    (hrun : Reachable (fun s a => some (handle h order s a)) (SameFlow h) s₀ s) :
    ∃ session, Owner h s session ∧
      Mirrored h.clientId s.subscriptions session.subscriptions ∧
      (∀ a, (∃ session', Owner h (handle h order s a) session' ∧
        Mirrored h.clientId (handle h order s a).subscriptions session'.subscriptions) ↔
          SameFlow h s a) ∧
      ∀ listed, Table.Lists session.subscriptions listed → ∀ other : Subscriptions,
        ∃ restored, other.setClientSubscriptions h.clientId listed = .ok restored ∧
          ∀ key sub, sub.clientId = h.clientId →
            (sub ∈ restored.get key ↔ sub ∈ s.subscriptions.get key) := by
  have hmirrored : ∃ session, Owner h s session ∧
      Mirrored h.clientId s.subscriptions session.subscriptions := by
    refine hrun.invariant (p := fun s => ∃ session, Owner h s session ∧
      Mirrored h.clientId s.subscriptions session.subscriptions) ⟨session₀, howner, hmirror⟩ ?_
    rintro t a t' ⟨session, hown, hmir⟩ hcond hact
    obtain rfl := some.inj hact
    exact (hown.handle_mirrored_iff hmir a).mpr hcond
  obtain ⟨session, hown, hmir⟩ := hmirrored
  refine ⟨session, hown, hmir, hown.handle_mirrored_iff hmir, fun listed hlisted other => ?_⟩
  obtain ⟨restored, hset, hrestored⟩ :=
    mirrored_setClientSubscriptions hlisted hmir.retainHandling other
  refine ⟨restored, hset, fun key sub hsub => ?_⟩
  rw [hrestored.mem key sub hsub, hmir.mem key sub hsub]

/-! ### One filter on the control connection and on a flow -/

def owner : Handler := { clientId := "c", generation := 1 }

def freshSession : ClientSession :=
  { ClientSession.new "c" true none 0 with connectionToken := 1 }

def fresh : State where
  clients := insert "c" 1 ∅
  sessions := some (insert "c" freshSession ∅)

def filterA : TopicFilter := { filter := "a", options := { qos := .atMostOnce } }

def subscribeA (flowId : Option UInt64) : Action :=
  .subscribe flowId (fun _ => true) { packetId := 1, filters := [filterA] }

theorem owner_fresh : Owner owner fresh freshSession := ⟨rfl, rfl, rfl⟩

theorem mirrored_fresh : Mirrored "c" fresh.subscriptions freshSession.subscriptions := by
  refine ⟨fun _ _ _ => ⟨fun hmem => ?_, fun hent => ?_⟩, fun filter entry hlook => ?_⟩
  · cases hmem
  · obtain ⟨filter, entry, hlook, -⟩ := hent
    cases hlook
  · cases hlook

theorem sameFlow_fresh (flowId : Option UInt64) : SameFlow owner fresh (subscribeA flowId) := by
  intro _ session hown _ _ _ _ hold
  obtain rfl : freshSession = session := some.inj hown.stored
  cases hold

/-- The owner subscribes on its control connection, unsubscribes, and subscribes to the same
filter on a flow. -/
def movedToFlow : List Action :=
  [subscribeA none, .unsubscribe none { packetId := 2, filters := ["a"] }, subscribeA (some 5)]

/-- The state after the first two of them. -/
def between : State :=
  handle owner (fun _ => []) (handle owner (fun _ => []) fresh (subscribeA none))
    (.unsubscribe none { packetId := 2, filters := ["a"] })

theorem sameFlow_between (flowId : Option UInt64) :
    SameFlow owner between (subscribeA flowId) := by
  intro _ session hown filter hfilter _ old hold
  obtain rfl := mem_singleton.mp hfilter
  have hstored : between.sessions.bind (fun sessions => sessions.lookup "c") =
      some (removeSubscriptions ["a"] (addSubscriptions
        [("a", storedSubscription owner none none filterA)] freshSession)) := rfl
  obtain rfl := some.inj (hstored.symm.trans hown.stored)
  have hnone : (removeSubscriptions ["a"] (addSubscriptions
      [("a", storedSubscription owner none none filterA)] freshSession)).subscriptions.lookup "a" =
        none := by
    simp [removeSubscriptions, addSubscriptions]
  cases hnone.symm.trans hold

theorem subscriptions_mirrored_moved : ∃ s session,
    Foundation.follow (fun s a => some (handle owner (fun _ => []) s a)) fresh movedToFlow =
      some s ∧
    Owner owner s session ∧ Mirrored "c" s.subscriptions session.subscriptions ∧
    session.subscriptions.lookup "a" = some (storedSubscription owner none (some 5) filterA) := by
  have hfirst : Reachable (fun s a => some (handle owner (fun _ => []) s a)) (SameFlow owner) fresh
      (handle owner (fun _ => []) fresh (subscribeA none)) := .step .start (sameFlow_fresh none) rfl
  have hbetween : Reachable (fun s a => some (handle owner (fun _ => []) s a)) (SameFlow owner)
      fresh between :=
    hfirst.step (a := .unsubscribe none { packetId := 2, filters := ["a"] }) trivial rfl
  have hrun := hbetween.step (sameFlow_between (some 5)) rfl
  obtain ⟨session, howner, hmirror, -⟩ := subscriptions_mirrored owner (fun _ => []) owner_fresh
    mirrored_fresh hrun
  refine ⟨_, session, rfl, howner, hmirror, ?_⟩
  obtain rfl := some.inj howner.stored
  rfl

/-- The same filter on the control connection and then on a flow: the router has both, the
session the second. -/
theorem second_flow_not_mirrored :
    (∃ session, Owner owner (handle owner (fun _ => [])
      (handle owner (fun _ => []) fresh (subscribeA none)) (subscribeA (some 5))) session) ∧
    ¬ ∃ session, Owner owner (handle owner (fun _ => [])
        (handle owner (fun _ => []) fresh (subscribeA none)) (subscribeA (some 5))) session ∧
      Mirrored "c" (handle owner (fun _ => []) (handle owner (fun _ => []) fresh (subscribeA none))
        (subscribeA (some 5))).subscriptions session.subscriptions := by
  have hvalid : ∀ filter ∈ [filterA], ∃ code, validate (fun _ => true) filter = .ok code := by
    intro filter hfilter
    obtain rfl := mem_singleton.mp hfilter
    exact ⟨none, rfl⟩
  obtain ⟨session, howner, hmirror⟩ :=
    (owner_fresh.handle_mirrored_iff mirrored_fresh (subscribeA none)).mpr (sameFlow_fresh none)
  constructor
  · exact ⟨_, rfl, rfl, rfl⟩
  · intro hafter
    have hflow := (howner.handle_mirrored_iff hmirror (subscribeA (some 5))).mp hafter hvalid
      session
      howner filterA (mem_singleton_self _) rfl
      (storedSubscription owner none none filterA)
    have hstored : (handle owner (fun _ => []) fresh (subscribeA none)).sessions.bind
        (fun sessions => sessions.lookup "c") = some (addSubscriptions
          [("a", storedSubscription owner none none filterA)] freshSession) := rfl
    obtain rfl := some.inj (hstored.symm.trans howner.stored)
    have hlookup : (freshSession.subscriptions.insert "a"
        (storedSubscription owner none none filterA)).lookup "a" =
      some (storedSubscription owner none none filterA) := lookup_insert _
    cases hflow hlookup

end MqttLib.Broker.Subscribing
