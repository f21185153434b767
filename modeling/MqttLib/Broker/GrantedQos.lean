/-
MqttLib.Broker.GrantedQos

The QoS a SUBACK grants and the QoS of what is sent because of the subscription.  A copy gets
its QoS when it is made, from the subscription as it then is (`effective_qos` of `router.rs`),
and keeps it in the lanes, the queue and the storage.  A retained message is sent with what
the SUBSCRIBE asked for (`deliver_retained_for_filter` of `subscribe.rs`).
-/

import MqttLib.Broker.Expiry
import MqttLib.Broker.Granting
import MqttLib.Broker.ShareGroups

namespace MqttLib.Broker.GrantedQos

open Foundation Protocol Storage MqttLib.Broker.Routing Subscriptions List Option Function
  MqttLib.Broker.Subscribing

/-! ## What is granted -/

def grantedBy : SubAckReasonCode → Option QoS
  | .grantedQoS0 => some .atMostOnce
  | .grantedQoS1 => some .atLeastOnce
  | .grantedQoS2 => some .exactlyOnce
  | _ => none

/-- What the latest SUBACK has granted, by the filter a subscription is kept under and its
identity. -/
abbrev Granted := String × SubscriptionIdentity → Option QoS

/-- A SUBACK with an answer for every filter. -/
def Granted.answered (granted : Granted) (clientId : String) (flowId : Option UInt64)
    (answers : List (TopicFilter × SubAckReasonCode)) : Granted :=
  answers.foldl (fun granted (filter, code) =>
    match grantedBy code with
    | some qos =>
      let (key, shareGroup) := parseSharedSubscription filter.filter
      update granted (key, clientId, shareGroup, flowId) (some qos)
    | none => granted) granted

/-! ## The copies -/

/-- Why a copy was made. -/
inductive Origin where
  /-- The plan of a publish, with the subscriptions and what was granted for them by then. -/
  | routed (subscriptions : Subscriptions) (granted : Granted) (publish : PublishPacket)
      (plan : DeliveryPlan)
  /-- A retained message that a filter of a SUBSCRIBE matches, with the answers of the SUBACK. -/
  | retained (maximumQos : UInt8) (message : PublishPacket) (filter : TopicFilter)
      (answers : List (TopicFilter × SubAckReasonCode))

/-- A copy on its way to the client. -/
structure Copy where
  origin : Origin
  state : Expiry.State

/-- A PUBLISH that has been written to the client. -/
structure Sent where
  origin : Origin
  qos : QoS

structure State where
  subscriptions : Subscriptions := {}
  granted : Granted := fun _ => none
  copies : List Copy := []
  sent : List Sent := []

inductive Action where
  /-- A SUBSCRIBE packet on the control connection or on a flow, with the answers of the
  authorization and of `get_retained_messages`. -/
  | subscribe (h : Handler) (flowId : Option UInt64) (authorizeSubscribe : String → Bool)
      (retained : String → List PublishPacket) (now : SystemTime) (packet : SubscribePacket)
  | publish (router : Router) (order : List (String × List Subscription))
      (groupOrder : ShareGroups → List ((String × String) × List Subscription))
      (publish : PublishPacket) (publishingClientId : Option String)
      (selectedGroups : Option (List String)) (state : RouterState) (now : SystemTime)
  /-- Subscriptions end: by UNSUBSCRIBE, or with their flow or session. -/
  | unsubscribe (keep : String → Subscription → Bool)
  /-- A step of one copy. -/
  | move (index : Nat) (step : Expiry.Action)

/-- The part of `deliver_retained_for_filter` that decides whether to send. -/
def shouldSend (options : SubscriptionOptions) (isNew : Bool) : Bool :=
  match options.retainHandling with
  | .sendAtSubscribe => true
  | .sendAtSubscribeIfNew => isNew
  | .doNotSend => false

/-- The copy `deliver_retained_for_filter` makes, with the QoS that was asked for. -/
def retainedCopy (options : SubscriptionOptions) (subscriptionId : Option UInt32)
    (message : PublishPacket) : PublishPacket :=
  { message with
    retain := true
    qos := effectiveQos message.qos options.qos
    properties := match subscriptionId with
      | some id => message.properties.setSubscriptionIdentifier id
      | none => message.properties }

/-- `deliver_retained_for_filter`. -/
def deliverRetainedForFilter (h : Handler) (answers : List (TopicFilter × SubAckReasonCode))
    (subscriptionId : Option UInt32) (retained : String → List PublishPacket) (now : SystemTime)
    (accepted : AcceptedFilter) : List Copy :=
  if shouldSend accepted.filter.options accepted.isNew then
    (retained accepted.filter.filter).map fun message =>
      ⟨.retained h.settings.maximumQos message accepted.filter answers,
        Expiry.received h.clientId
          (retainedCopy accepted.filter.options subscriptionId message) now⟩
  else []

/-- `handle_subscribe` of the owner of the client id, whose storage takes what is written. -/
def State.subscribe (s : State) (h : Handler) (flowId : Option UInt64)
    (authorizeSubscribe : String → Bool) (retained : String → List PublishPacket)
    (now : SystemTime) (packet : SubscribePacket) : Option State :=
  match packet.filters.mapM (validate authorizeSubscribe) with
  | .error _ => none
  | .ok reasonCodes =>
    let subscriptionId := packet.properties.getSubscriptionIdentifier
    let entries := packet.filters.zip reasonCodes
    match routeSubscriptions h true subscriptionId flowId entries s.subscriptions with
    | (subscriptions, .answered (codes, accepted)) =>
      let answers := (entries.map Prod.fst).zip codes
      some { s with
        subscriptions
        granted := s.granted.answered h.clientId flowId answers
        copies := s.copies ++ accepted.flatMap
          (deliverRetainedForFilter h answers subscriptionId retained now) }
    | _ => none

/-- The packet a step of a copy writes to the client. -/
def written : Expiry.Form → Expiry.Action → Option PublishPacket
  | .packet publish _ _, .deliver _ _ _ => some publish
  | .taken message, .drain _ _ now => some (message.toPublishPacket now)
  | _, _ => none

def act (s : State) : Action → Option State
  | .subscribe h flowId authorizeSubscribe retained now packet =>
    s.subscribe h flowId authorizeSubscribe retained now packet
  | .publish router order groupOrder publish publishingClientId selectedGroups state now =>
    let plans := (planRoute { router with subscriptions := s.subscriptions } order groupOrder
      publish publishingClientId selectedGroups state).1
    some { s with
      copies := s.copies ++ plans.map fun plan =>
        ⟨.routed s.subscriptions s.granted publish plan,
          Expiry.received plan.clientId plan.message now⟩ }
  | .unsubscribe keep => some { s with subscriptions := s.subscriptions.retain keep }
  | .move index step =>
    s.copies[index]?.bind fun copy =>
      (Expiry.act copy.state step).map fun state =>
        { s with
          copies := s.copies.set index { copy with state }
          sent := s.sent ++ ((written copy.state.form step).map fun publish =>
            ⟨copy.origin, publish.qos⟩).toList }

/-- A publish goes through the filters and the share groups in an order of the maps. -/
def Listed (s : State) : Action → Prop
  | .publish _ order groupOrder publish _ selectedGroups _ _ =>
    let groups := selectGroups
      (collectMatchingSubscriptions s.subscriptions order publish.topicName).1 selectedGroups
    Table.Lists s.subscriptions.wildcard.buckets.table order ∧
      Table.Lists groups (groupOrder groups)
  | _ => True

/-! ## The bound -/

/-- A plan is made because of a subscription. -/
def MadeFor (publish : PublishPacket) (sub : Subscription) (plan : DeliveryPlan) : Prop :=
  plan.clientId = sub.clientId ∧
    plan.message = prepareMessage publish sub (effectiveQos publish.qos sub.qos)

/-- The QoS that was granted for the subscription because of which a copy was made: when the
message was routed, or by the SUBACK before which the retained message was sent. -/
def Origin.Grants : Origin → QoS → Prop
  | .routed subscriptions granted publish plan, qos =>
    ∃ filter, ∃ sub ∈ subscriptions.get filter, MadeFor publish sub plan ∧
      granted (filter, sub.identity) = some qos
  | .retained _ _ filter answers, qos => (filter, .fromQos qos) ∈ answers

/-- A retained message that the broker would take as a publish now. -/
def Origin.Admitted : Origin → Prop
  | .routed .. => True
  | .retained maximumQos message _ _ => message.qos.toU8 ≤ maximumQos

def Origin.Bounds (origin : Origin) (qos : QoS) : Prop :=
  origin.Admitted → ∃ granted, origin.Grants granted ∧ qos.toNat ≤ granted.toNat

/-! ### A copy keeps its QoS -/

/-- The QoS of a message in any form. -/
def HasQos (qos : QoS) : Expiry.Form → Prop
  | .packet publish _ record | .inFlight publish _ record =>
    publish.qos = qos ∧ ∀ r, record = some r → r.qos = qos
  | .queued message | .taken message => message.qos = qos
  | .stored record => record.qos = qos
  | .gone => True

section

variable {qos : QoS} {t t' : Expiry.State} {step : Expiry.Action} {publish : PublishPacket}

theorem HasQos.written {form : Expiry.Form} (h : HasQos qos form)
    (hwrit : written form step = some publish) : publish.qos = qos := by
  unfold GrantedQos.written at hwrit
  split at hwrit
  · rw [← some.inj hwrit]
    exact h.1
  · rw [← some.inj hwrit]
    exact h
  · cases hwrit

theorem HasQos.send (h : publish.qos = qos) (packetId : UInt16) (storing : Bool)
    (now : SystemTime) : HasQos qos (t.send publish packetId storing now).form := by
  dsimp only [Expiry.State.send]
  split
  · trivial
  · refine ⟨h, fun r hr => ?_⟩
    split at hr
    · rw [← some.inj hr]
      exact h
    · cases hr

theorem HasQos.move (h : HasQos qos t.form) (hmove : t.move step = some t') :
    HasQos qos t'.form := by
  obtain ⟨_, form, _, _, _⟩ := t
  cases step with
  | keep now =>
    cases form with
    | packet publish since record =>
      cases record with
      | some record => cases hmove
      | none =>
        cases hmove
        refine ⟨h.1, fun r hr => ?_⟩
        rw [← some.inj hr]
        exact h.1
    | _ => cases hmove
  | enqueue now =>
    cases form with
    | packet publish since record =>
      cases hmove
      exact h.1
    | _ => cases hmove
  | deliver packetId storing now =>
    cases form with
    | packet publish since record =>
      cases hmove
      exact HasQos.send h.1 packetId storing now
    | _ => cases hmove
  | take now =>
    cases form with
    | queued message =>
      cases hmove
      dsimp only
      split
      · trivial
      · exact h
    | _ => cases hmove
  | putBack now =>
    cases form with
    | taken message =>
      cases hmove
      exact h
    | _ => cases hmove
  | drain packetId storing now =>
    cases form with
    | taken message =>
      cases hmove
      have hpacket : (message.toPublishPacket now).qos = qos := h
      exact HasQos.send hpacket packetId storing now
    | _ => cases hmove
  | requeue now =>
    cases form with
    | inFlight publish since record =>
      cases hmove
      exact h.1
    | _ => cases hmove
  | reopen now =>
    cases form with
    | queued message =>
      cases hmove
      show QueuedMessage.qos (QueuedMessage.recomputeExpiry _) = qos
      unfold QueuedMessage.recomputeExpiry
      split <;> exact h
    | _ => cases hmove
  | lose restarted now =>
    -- what is left is the record, if there is one
    have hrec (record : InflightMessage) (hqos : record.qos = qos) :
        (if restarted then { record with expiresAtCache := none } else record).qos = qos := by
      split <;> exact hqos
    cases form with
    | packet publish since record | inFlight publish since record =>
      cases record with
      | none =>
        cases hmove
        trivial
      | some record =>
        cases hmove
        exact hrec record (h.2 record rfl)
    | _ =>
      cases hmove
      trivial
  | reload _ now _ =>
    cases form with
    | stored record =>
      dsimp only [Expiry.State.move] at hmove
      split at hmove
      · cases hmove
        trivial
      split at hmove
      · cases hmove
        refine ⟨h, fun r hr => ?_⟩
        rw [← some.inj hr]
        exact h
      · split at hmove
        · cases hmove
          trivial
        · cases hmove
          exact h
    | _ => cases hmove
  | finish now =>
    cases hmove
    trivial

end

/-! ### A subscription has the QoS that was granted -/

def Agreed (s : Subscriptions) (granted : Granted) : Prop :=
  ∀ filter, ∀ sub ∈ s.get filter, granted (filter, sub.identity) = some sub.qos

section

variable {s s' : Subscriptions} {granted : Granted} {h : Handler} {subscriptionId : Option UInt32}
  {flowId : Option UInt64}

theorem grantedBy_fromQos (qos : QoS) : grantedBy (.fromQos qos) = some qos := by
  cases qos <;> rfl

theorem Agreed.place (hagreed : Agreed s granted) (key : String) (sub : Subscription) :
    Agreed (s.place key sub) (update granted (key, sub.identity) (some sub.qos)) := by
  intro filter sub' hsub'
  rcases mem_place.mp hsub' with ⟨rfl, rfl⟩ | ⟨hold, hoth⟩
  · exact update_self _ _ _
  · rw [update_of_ne (fun heq => hoth (Prod.mk.inj heq))]
    exact hagreed filter sub' hold

theorem grantedBy_eq_none {code : SubAckReasonCode} (h : Granting.grants code = false) :
    grantedBy code = none := by
  cases code <;> first | rfl | cases h

/-- The router has what the SUBACK grants, and every filter that is accepted has its answer
there. -/
theorem Agreed.routeSubscriptions {entries : List (TopicFilter × Option SubAckReasonCode)}
    {codes : List SubAckReasonCode} {accepted : List AcceptedFilter}
    (hroute : routeSubscriptions h true subscriptionId flowId entries s =
      (s', .answered (codes, accepted)))
    (href : ∀ filter code, (filter, some code) ∈ entries → grantedBy code = none)
    (hagreed : Agreed s granted) :
    Agreed s' (granted.answered h.clientId flowId ((entries.map Prod.fst).zip codes)) ∧
      ∀ a ∈ accepted, (a.filter,
        .fromQos (storedSubscription h subscriptionId flowId a.filter).qos) ∈
        (entries.map Prod.fst).zip codes := by
  induction entries generalizing s granted codes accepted with
  | nil =>
    cases hroute
    exact ⟨hagreed, fun a ha => by cases ha⟩
  | cons head rest ih =>
    obtain ⟨filter, reasonCode⟩ := head
    have hrest : ∀ filter code, (filter, some code) ∈ rest → grantedBy code = none :=
      fun filter code hmem => href filter code (mem_cons_of_mem _ hmem)
    -- a filter that is refused
    have hpass : ∀ code : SubAckReasonCode, grantedBy code = none →
        (match Subscribing.routeSubscriptions h true subscriptionId flowId rest s with
          | (s, .answered (codes, accepted)) => (s, Outcome.answered (code :: codes, accepted))
          | other => other) = (s', .answered (codes, accepted)) →
        Agreed s' (granted.answered h.clientId flowId
            ((((filter, reasonCode) :: rest).map Prod.fst).zip codes)) ∧
          ∀ a ∈ accepted, (a.filter,
            .fromQos (storedSubscription h subscriptionId flowId a.filter).qos) ∈
              (((filter, reasonCode) :: rest).map Prod.fst).zip codes := by
      intro code hcode hresult
      split at hresult
      · rename_i hnext
        cases hresult
        obtain ⟨hagreed', hanswers⟩ := ih hnext hrest hagreed
        refine ⟨?_, fun a ha => mem_cons_of_mem _ (hanswers a ha)⟩
        simpa only [Granted.answered, map_cons, zip_cons_cons, foldl_cons, hcode] using hagreed'
      · rename_i hoth
        exact (hoth _ _ _ hresult).elim
    unfold Subscribing.routeSubscriptions at hroute
    cases reasonCode with
    | some code => exact hpass code (href filter code mem_cons_self) hroute
    | none =>
      cases hquota : checkSubscriptionQuota h filter s with
      | some code =>
        rw [hquota] at hroute
        exact hpass code (grantedBy_eq_none (Granting.grants_of_quota hquota)) hroute
      | none =>
        obtain ⟨outcome, hfen, hsubd⟩ := subscribe_ok s
          (storedSubscriptionRequest h.clientId filter.filter
            (storedSubscription h subscriptionId flowId filter))
          (retainHandling_storedSubscription h filter subscriptionId flowId)
        have hnext := hagreed.place (keyOf filter.filter) (subscriptionOf h.clientId filter.filter
          (storedSubscription h subscriptionId flowId filter))
        rw [hquota] at hroute
        dsimp only at hroute
        unfold subscribeAs at hroute
        rw [if_pos rfl, hsubd] at hroute
        cases outcome with
        | fenced => exact absurd rfl hfen
        | new | updated =>
          dsimp only at hroute
          split at hroute
          · rename_i hafter
            cases hroute
            obtain ⟨hagreed', hanswers⟩ := ih hafter hrest hnext
            refine ⟨?_, fun a ha => ?_⟩
            · simp only [Granted.answered, map_cons, zip_cons_cons, foldl_cons, grantedBy_fromQos]
              exact hagreed'
            · rcases mem_cons.mp ha with rfl | ha
              · exact mem_cons_self
              · exact mem_cons_of_mem _ (hanswers a ha)
          · rename_i hoth
            exact (hoth _ _ _ hroute).elim

end

/-! ### The QoS a copy is made with -/

section

variable {router : Router} {publish : PublishPacket} {publishingClientId : Option String}
  {sub : Subscription} {state : RouterState} {plan : DeliveryPlan}
  {selectedGroups : Option (List String)}

theorem madeFor_planQueued (hplan : plan ∈ planQueued router sub publish
    (effectiveQos publish.qos sub.qos)) : MadeFor publish sub plan := by
  unfold planQueued at hplan
  split at hplan
  · cases hplan
  split at hplan
  · cases hplan
  cases hplan
  exact ⟨rfl, rfl⟩

theorem madeFor_planDelivery
    (hplan : plan ∈ (planDelivery router sub publish publishingClientId state).1) :
    MadeFor publish sub plan := by
  unfold planDelivery at hplan
  split at hplan
  · cases hplan
  split at hplan
  · cases hplan
  split at hplan
  · cases hplan
  dsimp only at hplan
  split at hplan
  · exact madeFor_planQueued hplan
  split at hplan
  · cases hplan
    exact ⟨rfl, rfl⟩
  · exact madeFor_planQueued hplan

/-- The plan of a group is for one of its members. -/
theorem madeFor_planShareGroup {group : (String × String) × List Subscription}
    (hplan : plan ∈ (planShareGroup router publish publishingClientId group state).1) :
    ∃ sub ∈ group.2, MadeFor publish sub plan := by
  unfold planShareGroup at hplan
  split at hplan
  · split at hplan
    · cases hplan
    rename_i sub hhead
    exact ⟨sub, mem_of_mem_head? hhead, madeFor_planQueued (mem_toList.mp hplan)⟩
  · rename_i first online honline
    split at hplan
    · cases hplan
    rename_i counter _
    refine ⟨_, ?_, madeFor_planDelivery (mem_toList.mp hplan)⟩
    have hturn : ∀ sub ∈ (first :: online).rotate (counter.toNat % (first :: online).length),
        sub ∈ group.2 := by
      intro sub hsub
      rw [mem_rotate, ← honline] at hsub
      exact (mem_filter.mp hsub).1
    cases hfind : find? router.keepsUp
        ((first :: online).rotate (counter.toNat % (first :: online).length)) with
    | some chosen => exact hturn chosen (mem_of_find?_eq_some hfind)
    | none =>
      have hne : (first :: online).rotate (counter.toNat % (first :: online).length) ≠ [] := by
        simp
      rw [getD_none, headD_eq_head?_getD, head?_eq_some_head hne]
      exact hturn _ (head_mem hne)

theorem mem_planEach {α : Type*} {each : α → RouterState → List DeliveryPlan × RouterState}
    {l : List α} (hplan : plan ∈ (planEach each l state).1) :
    ∃ a ∈ l, ∃ before, plan ∈ (each a before).1 := by
  rw [planEach_eq_turns] at hplan
  obtain ⟨turn, hturn, hmem⟩ := mem_flatMap.mp hplan
  obtain ⟨before, -, hplans⟩ := mem_turns (p := fun _ => True) trivial (fun _ _ _ => trivial) hturn
  rw [hplans] at hmem
  refine ⟨turn.1, ?_, before, hmem⟩
  rw [← map_fst_turns (l := l)]
  exact mem_map_of_mem hturn

theorem lookup_of_selectGroups {groups : ShareGroups}
    {key : String × String} {members : List Subscription}
    (hlook : (selectGroups groups selectedGroups).lookup key = some members) :
    groups.lookup key = some members := by
  cases selectedGroups with
  | none => exact hlook
  | some _ =>
    unfold selectGroups at hlook
    rw [Table.lookup_retain] at hlook
    split at hlook
    · exact hlook
    · cases hlook

/-- Every plan is made because of a subscription that the router has. -/
theorem madeFor_planRoute {order : List (String × List Subscription)}
    {groupOrder : ShareGroups → List ((String × String) × List Subscription)}
    (horder : Table.Lists router.subscriptions.wildcard.buckets.table order)
    (hgroups : ∀ groups, groups = selectGroups (collectMatchingSubscriptions router.subscriptions
      order publish.topicName).1 selectedGroups → Table.Lists groups (groupOrder groups))
    (hplan : plan ∈ (planRoute router order groupOrder publish publishingClientId selectedGroups
      state).1) : ∃ filter, ∃ sub ∈ router.subscriptions.get filter, MadeFor publish sub plan := by
  have hmatched : ∀ filter sub, (filter, sub) ∈ matched router.subscriptions order
      publish.topicName → sub ∈ router.subscriptions.get filter := by
    intro filter sub hmem
    rw [mem_get]
    rcases mem_append.mp hmem with hexact | hwild
    · obtain ⟨sub', hsub', heq⟩ := mem_map.mp hexact
      cases heq
      exact Or.inl hsub'
    · obtain ⟨entry, hent, hmem⟩ := mem_flatMap.mp hwild
      obtain ⟨sub', hsub', heq⟩ := mem_map.mp hmem
      cases heq
      have hlook := (horder.mem _ _).mp (mem_filter.mp hent).1
      refine Or.inr ?_
      show sub ∈ router.subscriptions.wildcard.buckets.get entry.1
      rw [Buckets.get_eq_of_lookup hlook]
      exact hsub'
  unfold planRoute at hplan
  rcases mem_append.mp hplan with hshr | hplain
  · obtain ⟨group, hgroup, before, hplan⟩ := mem_planEach hshr
    obtain ⟨sub, hsub, hmade⟩ := madeFor_planShareGroup hplan
    have hlook := lookup_of_selectGroups (((hgroups _ rfl).mem group.1 group.2).mp hgroup)
    have hmembers := collectMatchingSubscriptions_group router.subscriptions order
      publish.topicName group.1.1 group.1.2
    rw [hlook, getD_some] at hmembers
    rw [hmembers] at hsub
    obtain ⟨⟨filter, sub⟩, hent, rfl⟩ := mem_map.mp hsub
    exact ⟨filter, sub, hmatched filter sub (mem_filter.mp hent).1, hmade⟩
  · obtain ⟨sub, hsub, before, hplan⟩ := mem_planEach hplain
    rw [collectMatchingSubscriptions_regular] at hsub
    obtain ⟨⟨filter, sub⟩, hent, rfl⟩ := mem_map.mp hsub
    exact ⟨filter, sub, hmatched filter sub (mem_filter.mp hent).1,
      madeFor_planDelivery (mem_toList.mp hplan)⟩

end

theorem retainedCopy_le {h : Handler} {filter : TopicFilter} {message : PublishPacket}
    (hmsg : message.qos.toU8 ≤ h.settings.maximumQos) (subscriptionId : Option UInt32)
    (flowId : Option UInt64) : (effectiveQos message.qos filter.options.qos).toNat ≤
      (storedSubscription h subscriptionId flowId filter).qos.toNat := by
  show _ ≤ (QoS.fromU8 (if filter.options.qos.toU8 > h.settings.maximumQos then
    h.settings.maximumQos else filter.options.qos.toU8)).toNat
  split
  · rename_i hmore
    -- the maximum is between the message's QoS and what was asked for
    generalize h.settings.maximumQos = maximum at hmsg hmore
    have hmaximum : maximum = 0 ∨ maximum = 1 := by
      have hlt : maximum.toNat < filter.options.qos.toU8.toNat := hmore
      have htwo : filter.options.qos.toU8.toNat ≤ 2 := by cases filter.options.qos <;> decide
      have hcases : maximum.toNat = 0 ∨ maximum.toNat = 1 := by omega
      exact hcases.imp UInt8.toNat.inj UInt8.toNat.inj
    rw [toNat_effectiveQos]
    refine (Nat.min_le_left _ _).trans ?_
    rcases hmaximum with rfl | rfl <;> cases hqos : message.qos <;> rw [hqos] at hmsg <;>
      first | decide | exact absurd hmsg (by decide)
  · rw [toNat_effectiveQos]
    cases filter.options.qos <;> exact Nat.min_le_right _ _

/-! ## Along a run -/

structure Inv (s : State) : Prop where
  agreed : Agreed s.subscriptions s.granted
  copies : ∀ copy ∈ s.copies, ∃ qos, HasQos qos copy.state.form ∧ copy.origin.Bounds qos
  sent : ∀ sent ∈ s.sent, sent.origin.Bounds sent.qos

section

variable {s s' : State}

theorem Inv.initial : Inv {} :=
  ⟨fun _ _ hsub => (not_mem_nil hsub).elim, fun _ hcopy => (not_mem_nil hcopy).elim,
    fun _ hsent => (not_mem_nil hsent).elim⟩

theorem Inv.add (hs : Inv s) {added : List Copy}
    (hadded : ∀ copy ∈ added, ∃ qos, HasQos qos copy.state.form ∧ copy.origin.Bounds qos) :
    ∀ copy ∈ s.copies ++ added, ∃ qos, HasQos qos copy.state.form ∧ copy.origin.Bounds qos :=
  fun copy hcopy => (mem_append.mp hcopy).elim (hs.copies copy) (hadded copy)

theorem Inv.subscribe (hs : Inv s) {h : Handler} {flowId : Option UInt64}
    {authorizeSubscribe : String → Bool} {retained : String → List PublishPacket}
    {now : SystemTime} {packet : SubscribePacket}
    (hact : s.subscribe h flowId authorizeSubscribe retained now packet = some s') : Inv s' := by
  unfold State.subscribe at hact
  split at hact
  · cases hact
  rename_i hmapM
  dsimp only at hact
  split at hact
  · rename_i hroute
    cases hact
    obtain ⟨hagreed, hanswers⟩ := Agreed.routeSubscriptions hroute
      (fun _ _ hmem => grantedBy_eq_none
        (Granting.grants_of_validate ((mem_zip_of_mapM hmapM _ _).mp hmem).2))
      hs.agreed
    refine ⟨hagreed, hs.add fun _ hcopy => ?_, hs.sent⟩
    obtain ⟨a, ha, hcopy⟩ := mem_flatMap.mp hcopy
    unfold deliverRetainedForFilter at hcopy
    split at hcopy
    · obtain ⟨_, -, rfl⟩ := mem_map.mp hcopy
      refine ⟨_, ⟨rfl, fun r hr => ?_⟩, fun hadm => ⟨_, hanswers a ha, ?_⟩⟩
      · cases hr
      · exact retainedCopy_le hadm _ flowId
    · cases hcopy
  · cases hact

theorem Inv.move (hs : Inv s) {index : Nat} {step : Expiry.Action}
    (hact : act s (.move index step) = some s') : Inv s' := by
  obtain ⟨copy, hcopy, hact⟩ := bind_eq_some_iff.mp hact
  obtain ⟨_, hstate, rfl⟩ := map_eq_some_iff.mp hact
  obtain ⟨qos, hqos, hbounds⟩ := hs.copies copy (mem_of_getElem? hcopy)
  obtain ⟨t, hmove, rfl⟩ := Expiry.act_eq_some hstate
  have hmoved : HasQos qos t.form := hqos.move hmove
  refine ⟨hs.agreed, fun other hoth => ?_, fun sent hsent => ?_⟩
  · rcases mem_or_eq_of_mem_set hoth with hoth | rfl
    · exact hs.copies other hoth
    · exact ⟨qos, hmoved, hbounds⟩
  · rcases mem_append.mp hsent with hsent | hsent
    · exact hs.sent sent hsent
    · obtain ⟨publish, hwrit, rfl⟩ := map_eq_some_iff.mp (mem_toList.mp hsent)
      show copy.origin.Bounds publish.qos
      rw [hqos.written hwrit]
      exact hbounds

theorem Inv.step (hs : Inv s) {a : Action} (hlist : Listed s a) (hact : act s a = some s') :
    Inv s' := by
  cases a with
  | subscribe h _ _ _ now _ => exact hs.subscribe hact
  | publish _ _ _ publish _ _ _ now =>
    cases hact
    refine ⟨hs.agreed, hs.add fun _ hcopy => ?_, hs.sent⟩
    obtain ⟨plan, hplan, rfl⟩ := mem_map.mp hcopy
    obtain ⟨filter, sub, hsub, hmade⟩ := madeFor_planRoute hlist.1
      (fun _ hgroups => hgroups ▸ hlist.2) hplan
    refine ⟨plan.message.qos, ⟨rfl, fun r hr => ?_⟩, fun _ =>
      ⟨sub.qos, ⟨filter, sub, hsub, hmade, hs.agreed filter sub hsub⟩, ?_⟩⟩
    · cases hr
    · rw [hmade.2]
      show (effectiveQos publish.qos sub.qos).toNat ≤ sub.qos.toNat
      rw [toNat_effectiveQos]
      exact Nat.min_le_right _ _
  | unsubscribe _ =>
    cases hact
    exact ⟨fun filter sub hsub => hs.agreed filter sub (mem_retain.mp hsub).1, hs.copies, hs.sent⟩
  | move _ step => exact hs.move hact

end

/-- Every PUBLISH that is sent because of a subscription, at once, from the queue or again, has
at most the QoS that was granted for the subscription by the time the message was routed;
so has a retained message at most what its SUBACK grants, if its QoS is one the broker takes. -/
theorem sent_within_granted {s : State} (hrun : Reachable act Listed {} s) {sent : Sent}
    (hsent : sent ∈ s.sent) (hadmitted : sent.origin.Admitted) :
    ∃ granted, sent.origin.Grants granted ∧ sent.qos.toNat ≤ granted.toNat :=
  (hrun.invariant Inv.initial fun _ _ _ hs hlisted hact => hs.step hlisted hact).sent sent hsent
    hadmitted

/-! ### A subscription that is made again with a lower QoS -/

def meters : Router where
  clients := Finmap.insert "c" ⟨false, 0⟩ ∅
  computeHash _ := 0
  evicted _ := none

def reading : PublishPacket where
  topicName := "a"
  payload := []
  qos := .atLeastOnce

def subscribing (qos : QoS) : Action :=
  .subscribe Subscribing.owner none (fun _ => true) (fun _ => []) 0
    { packetId := 1, filters := [{ filter := "a", options := { qos } }] }

def publishing : Action := .publish meters [] (fun _ => []) reading none none {} 0

theorem run_of_reading (actions : List Action) {s : State}
    (hrun : follow act {} (subscribing .atLeastOnce :: publishing :: actions) = some s)
    (hmet : ∀ a ∈ actions, ∀ t, Listed t a) : Reachable act Listed {} s := by
  obtain ⟨first, hfirst, hrest⟩ := bind_eq_some_iff.mp hrun
  obtain ⟨_, hsecond, hrest⟩ := bind_eq_some_iff.mp hrest
  have hlist : Listed first publishing := by
    -- no filter has a wildcard, and there is no share group
    cases hfirst
    exact ⟨Table.lists_empty, Table.lists_empty⟩
  exact ((Reachable.start.step trivial hfirst).step hlist hsecond).follow hmet hrest

theorem sent_within_granted_reading : ∃ s, Reachable act Listed {} s ∧ ∃ sent ∈ s.sent, ∃ granted,
    sent.origin.Grants granted ∧ sent.qos.toNat ≤ granted.toNat := by
  have hrun := run_of_reading [.move 0 (.deliver 1 false 0)] rfl (by simp [Listed])
  exact ⟨_, hrun, _, mem_singleton_self _, sent_within_granted hrun (mem_singleton_self _) trivial⟩

/-- A reading is routed at QoS 1, the client subscribes again and is granted QoS 0, and then
the reading is sent to it at QoS 1. -/
theorem reading_sent_above_grant : ∃ s s' subscriptions granted plan, Reachable act Listed {} s ∧
    act s (.move 0 (.deliver 1 false 0)) = some s' ∧
    s'.sent = [⟨.routed subscriptions granted reading plan, .atLeastOnce⟩] ∧
    (∀ filter, ∀ sub ∈ subscriptions.get filter,
      (filter, sub.identity) = ("a", "c", none, none)) ∧
    s.granted ("a", "c", none, none) = some .atMostOnce := by
  have hrun := run_of_reading [subscribing .atMostOnce] rfl (by simp [Listed, subscribing])
  refine ⟨_, _, _, _, _, hrun, rfl, rfl, fun filter sub hsub => ?_, rfl⟩
  rcases mem_place.mp hsub with ⟨rfl, rfl⟩ | ⟨hnone, -⟩
  · rfl
  · cases hnone

end MqttLib.Broker.GrantedQos
