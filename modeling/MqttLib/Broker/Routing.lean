/-
MqttLib.Broker.Routing

Planning the deliveries of a publish (`route_message_internal` of `router.rs`): the
subscriptions whose filter matches are collected, a member is chosen for every share group,
and each of them gets a copy made for it, for its connection or for its queue.
-/

import MqttLib.Broker.Subscriptions
import MqttLib.Protocol.Packet

namespace MqttLib.Broker.Routing

open Foundation Protocol Storage Subscriptions List

/-! ## The router -/

/-- What planning reads of a `ClientInfo`: `behind` and `epoch` of its queue. -/
structure ClientInfo where
  behind : Bool
  epoch : UInt64

/-- One second in nanoseconds. -/
def rateWindow : Nat := 1000000000

structure OutboundRateState where
  count : UInt32
  windowStart : Nat

/-- `check_and_increment`, called alone: whether the message is admitted. -/
def OutboundRateState.checkAndIncrement (rate : OutboundRateState) (maxRate : UInt32) (now : Nat) :
    Bool × OutboundRateState :=
  if maxRate = 0 then (true, rate)
  else if now - rate.windowStart ≥ rateWindow then (true, ⟨1, now⟩)
  else if rate.count ≥ maxRate then (false, rate)
  else (true, { rate with count := rate.count + 1 })

/-- What planning reads. -/
structure Router where
  subscriptions : Subscriptions := {}
  clients : Table String ClientInfo := ∅
  /-- The epochs of the queues of the storage, if one is configured. -/
  storage : Option (String → UInt64) := none
  echoSuppressionKey : Option String := none
  maxOutboundRate : UInt32 := 0
  /-- `ChangeOnlyState::compute_hash`. -/
  computeHash : Bytes → UInt64
  /-- The topic a full change-only state gives up: the first key of its iteration. -/
  evicted : ChangeOnlyState → Option String
  now : Nat := 0

/-- What planning changes. -/
structure RouterState where
  shareGroupCounters : Table (String × String) UInt64 := ∅
  changeOnlyStates : Table String ChangeOnlyState := ∅
  outboundRates : Table String OutboundRateState := ∅

inductive DeliveryPlan where
  | online (clientId : String) (message : PublishPacket) (targetFlow : Option UInt64)
      (epoch : UInt64)
  | behind (clientId : String) (message : PublishPacket) (targetFlow : Option UInt64)
      (epoch : UInt64)

namespace DeliveryPlan

def clientId : DeliveryPlan → String
  | .online clientId _ _ _ | .behind clientId _ _ _ => clientId

def message : DeliveryPlan → PublishPacket
  | .online _ message _ _ | .behind _ message _ _ => message

def targetFlow : DeliveryPlan → Option UInt64
  | .online _ _ targetFlow _ | .behind _ _ targetFlow _ => targetFlow

def isOnline : DeliveryPlan → Bool
  | .online .. => true
  | .behind .. => false

end DeliveryPlan

/-! ## One delivery -/

def effectiveQos : QoS → QoS → QoS
  | .atMostOnce, _ | _, .atMostOnce => .atMostOnce
  | .atLeastOnce, .atLeastOnce | .exactlyOnce, .atLeastOnce | .atLeastOnce, .exactlyOnce =>
    .atLeastOnce
  | .exactlyOnce, .exactlyOnce => .exactlyOnce

theorem toNat_effectiveQos (publishQos subQos : QoS) :
    (effectiveQos publishQos subQos).toNat = min publishQos.toNat subQos.toNat := by
  cases publishQos <;> cases subQos <;> rfl

/-- `prepare_message`: the copy of a subscription. -/
def prepareMessage (publish : PublishPacket) (sub : Subscription) (qos : QoS) : PublishPacket :=
  { publish with
    packetId := none
    qos := qos
    dup := false
    protocolVersion := sub.protocolVersion.asU8
    retain := publish.retain && sub.retainAsPublished
    properties := match sub.subscriptionId with
      | some id => publish.properties.setSubscriptionIdentifier id
      | none => publish.properties }

/-- `plan_queued`: nothing waits for QoS 0 or without a storage. -/
def planQueued (router : Router) (sub : Subscription) (publish : PublishPacket) (qos : QoS) :
    Option DeliveryPlan :=
  if qos = .atMostOnce then none
  else match router.storage with
    | none => none
    | some epoch => some (.behind sub.clientId (prepareMessage publish sub qos) sub.flowId
        (epoch sub.clientId))

/-- The publish came from this client, by the user property that names its origin. -/
def Router.isEcho (router : Router) (sub : Subscription) (publish : PublishPacket) : Bool :=
  match router.echoSuppressionKey with
  | none => false
  | some key => publish.properties.getUserPropertyValue key == some sub.clientId

/-- `CHANGE_ONLY_MAX_TOPICS`. -/
def changeOnlyMaxTopics : Nat := 10000

/-- `should_deliver`. -/
def shouldDeliver (router : Router) (state : ChangeOnlyState) (publish : PublishPacket) : Bool :=
  state.lastPayloadHashes.lookup publish.topicName != some (router.computeHash publish.payload)

/-- `update_hash`: a topic that is not known yet may take the place of another. -/
def updateHash (router : Router) (state : ChangeOnlyState) (publish : PublishPacket) :
    ChangeOnlyState :=
  let hashes := state.lastPayloadHashes
  let full := hashes.entries.card ≥ changeOnlyMaxTopics &&
    (hashes.lookup publish.topicName).isNone
  let kept := match full, router.evicted state with
    | true, some key => hashes.erase key
    | _, _ => hashes
  ⟨kept.insert publish.topicName (router.computeHash publish.payload)⟩

namespace RouterState

/-- A change-only subscription whose client has had this payload. -/
def unchanged (state : RouterState) (router : Router) (sub : Subscription)
    (publish : PublishPacket) : Bool :=
  sub.changeOnly && match state.changeOnlyStates.lookup sub.clientId with
    | none => false
    | some seen => !shouldDeliver router seen publish

/-- The delivery of a change-only subscription is recorded. -/
def record (state : RouterState) (router : Router) (sub : Subscription) (publish : PublishPacket) :
    RouterState :=
  if sub.changeOnly then
    let seen := (state.changeOnlyStates.lookup sub.clientId).getD {}
    { state with
      changeOnlyStates := state.changeOnlyStates.insert sub.clientId
        (updateHash router seen publish) }
  else state

/-- The outbound rate of a client; one that has no entry is not limited. -/
def admits (state : RouterState) (router : Router) (clientId : String) : Bool × RouterState :=
  if router.maxOutboundRate > 0 then
    match state.outboundRates.lookup clientId with
    | none => (true, state)
    | some rate =>
      let (admitted, rate) := rate.checkAndIncrement router.maxOutboundRate router.now
      (admitted, { state with outboundRates := state.outboundRates.insert clientId rate })
  else (true, state)

end RouterState

/-- `plan_delivery`. -/
def planDelivery (router : Router) (sub : Subscription) (publish : PublishPacket)
    (publishingClientId : Option String) (state : RouterState) :
    Option DeliveryPlan × RouterState :=
  if sub.noLocal && publishingClientId == some sub.clientId then (none, state)
  else if router.isEcho sub publish then (none, state)
  else if state.unchanged router sub publish then (none, state)
  else
    let qos := effectiveQos publish.qos sub.qos
    let (admitted, state) := state.admits router sub.clientId
    if !admitted then (planQueued router sub publish qos, state)
    else match router.clients.lookup sub.clientId with
      | some info =>
        (some (.online sub.clientId (prepareMessage publish sub qos) sub.flowId info.epoch),
          state.record router sub publish)
      | none => (planQueued router sub publish qos, state)

/-! ## All deliveries of a publish -/

/-- Plans for one thing after the other. -/
def planEach {α : Type*} (plan : α → RouterState → List DeliveryPlan × RouterState) :
    List α → RouterState → List DeliveryPlan × RouterState
  | [], state => ([], state)
  | a :: rest, state =>
    let (plans, state) := plan a state
    let (later, state) := planEach plan rest state
    (plans ++ later, state)

/-- The members of every group, by the name of the group and the filter. -/
abbrev ShareGroups := Table (String × String) (List Subscription)

/-- The subscriptions of one filter are added to what has been collected. -/
def collectFilter (filter : String) (collected : ShareGroups × List Subscription)
    (subs : List Subscription) : ShareGroups × List Subscription :=
  subs.foldl (fun (groups, regular) sub =>
    match sub.shareGroup with
    | some group =>
      (groups.insert (group, filter) ((groups.lookup (group, filter)).getD [] ++ [sub]), regular)
    | none => (groups, regular ++ [sub])) collected

/-- `collect_matching_subscriptions`: the filter that is the topic is looked up, those with
wildcards are gone through in the order of the map. -/
def collectMatchingSubscriptions (subscriptions : Subscriptions)
    (order : List (String × List Subscription)) (topicName : String) :
    ShareGroups × List Subscription :=
  order.foldl (fun collected (filter, subs) =>
      if topicMatchesFilter topicName filter then collectFilter filter collected subs
      else collected)
    (collectFilter topicName (∅, []) (subscriptions.exact.get topicName))

/-- The client of a subscription keeps up with its messages. -/
def Router.keepsUp (router : Router) (sub : Subscription) : Bool :=
  match router.clients.lookup sub.clientId with
  | some info => !info.behind
  | none => false

/-- One group of `plan_share_groups`: the members that are connected take turns. -/
def planShareGroup (router : Router) (publish : PublishPacket) (publishingClientId : Option String)
    (group : (String × String) × List Subscription) (state : RouterState) :
    List DeliveryPlan × RouterState :=
  match group.2.filter fun sub => (router.clients.lookup sub.clientId).isSome with
  | [] =>
    match group.2.head? with
    | none => ([], state)
    | some sub => ((planQueued router sub publish (effectiveQos publish.qos sub.qos)).toList, state)
  | first :: online =>
    match state.shareGroupCounters.lookup group.1 with
    | none => ([], state)
    | some counter =>
      let state := { state with
        shareGroupCounters := state.shareGroupCounters.insert group.1 (counter + 1) }
      let turn := (first :: online).rotate (counter.toNat % (first :: online).length)
      let chosen := (turn.find? router.keepsUp).getD (turn.headD first)
      let (plan, state) := planDelivery router chosen publish publishingClientId state
      (plan.toList, state)

def planShareGroups (router : Router) (publish : PublishPacket) (publishingClientId : Option String)
    (groups : List ((String × String) × List Subscription)) (state : RouterState) :
    List DeliveryPlan × RouterState :=
  planEach (planShareGroup router publish publishingClientId) groups state

/-- The plain subscriptions that have been collected. -/
def planRegular (router : Router) (publish : PublishPacket) (publishingClientId : Option String)
    (subs : List Subscription) (state : RouterState) : List DeliveryPlan × RouterState :=
  planEach (fun sub state =>
    let (plan, state) := planDelivery router sub publish publishingClientId state
    (plan.toList, state)) subs state

/-- The groups a call serves, all unless it names some. -/
def selectGroups (groups : ShareGroups) : Option (List String) → ShareGroups
  | none => groups
  | some selected => groups.retain fun key => selected.contains key.1

/-- The plans of `route_message_internal`, for an order of the filters with wildcards and an
order of the share groups. -/
def planRoute (router : Router) (order : List (String × List Subscription))
    (groupOrder : ShareGroups → List ((String × String) × List Subscription))
    (publish : PublishPacket) (publishingClientId : Option String)
    (selectedGroups : Option (List String)) (state : RouterState) :
    List DeliveryPlan × RouterState :=
  let (groups, regular) :=
    collectMatchingSubscriptions router.subscriptions order publish.topicName
  let (shared, state) := planShareGroups router publish publishingClientId
    (groupOrder (selectGroups groups selectedGroups)) state
  let (plain, state) := planRegular router publish publishingClientId regular state
  (shared ++ plain, state)

/-! ## What is collected -/

section

variable {subscriptions : Subscriptions} {order : List (String × List Subscription)}
  {topicName filter : String} {sub : Subscription}
  {part : ShareGroups × List Subscription → List Subscription} {test : String × Subscription → Bool}

/-- The subscriptions that match, with their filters, in the order they are met. -/
def matched (subscriptions : Subscriptions) (order : List (String × List Subscription))
    (topicName : String) : List (String × Subscription) :=
  (subscriptions.exact.get topicName).map (fun sub => (topicName, sub)) ++
    (order.filter fun entry => topicMatchesFilter topicName entry.1).flatMap fun entry =>
      entry.2.map fun sub => (entry.1, sub)

/-- What collecting does to one part of the result: the subscriptions that pass a test are
added to it, one by one. -/
theorem collectFilter_of_step
    (hstep : ∀ collected filter sub, part (collectFilter filter collected [sub]) =
      part collected ++ if test (filter, sub) then [sub] else [])
    (collected : ShareGroups × List Subscription) (filter : String) (subs : List Subscription) :
    part (collectFilter filter collected subs) =
      part collected ++ ((subs.map fun sub => (filter, sub)).filter test).map Prod.snd := by
  induction subs generalizing collected with
  | nil => exact (append_nil _).symm
  | cons sub subs ih =>
    have hrest := ih (collectFilter filter collected [sub])
    rw [hstep, append_assoc] at hrest
    rw [map_cons, filter_cons]
    by_cases htest : test (filter, sub) = true
    · rw [if_pos htest] at hrest ⊢
      exact hrest
    · rw [if_neg htest] at hrest ⊢
      exact hrest

theorem collectMatchingSubscriptions_of_step
    (part : ShareGroups × List Subscription → List Subscription) (hemp : part (∅, []) = [])
    (hstep : ∀ collected filter sub, part (collectFilter filter collected [sub]) =
      part collected ++ if test (filter, sub) then [sub] else []) :
    part (collectMatchingSubscriptions subscriptions order topicName) =
      ((matched subscriptions order topicName).filter test).map Prod.snd := by
  have hstart := collectFilter_of_step hstep (∅, []) topicName (subscriptions.exact.get topicName)
  rw [hemp, nil_append] at hstart
  unfold collectMatchingSubscriptions matched
  rw [filter_append, map_append, ← hstart]
  generalize collectFilter topicName (∅, []) (subscriptions.exact.get topicName) = collected
  induction order generalizing collected with
  | nil => exact (append_nil _).symm
  | cons entry order ih =>
    obtain ⟨filter, subs⟩ := entry
    rw [foldl_cons, ih]
    dsimp only
    by_cases hmatch : topicMatchesFilter topicName filter = true
    · rw [if_pos hmatch, collectFilter_of_step hstep, filter_cons (x := (filter, subs)),
        if_pos hmatch, flatMap_cons, filter_append, map_append, append_assoc]
    · rw [if_neg hmatch, filter_cons (x := (filter, subs)), if_neg hmatch]

/-- The plain subscriptions are collected in the order they are met. -/
theorem collectMatchingSubscriptions_regular (subscriptions : Subscriptions)
    (order : List (String × List Subscription)) (topicName : String) :
    (collectMatchingSubscriptions subscriptions order topicName).2 =
      ((matched subscriptions order topicName).filter
        fun entry => entry.2.shareGroup.isNone).map Prod.snd := by
  refine collectMatchingSubscriptions_of_step Prod.snd rfl fun _ filter sub => ?_
  unfold collectFilter
  rw [foldl_cons, foldl_nil]
  cases hgroup : sub.shareGroup <;> simp

/-- The members of a group with a filter, in the order they are met. -/
theorem collectMatchingSubscriptions_group (subscriptions : Subscriptions)
    (order : List (String × List Subscription)) (topicName group filter : String) :
    ((collectMatchingSubscriptions subscriptions order topicName).1.lookup
        (group, filter)).getD [] =
      ((matched subscriptions order topicName).filter
        fun entry => entry.1 = filter && entry.2.shareGroup = some group).map Prod.snd := by
  refine collectMatchingSubscriptions_of_step
    (fun collected => (collected.1.lookup (group, filter)).getD []) rfl
    fun collected filter' sub => ?_
  unfold collectFilter
  rw [foldl_cons, foldl_nil]
  cases hgroup : sub.shareGroup with
  | none => simp
  | some group' =>
    by_cases hkey : (group, filter) = (group', filter')
    · cases hkey
      simp
    · have hoth : ¬ (filter' = filter ∧ group' = group) := by
        rintro ⟨rfl, rfl⟩
        exact hkey rfl
      simp [Finmap.lookup_insert_of_ne _ hkey, hoth]

/-- Members of a group are shared subscriptions of it. -/
theorem shareGroup_of_mem {group : String × String} {members : List Subscription}
    (hgroup : (collectMatchingSubscriptions subscriptions order topicName).1.lookup group =
      some members) (hsub : sub ∈ members) : sub.shareGroup = some group.1 := by
  have hmembers := collectMatchingSubscriptions_group subscriptions order topicName group.1 group.2
  rw [hgroup, Option.getD_some] at hmembers
  rw [hmembers, mem_map] at hsub
  obtain ⟨_, hent, rfl⟩ := hsub
  simp only [mem_filter, Bool.and_eq_true, decide_eq_true_eq] at hent
  exact hent.2.2

/-- Exactly the subscriptions whose filter matches are met. -/
theorem mem_matched (horder : Table.Lists subscriptions.wildcard.buckets.table order)
    (htopic : isValidTopicName topicName) :
    (filter, sub) ∈ matched subscriptions order topicName ↔
      sub ∈ subscriptions.get filter ∧ topicMatchesFilter topicName filter := by
  have hplain : hasWildcards topicName = false := hasWildcards_of_isValidTopicName htopic
  unfold matched
  rw [mem_append, mem_map, mem_flatMap, mem_get]
  constructor
  · rintro (⟨sub', hsub', heq⟩ | ⟨⟨filter', subs⟩, hent, hmem⟩)
    · cases heq
      exact ⟨.inl hsub', (topicMatchesFilter_iff_eq hplain).mpr rfl⟩
    · obtain ⟨hlist, hmatch⟩ := mem_filter.mp hent
      obtain ⟨sub', hsub', heq⟩ := mem_map.mp hmem
      obtain ⟨rfl, rfl⟩ : filter' = filter ∧ sub' = sub := Prod.mk.inj heq
      refine ⟨.inr ?_, hmatch⟩
      have hlook := (horder.mem filter' subs).mp hlist
      show sub' ∈ subscriptions.wildcard.buckets.get filter'
      rw [Buckets.get_eq_of_lookup hlook]
      exact hsub'
  · rintro ⟨hexact | hwild, hmatch⟩
    · -- a filter of the exact map matches the topic of its name
      have hfilt := subscriptions.exact.keys filter (ne_nil_of_mem hexact)
      obtain rfl := (topicMatchesFilter_iff_eq hfilt).mp hmatch
      exact .inl ⟨sub, hexact, rfl⟩
    · refine .inr ⟨(filter, subscriptions.wildcard.get filter), ?_, mem_map_of_mem hwild⟩
      refine mem_filter.mpr ⟨(horder.mem _ _).mpr ?_, hmatch⟩
      exact Buckets.lookup_of_mem hwild

theorem nodup_map_subs {wild : Bool} (m : SubscriptionMap wild) (filter : String) :
    ((m.get filter).map fun sub => (filter, sub)).Nodup :=
  (m.buckets.nodup_get filter).of_map _ |>.map fun _ _ h => (Prod.ext_iff.mp h).2

/-- No subscription is met twice. -/
theorem nodup_matched (horder : Table.Lists subscriptions.wildcard.buckets.table order)
    (htopic : isValidTopicName topicName) :
    (matched subscriptions order topicName).Nodup := by
  have hlists : ∀ entry ∈ order, entry.2 = subscriptions.wildcard.get entry.1 := fun entry hent =>
    (Buckets.get_eq_of_lookup ((horder.mem entry.1 entry.2).mp hent)).symm
  unfold matched
  rw [nodup_append]
  refine ⟨nodup_map_subs _ _, ?_, ?_⟩
  · rw [nodup_flatMap]
    refine ⟨fun entry hent => ?_, ?_⟩
    · rw [hlists entry (mem_filter.mp hent).1]
      exact nodup_map_subs _ _
    · -- different entries have different filters
      have hkeys : order.Pairwise fun a b => a.1 ≠ b.1 := pairwise_map.mp horder.nodup
      refine (hkeys.sublist filter_sublist).imp fun hne => ?_
      intro entry hent hent'
      obtain ⟨sub, -, rfl⟩ := mem_map.mp hent
      obtain ⟨sub', -, heq⟩ := mem_map.mp hent'
      exact hne (congrArg Prod.fst heq).symm
  · -- a valid topic name is no filter of the map with wildcards
    rintro entry hexact entry' hwild rfl
    obtain ⟨sub, -, rfl⟩ := mem_map.mp hexact
    obtain ⟨listed, hlist, hmem⟩ := mem_flatMap.mp hwild
    obtain ⟨sub', hsub', heq⟩ := mem_map.mp hmem
    have hlist' := (mem_filter.mp hlist).1
    rw [hlists listed hlist'] at hsub'
    have hwildcards := subscriptions.wildcard.keys listed.1 (ne_nil_of_mem hsub')
    rw [congrArg Prod.fst heq] at hwildcards
    rw [hasWildcards_of_isValidTopicName htopic] at hwildcards
    cases hwildcards

end

/-! ## What is planned -/

/-- Plans that change nothing of the router are made side by side. -/
theorem planEach_of_pure {α : Type*} {plan : α → RouterState → List DeliveryPlan × RouterState}
    (plans : α → List DeliveryPlan) {l : List α}
    (hpure : ∀ a ∈ l, ∀ state, plan a state = (plans a, state)) (state : RouterState) :
    planEach plan l state = (l.flatMap plans, state) := by
  induction l with
  | nil => rfl
  | cons a l ih =>
    obtain ⟨ha, hl⟩ := forall_mem_cons.mp hpure
    unfold planEach
    rw [ha]
    dsimp only
    rw [ih hl]
    rfl

section

variable {router : Router} {publish : PublishPacket} {publishingClientId : Option String}
  {sub : Subscription} {plan : DeliveryPlan}

/-- The plan for a subscription when nothing is suppressed or limited: for the connection of
the client, or for its queue. -/
def plainPlan (router : Router) (publish : PublishPacket) (publishingClientId : Option String)
    (sub : Subscription) : Option DeliveryPlan :=
  let qos := effectiveQos publish.qos sub.qos
  if sub.noLocal && publishingClientId == some sub.clientId then none
  else match router.clients.lookup sub.clientId with
    | some info =>
      some (.online sub.clientId (prepareMessage publish sub qos) sub.flowId info.epoch)
    | none => planQueued router sub publish qos

theorem planDelivery_plain (hecho : router.echoSuppressionKey = none)
    (hrate : router.maxOutboundRate = 0) (hchange : sub.changeOnly = false) (state : RouterState) :
    planDelivery router sub publish publishingClientId state =
      (plainPlan router publish publishingClientId sub, state) := by
  have hisEcho : router.isEcho sub publish = false := by
    unfold Router.isEcho
    rw [hecho]
  have hunch : state.unchanged router sub publish = false := by
    unfold RouterState.unchanged
    rw [hchange, Bool.false_and]
  have hlet : state.admits router sub.clientId = (true, state) := by
    unfold RouterState.admits
    rw [hrate, if_neg (by decide)]
  have hrec : state.record router sub publish = state := by
    unfold RouterState.record
    rw [hchange, if_neg (by decide)]
  unfold planDelivery plainPlan
  rw [hisEcho, hunch, hlet]
  dsimp only
  rw [hrec]
  cases hlocal : sub.noLocal && publishingClientId == some sub.clientId with
  | true => rfl
  | false => cases hcl : router.clients.lookup sub.clientId <;> rfl

/-- A client that is not connected gets its copy later, unless it is of QoS 0 or there is no
storage to keep it in. -/
def Router.canReach (router : Router) (publish : PublishPacket) (sub : Subscription) : Prop :=
  (router.clients.lookup sub.clientId).isSome = true ∨
    (router.storage.isSome = true ∧ 0 < min publish.qos.toNat sub.qos.toNat)

/-- A plain subscription that is to get a copy of the publish. -/
structure Addressed (router : Router) (publish : PublishPacket)
    (publishingClientId : Option String) (filter : String) (sub : Subscription) : Prop where
  subscribed : sub ∈ router.subscriptions.get filter
  plain : sub.shareGroup = none
  matching : FilterMatches publish.topicName filter
  other : ¬ (sub.noLocal = true ∧ publishingClientId = some sub.clientId)
  reach : router.canReach publish sub

/-- A plan is the copy of a subscription. -/
structure CopyFor (router : Router) (publish : PublishPacket) (sub : Subscription)
    (plan : DeliveryPlan) : Prop where
  client : plan.clientId = sub.clientId
  flow : plan.targetFlow = sub.flowId
  online : plan.isOnline = (router.clients.lookup sub.clientId).isSome
  topic : plan.message.topicName = publish.topicName
  payload : plan.message.payload = publish.payload
  qos : plan.message.qos.toNat = min publish.qos.toNat sub.qos.toNat
  retain : plan.message.retain = true ↔ publish.retain = true ∧ sub.retainAsPublished = true
  packetId : plan.message.packetId = none
  dup : plan.message.dup = false
  version : plan.message.protocolVersion = sub.protocolVersion.asU8
  identifiers : plan.message.properties.subscriptionIdentifiers =
    publish.properties.subscriptionIdentifiers ++ sub.subscriptionId.toList
  properties : ∀ id, id ≠ .subscriptionIdentifier →
    plan.message.properties.getAll id = publish.properties.getAll id

theorem copyFor_prepareMessage (hcl : plan.clientId = sub.clientId)
    (hflow : plan.targetFlow = sub.flowId)
    (honline : plan.isOnline = (router.clients.lookup sub.clientId).isSome)
    (hmsg : plan.message = prepareMessage publish sub (effectiveQos publish.qos sub.qos)) :
    CopyFor router publish sub plan := by
  refine ⟨hcl, hflow, honline, ?_, ?_, ?_, ?_, ?_, ?_, ?_, ?_, fun id hid => ?_⟩
  all_goals rw [hmsg]; unfold prepareMessage; dsimp only
  · exact toNat_effectiveQos _ _
  · exact Bool.and_eq_true _ _ ▸ Iff.rfl
  · cases sub.subscriptionId with
    | none => exact (append_nil _).symm
    | some own =>
      dsimp only
      unfold Properties.subscriptionIdentifiers Properties.setSubscriptionIdentifier
      rw [Properties.getAll_push_self, filterMap_append]
      rfl
  · cases sub.subscriptionId with
    | none => rfl
    | some own => exact Properties.getAll_push_of_ne _ hid _

theorem planQueued_isSome_iff : (planQueued router sub publish
    (effectiveQos publish.qos sub.qos)).isSome ↔
      router.storage.isSome ∧ 0 < min publish.qos.toNat sub.qos.toNat := by
  rw [← toNat_effectiveQos]
  unfold planQueued
  generalize effectiveQos publish.qos sub.qos = qos
  cases router.storage <;> cases qos <;> simp [QoS.toNat]

theorem plainPlan_isSome_iff : (plainPlan router publish publishingClientId sub).isSome ↔
    ¬ (sub.noLocal ∧ publishingClientId = some sub.clientId) ∧
      router.canReach publish sub := by
  unfold plainPlan Router.canReach
  rw [← planQueued_isSome_iff]
  by_cases hlocal : sub.noLocal = true ∧ publishingClientId = some sub.clientId
  · simp [hlocal]
  · rw [if_neg (by simpa using hlocal)]
    cases hcl : router.clients.lookup sub.clientId with
    | none => simp [hlocal]
    | some _ => simp [hlocal]

theorem planQueued_copyFor (hcl : router.clients.lookup sub.clientId = none)
    (hplan : planQueued router sub publish (effectiveQos publish.qos sub.qos) = some plan) :
    CopyFor router publish sub plan := by
  unfold planQueued at hplan
  split at hplan
  · cases hplan
  split at hplan
  · cases hplan
  · obtain rfl := Option.some.inj hplan
    exact copyFor_prepareMessage rfl rfl (by rw [hcl]; rfl) rfl

theorem plainPlan_copyFor (hplan : plainPlan router publish publishingClientId sub = some plan) :
    CopyFor router publish sub plan := by
  unfold plainPlan at hplan
  dsimp only at hplan
  split at hplan
  · cases hplan
  cases hcl : router.clients.lookup sub.clientId with
  | some _ =>
    rw [hcl] at hplan
    obtain rfl := Option.some.inj hplan
    exact copyFor_prepareMessage rfl rfl (by rw [hcl]; rfl) rfl
  | none =>
    rw [hcl] at hplan
    exact planQueued_copyFor hcl hplan

end

/-- Without a rate limit, change-only subscriptions and echo suppression, a publish is planned
once for each plain subscription that matches by the MQTT rule, except those of the
publisher that exclude its own publishes and those of clients that are neither connected
nor can be queued for; each plan is the copy made for its subscription. -/
theorem planRoute_plain (router : Router) {order : List (String × List Subscription)}
    (groupOrder : ShareGroups → List ((String × String) × List Subscription))
    {publish : PublishPacket} (publishingClientId : Option String)
    (selectedGroups : Option (List String)) (state : RouterState)
    (horder : Table.Lists router.subscriptions.wildcard.buckets.table order)
    (hfilters : ∀ filter, router.subscriptions.get filter ≠ [] →
      validLevels (levels filter) = true)
    (htopic : isValidTopicName publish.topicName = true)
    (hecho : router.echoSuppressionKey = none) (hrate : router.maxOutboundRate = 0)
    (hchange : ∀ filter, ∀ sub ∈ router.subscriptions.get filter, sub.changeOnly = false) :
    let groups := (collectMatchingSubscriptions router.subscriptions order publish.topicName).1
    (∀ group members, groups.lookup group = some members →
      ∀ sub ∈ members, sub.shareGroup = some group.1) ∧
    ∃ (addressed : List (String × Subscription)) (plans : List DeliveryPlan),
      (planRoute router order groupOrder publish publishingClientId selectedGroups state).1 =
        (planShareGroups router publish publishingClientId
          (groupOrder (selectGroups groups selectedGroups)) state).1 ++ plans ∧
      addressed.Nodup ∧
      (∀ filter sub, (filter, sub) ∈ addressed ↔
        Addressed router publish publishingClientId filter sub) ∧
      List.Forall₂ (fun entry plan => CopyFor router publish entry.2 plan) addressed plans := by
  -- the entries that are met, and which of them have a plan
  let met := (matched router.subscriptions order publish.topicName).filter
    fun entry => entry.2.shareGroup.isNone
  let planOf := fun entry : String × Subscription =>
    plainPlan router publish publishingClientId entry.2
  have hmet : ∀ filter sub, (filter, sub) ∈ met ↔ (sub ∈ router.subscriptions.get filter ∧
      topicMatchesFilter publish.topicName filter = true) ∧ sub.shareGroup = none := by
    intro filter sub
    rw [← mem_matched horder htopic]
    simp [met]
  have hplans : ∀ state, (planRegular router publish publishingClientId
      (met.map Prod.snd) state).1 = met.flatMap fun entry => (planOf entry).toList := by
    intro state
    unfold planRegular
    rw [planEach_of_pure (fun sub => (planOf ("", sub)).toList) ?_ state, flatMap_map]
    intro sub hsub state
    obtain ⟨⟨filter, sub'⟩, hentry, rfl⟩ := mem_map.mp hsub
    rw [planDelivery_plain hecho hrate (hchange filter sub' ((hmet filter sub').mp hentry).1.1)]
  have hcopies : List.Forall₂ (fun entry plan => CopyFor router publish entry.2 plan)
      (met.filter fun entry => (planOf entry).isSome)
      (met.flatMap fun entry => (planOf entry).toList) :=
    forall₂_filterMap (f := planOf) (fun _ _ hplan => plainPlan_copyFor hplan) met
  refine ⟨fun _ _ hgroup _ hsub => shareGroup_of_mem hgroup hsub, _, _, ?_, ?_,
    fun filter sub => ?_, hcopies⟩
  · unfold planRoute
    dsimp only
    rw [collectMatchingSubscriptions_regular, hplans]
  · exact ((nodup_matched horder htopic).filter _).filter _
  · rw [mem_filter, hmet]
    constructor
    · rintro ⟨⟨⟨hsub, hmatch⟩, hplain⟩, hplan⟩
      have hvalid := hfilters filter (ne_nil_of_mem hsub)
      obtain ⟨hother, hreach⟩ := plainPlan_isSome_iff.mp hplan
      exact ⟨hsub, hplain, (topicMatchesFilter_iff hvalid).mp hmatch, hother, hreach⟩
    · rintro ⟨hsub, hplain, hmatch, hother, hreach⟩
      have hvalid := hfilters filter (ne_nil_of_mem hsub)
      exact ⟨⟨⟨hsub, (topicMatchesFilter_iff hvalid).mpr hmatch⟩, hplain⟩,
        plainPlan_isSome_iff.mpr ⟨hother, hreach⟩⟩

/-! ### A reader of all sensors -/

def reader : Subscription where
  clientId := "reader"
  qos := .atLeastOnce
  subscriptionId := some 1

def readings : Router where
  subscriptions := ({} : Subscriptions).place "sensors/+" reader
  clients := Finmap.insert "reader" ⟨false, 0⟩ ∅
  computeHash _ := 0
  evicted _ := none

def reading : PublishPacket where
  topicName := "sensors/hall"
  payload := [21]
  qos := .exactlyOnce

theorem mem_readings {filter : String} {sub : Subscription}
    (hsub : sub ∈ readings.subscriptions.get filter) : filter = "sensors/+" ∧ sub = reader := by
  rcases mem_place.mp hsub with h | ⟨h, -⟩
  · exact h
  · cases h

theorem reading_matches : FilterMatches "sensors/hall" "sensors/+" :=
  (topicMatchesFilter_iff (by decide)).mp (by decide)

theorem planRoute_plain_reading : ∃ plan ∈ (planRoute readings [("sensors/+", [reader])]
    (fun _ => []) reading (some "hall") none {}).1, CopyFor readings reading reader plan := by
  obtain ⟨-, addressed, _, hplans, -, hmem, hcopies⟩ := planRoute_plain readings
    (fun _ => []) (some "hall") none {} (Table.lists_singleton "sensors/+" [reader])
    (fun filter h => by
      obtain ⟨sub, hsub⟩ := exists_mem_of_ne_nil _ h
      rw [(mem_readings hsub).1]
      decide) (by decide : isValidTopicName reading.topicName = true) rfl rfl
    (fun filter sub hsub => by rw [(mem_readings hsub).2]; rfl)
  have haddressed : ("sensors/+", reader) ∈ addressed := by
    rw [hmem]
    refine ⟨mem_place.mpr (.inl ⟨rfl, rfl⟩), rfl, reading_matches, ?_, .inl (by decide)⟩
    rintro ⟨h, -⟩
    cases h
  obtain ⟨plan, hplan, hcopy⟩ := exists_of_forall₂ hcopies haddressed
  rw [hplans]
  exact ⟨plan, mem_append_right _ hplan, hcopy⟩

/-- A publish that comes with an identifier keeps it. -/
def taggedReading : PublishPacket :=
  { reading with properties := (∅ : Properties).setSubscriptionIdentifier 7 }

/-- With its reader gone, a reading is planned for nobody if it is of QoS 0 or there is nowhere
to keep it; and a copy has the identifiers the publish came with. -/
theorem reader_skipped_or_tagged :
    (reader ∈ readings.subscriptions.get "sensors/+" ∧ reader.shareGroup = none ∧
      reader.noLocal = false ∧ FilterMatches reading.topicName "sensors/+" ∧
      (planRoute { readings with clients := ∅, storage := some fun _ => 0 }
        [("sensors/+", [reader])] (fun _ => []) { reading with qos := .atMostOnce } (some "hall")
        none {}).1 = [] ∧
      (planRoute { readings with clients := ∅ } [("sensors/+", [reader])] (fun _ => []) reading
        (some "hall") none {}).1 = []) ∧
    reader.subscriptionId = some 1 ∧
      (planRoute readings [("sensors/+", [reader])] (fun _ => []) taggedReading (some "hall") none
        {}).1.map (fun plan => plan.message.properties.subscriptionIdentifiers) = [[7, 1]] :=
  ⟨⟨mem_place.mpr (.inl ⟨rfl, rfl⟩), rfl, rfl, reading_matches, rfl, rfl⟩, rfl,
    rfl⟩

end MqttLib.Broker.Routing
