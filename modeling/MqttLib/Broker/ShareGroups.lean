/-
MqttLib.Broker.ShareGroups

Delivery to share groups (`plan_share_groups` of `router.rs`).  A pair of a group and a
filter has its members in the subscription maps and its turn in the counters, and a
`subscribe_as` writes the two in two sections.

Every pair whose filter matches is served once, by a member that is connected if there is
one and if the pair has its counter.  If nobody is connected the message is queued for the
member that subscribed first, which fails the others when that one takes QoS 0 only.
-/

import MqttLib.Acl.Subscription
import MqttLib.Broker.Routing
import MqttLib.Foundation.Reachable

namespace MqttLib.Broker.Routing

open Foundation Protocol Acl Subscriptions List Finmap

/-! ## One group -/

/-- The client of a subscription is connected. -/
def Router.connected (router : Router) (sub : Subscription) : Bool :=
  (router.clients.lookup sub.clientId).isSome

/-- What a pair of a group and a filter is due: a copy for one member that is connected, or else,
for a message that can be queued for some member, in the queue of one that takes it. -/
structure Served (router : Router) (publish : PublishPacket) (members : List Subscription)
    (plans : List DeliveryPlan) : Prop where
  connected : (∃ sub ∈ members, router.connected sub = true) →
    ∃ sub ∈ members, router.connected sub = true ∧
      ∃ plan, plans = [plan] ∧ CopyFor router publish sub plan
  queued : (∀ sub ∈ members, router.connected sub = false) → 0 < publish.qos.toNat →
    router.storage.isSome = true → (∃ sub ∈ members, 0 < sub.qos.toNat) →
    ∃ sub ∈ members, 0 < sub.qos.toNat ∧ ∃ plan, plans = [plan] ∧ CopyFor router publish sub plan
  once : plans.length ≤ 1

/-- The pair has its counter if a member is connected; and if none is, its first member takes a
message that some member takes. -/
structure Ready (router : Router) (publish : PublishPacket) (members : List Subscription)
    (counter : Option UInt64) : Prop where
  counted : (∃ sub ∈ members, router.connected sub = true) → counter.isSome = true
  first : (∀ sub ∈ members, router.connected sub = false) → 0 < publish.qos.toNat →
    router.storage.isSome = true → (∃ sub ∈ members, 0 < sub.qos.toNat) →
    ∃ sub, members.head? = some sub ∧ 0 < sub.qos.toNat

theorem ready_congr {router : Router} {publish : PublishPacket} {members : List Subscription}
    {counter counter' : Option UInt64} (h : counter.isSome = counter'.isSome) :
    Ready router publish members counter ↔ Ready router publish members counter' := by
  constructor <;>
  · rintro ⟨hcnt, hfirst⟩
    exact ⟨fun hsome => h ▸ hcnt hsome, hfirst⟩

section

variable {router : Router} {publish : PublishPacket} {publishingClientId : Option String}
  {sub : Subscription} {key : String × String} {members : List Subscription} {state : RouterState}

theorem chosen_mem (first : Subscription) (online : List Subscription) (turn : Nat)
    (test : Subscription → Bool) :
    (((first :: online).rotate turn).find? test).getD
    (((first :: online).rotate turn).headD first) ∈
      first :: online := by
  cases hfind : ((first :: online).rotate turn).find? test with
  | some sub => exact mem_rotate.mp (mem_of_find?_eq_some hfind)
  | none =>
    rw [Option.getD_none]
    cases hturn : (first :: online).rotate turn with
    | nil => exact mem_cons_self
    | cons sub _ =>
      have hsub : sub ∈ (first :: online).rotate turn := by
        rw [hturn]
        exact mem_cons_self
      exact mem_rotate.mp hsub

/-- A group without a connected member. -/
theorem served_iff_of_offline (hoffline : ∀ sub ∈ members, router.connected sub = false)
    (hmembers : members.filter (fun sub => (router.clients.lookup sub.clientId).isSome) = []) :
    Served router publish members
        (planShareGroup router publish publishingClientId (key, members) state).1 ↔
      Ready router publish members (state.shareGroupCounters.lookup key) := by
  have hnobody : ¬ ∃ sub ∈ members, router.connected sub := by
    rintro ⟨sub, hsub, honline⟩
    rw [hoffline sub hsub] at honline
    cases honline
  unfold planShareGroup
  rw [hmembers]
  dsimp only
  cases hhead : members.head? with
  | none =>
    obtain rfl : members = [] := head?_eq_none_iff.mp hhead
    refine iff_of_true ⟨fun h => (hnobody h).elim, ?_, Nat.zero_le 1⟩
      ⟨fun h => (hnobody h).elim, ?_⟩ <;>
    · rintro - - - ⟨sub, hsub, -⟩
      cases hsub
  | some first =>
    have hfirst : first ∈ members := mem_of_head? hhead
    have hcl : router.clients.lookup first.clientId = none := by
      have hfirstOffline := hoffline first hfirst
      unfold Router.connected at hfirstOffline
      simpa using hfirstOffline
    dsimp only
    cases hplan : planQueued router first publish (effectiveQos publish.qos first.qos) with
    | some plan =>
      -- the first member takes it
      have hsome := planQueued_isSome_iff.mp (Option.isSome_iff_exists.mpr ⟨plan, hplan⟩)
      have hqos : 0 < first.qos.toNat := Nat.lt_of_lt_of_le hsome.2 (Nat.min_le_right _ _)
      have hcopy := planQueued_copyFor hcl hplan
      refine iff_of_true ⟨fun h => (hnobody h).elim, ?_, Nat.le_refl 1⟩
        ⟨fun h => (hnobody h).elim, fun _ _ _ _ => ⟨first, hhead, hqos⟩⟩
      intro _ _ _ _
      exact ⟨first, hfirst, hqos, plan, rfl, hcopy⟩
    | none =>
      have hnone : ¬ (router.storage.isSome ∧ 0 < min publish.qos.toNat first.qos.toNat) := by
        rw [← planQueued_isSome_iff, hplan]
        exact Bool.false_ne_true
      constructor
      · intro hserved
        refine ⟨fun h => (hnobody h).elim, ?_⟩
        intro hall hpubl hstore hsome
        obtain ⟨_, _, _, plan, hplans, _⟩ := hserved.queued hall hpubl hstore hsome
        cases hplans
      · intro hrdy
        refine ⟨fun h => (hnobody h).elim, ?_, Nat.zero_le 1⟩
        intro hall hpubl hstore hsome
        obtain ⟨sub, hsub, hqos⟩ := hrdy.first hall hpubl hstore hsome
        obtain rfl : first = sub := Option.some.inj (hhead.symm.trans hsub)
        exact (hnone ⟨hstore, Nat.lt_min.mpr ⟨hpubl, hqos⟩⟩).elim

/-- A group with connected members, which do not exclude their own publishes. -/
theorem served_iff_of_online {first : Subscription} {online : List Subscription}
    (hecho : router.echoSuppressionKey = none) (hrate : router.maxOutboundRate = 0)
    (hplain : ∀ sub ∈ members, sub.changeOnly = false ∧ sub.noLocal = false)
    (hmembers : members.filter (fun sub => (router.clients.lookup sub.clientId).isSome) =
      first :: online) :
    Served router publish members
        (planShareGroup router publish publishingClientId (key, members) state).1 ↔
      Ready router publish members (state.shareGroupCounters.lookup key) := by
  have honline : ∀ sub ∈ first :: online, sub ∈ members ∧ router.connected sub := by
    intro sub hsub
    rw [← hmembers] at hsub
    exact mem_filter.mp hsub
  have hsome : ∃ sub ∈ members, router.connected sub := ⟨first, honline first mem_cons_self⟩
  have hnotOffline : ¬ ∀ sub ∈ members, router.connected sub = false := by
    intro hoffline
    obtain ⟨sub, hsub, hconn⟩ := hsome
    rw [hoffline sub hsub] at hconn
    cases hconn
  unfold planShareGroup
  rw [hmembers]
  dsimp only
  cases hcounter : state.shareGroupCounters.lookup key with
  | none =>
    refine iff_of_false ?_ ?_
    · intro hserved
      obtain ⟨_, _, _, plan, hplans, _⟩ := hserved.connected hsome
      cases hplans
    · intro hrdy
      exact Bool.false_ne_true (hrdy.counted hsome)
  | some counter =>
    have hchosen := chosen_mem first online
      (counter.toNat % (first :: online).length) router.keepsUp
    dsimp only
    generalize (((first :: online).rotate (counter.toNat % (first :: online).length)).find?
      router.keepsUp).getD (((first :: online).rotate
        (counter.toNat % (first :: online).length)).headD first) = chosen at hchosen ⊢
    obtain ⟨hmember, hconn⟩ := honline chosen hchosen
    obtain ⟨hchange, hlocal⟩ := hplain chosen hmember
    rw [planDelivery_plain hecho hrate hchange]
    dsimp only
    -- a connected member that does not exclude the publish has a plan
    have hplanned : (plainPlan router publish publishingClientId chosen).isSome := by
      refine plainPlan_isSome_iff.mpr ⟨?_, .inl hconn⟩
      rintro ⟨h, -⟩
      rw [hlocal] at h
      cases h
    obtain ⟨plan, hplan⟩ := Option.isSome_iff_exists.mp hplanned
    rw [hplan]
    refine iff_of_true ⟨fun _ => ?_, fun h => (hnotOffline h).elim, Nat.le_refl 1⟩
      ⟨fun _ => rfl, fun h => (hnotOffline h).elim⟩
    exact ⟨chosen, hmember, hconn, plan, rfl, plainPlan_copyFor hplan⟩

/-- A pair is served exactly when it is ready. -/
theorem served_iff_ready (hecho : router.echoSuppressionKey = none)
    (hrate : router.maxOutboundRate = 0)
    (hplain : ∀ sub ∈ members, sub.changeOnly = false ∧ sub.noLocal = false) :
    Served router publish members
        (planShareGroup router publish publishingClientId (key, members) state).1 ↔
      Ready router publish members (state.shareGroupCounters.lookup key) := by
  cases hmembers : members.filter (fun sub => (router.clients.lookup sub.clientId).isSome) with
  | nil =>
    refine served_iff_of_offline ?_ hmembers
    intro sub hsub
    have hnot := filter_eq_nil_iff.mp hmembers sub hsub
    unfold Router.connected
    simpa using hnot
  | cons _ _ => exact served_iff_of_online hecho hrate hplain hmembers

end

/-! ## The groups in turn -/

/-- What is planned for each of a list of things. -/
def turns {α : Type*} (plan : α → RouterState → List DeliveryPlan × RouterState) :
    List α → RouterState → List (α × List DeliveryPlan)
  | [], _ => []
  | a :: rest, state => (a, (plan a state).1) :: turns plan rest (plan a state).2

section

variable {α : Type*} {plan : α → RouterState → List DeliveryPlan × RouterState} {l : List α}
  {state : RouterState} {p : RouterState → Prop}

theorem planEach_eq_turns : (planEach plan l state).1 = (turns plan l state).flatMap Prod.snd := by
  induction l generalizing state with
  | nil => rfl
  | cons a l ih =>
    show (plan a state).1 ++ (planEach plan l (plan a state).2).1 = _
    rw [ih]
    rfl

theorem map_fst_turns : (turns plan l state).map Prod.fst = l := by
  induction l generalizing state with
  | nil => rfl
  | cons a l ih => exact congrArg (a :: ·) ih

theorem planEach_invariant (hstart : p state)
    (hplan : ∀ a state, p state → p (plan a state).2) : p (planEach plan l state).2 := by
  induction l generalizing state with
  | nil => exact hstart
  | cons a l ih => exact ih (hplan a state hstart)

/-- Each plan is made in a state that the plans before it lead to. -/
theorem mem_turns (hstart : p state) (hplan : ∀ a state, p state → p (plan a state).2) {a : α}
    {plans : List DeliveryPlan} (hmem : (a, plans) ∈ turns plan l state) :
    ∃ before, p before ∧ plans = (plan a before).1 := by
  induction l generalizing state with
  | nil => cases hmem
  | cons b l ih =>
    rcases mem_cons.mp hmem with heq | hrest
    · cases heq
      exact ⟨state, hstart, rfl⟩
    · exact ih (hplan b state hstart) hrest

end

/-! ### The counters -/

section

variable {router : Router} {publish : PublishPacket} {publishingClientId : Option String}

theorem planDelivery_counters (sub : Subscription) (state : RouterState) :
    (planDelivery router sub publish publishingClientId state).2.shareGroupCounters =
      state.shareGroupCounters := by
  have hadmits : (state.admits router sub.clientId).2.shareGroupCounters =
      state.shareGroupCounters := by
    unfold RouterState.admits
    split
    · split <;> rfl
    · rfl
  have hrec : ∀ state : RouterState, (state.record router sub publish).shareGroupCounters =
      state.shareGroupCounters := by
    intro state
    unfold RouterState.record
    split <;> rfl
  unfold planDelivery
  split
  · rfl
  split
  · rfl
  split
  · rfl
  dsimp only
  split
  · exact hadmits
  split
  · rw [hrec]
    exact hadmits
  · exact hadmits

/-- A turn neither adds nor removes a counter. -/
theorem planShareGroup_counters (group : (String × String) × List Subscription)
    (state : RouterState) (key : String × String) :
    ((planShareGroup router publish publishingClientId group state).2.shareGroupCounters.lookup
      key).isSome = (state.shareGroupCounters.lookup key).isSome := by
  unfold planShareGroup
  split
  · split <;> rfl
  · split
    · rfl
    · rename_i hcounter
      dsimp only
      rw [planDelivery_counters]
      dsimp only
      by_cases hkey : key = group.1
      · subst hkey
        rw [lookup_insert, hcounter]
        rfl
      · rw [lookup_insert_of_ne _ hkey]

theorem planRoute_counters (order : List (String × List Subscription))
    (groupOrder : ShareGroups → List ((String × String) × List Subscription))
    (selectedGroups : Option (List String)) (state : RouterState) (key : String × String) :
    ((planRoute router order groupOrder publish publishingClientId selectedGroups
      state).2.shareGroupCounters.lookup key).isSome =
      (state.shareGroupCounters.lookup key).isSome := by
  unfold planRoute planRegular planShareGroups
  dsimp only
  refine planEach_invariant (p := fun state' =>
    (state'.shareGroupCounters.lookup key).isSome = (state.shareGroupCounters.lookup key).isSome)
    ?_ ?_
  · refine planEach_invariant (p := fun state' =>
      (state'.shareGroupCounters.lookup key).isSome = (state.shareGroupCounters.lookup key).isSome)
      rfl ?_
    intro _ before hpre
    rw [planShareGroup_counters]
    exact hpre
  · intro _ before hpre
    dsimp only
    rw [planDelivery_counters]
    exact hpre

end

/-! ## Subscribing and routing -/

namespace ShareGroups

structure State where
  subscriptions : Subscriptions := {}
  router : RouterState := {}
  /-- The pairs of the subscribes that are between their two sections. -/
  uncounted : List (String × String) := []

/-- The pair of a request for a shared subscription. -/
def pairOf (request : SubscriptionRequest) : Option (String × String) :=
  request.subscription.shareGroup.map fun group => (group, request.actualFilter)

inductive Action where
  /-- The first section of `subscribe_as`, for a filter that has passed the validation of the
  SUBSCRIBE it came with, in this connection or the one that stored it. -/
  | subscribe (authorizeSubscribe : String → Bool) (request : SubscriptionRequest)
  /-- Its second section. -/
  | count (pair : String × String)
  | unsubscribe (clientId topicFilter : String) (flowId : Option UInt64)
  | unsubscribeByFlow (clientId : String) (flowId : UInt64)
  /-- A clean start, a release without a session, an expired session. -/
  | removeClient (clientId : String)
  /-- The first section of `set_client_subscriptions`; a subscribe for each request follows. -/
  | prune (clientId : String) (requests : List SubscriptionRequest)
  | route (router : Router) (order : List (String × List Subscription))
      (groupOrder : ShareGroups → List ((String × String) × List Subscription))
      (publish : PublishPacket) (publishingClientId : Option String)
      (selectedGroups : Option (List String))

def State.count (s : State) (pair : String × String) : Option State :=
  if pair ∈ s.uncounted then
    let counters := s.router.shareGroupCounters
    some { s with
      router := { s.router with
        shareGroupCounters :=
          if (counters.lookup pair).isSome then counters else counters.insert pair 0 }
      uncounted := s.uncounted.erase pair }
  else none

def State.subscribe (s : State) (authorizeSubscribe : String → Bool)
    (request : SubscriptionRequest) : Option State :=
  match validateSubscribeFilter authorizeSubscribe request.topicFilter request.noLocal,
      s.subscriptions.subscribe request with
  | .ok none, .ok (subscriptions, _) =>
    some { s with subscriptions, uncounted := (pairOf request).toList ++ s.uncounted }
  | _, _ => none

def act (s : State) : Action → Option State
  | .subscribe authorizeSubscribe request => s.subscribe authorizeSubscribe request
  | .count pair => s.count pair
  | .unsubscribe clientId topicFilter flowId =>
    some { s with subscriptions := (s.subscriptions.unsubscribe clientId topicFilter flowId).1 }
  | .unsubscribeByFlow clientId flowId =>
    some { s with subscriptions := (s.subscriptions.unsubscribeByFlow clientId flowId).1 }
  | .removeClient clientId =>
    some { s with subscriptions := s.subscriptions.removeClientSubscriptions clientId }
  | .prune clientId requests =>
    some { s with subscriptions := s.subscriptions.prune clientId requests }
  | .route router order groupOrder publish publishingClientId selectedGroups =>
    some { s with
      router := (planRoute { router with subscriptions := s.subscriptions } order groupOrder publish
        publishingClientId selectedGroups s.router).2 }

/-! ### The invariant -/

/-- A shared subscription does not exclude its own client's publishes, and its pair has a counter
or is about to get it. -/
def Counted (s : State) : Prop :=
  ∀ filter, ∀ sub ∈ s.subscriptions.get filter, ∀ group, sub.shareGroup = some group →
    sub.noLocal = false ∧ ((s.router.shareGroupCounters.lookup (group, filter)).isSome = true ∨
      (group, filter) ∈ s.uncounted)

variable {s s' : State} {authorizeSubscribe : String → Bool}

theorem Counted.initial : Counted {} := by
  intro _ _ hsub
  cases hsub

/-- A step that only takes subscriptions away. -/
theorem Counted.shrink (hs : Counted s) {subscriptions : Subscriptions}
    (hsub : ∀ filter, ∀ sub ∈ subscriptions.get filter, sub ∈ s.subscriptions.get filter) :
    Counted { s with subscriptions } :=
  fun filter sub hmem => hs filter sub (hsub filter sub hmem)

/-- A shared filter that was accepted does not come with `no_local`. -/
theorem noLocal_of_validate {filter group : String} {noLocal : Bool}
    (hvalid : validateSubscribeFilter authorizeSubscribe filter noLocal = .ok none)
    (hgroup : (parseSharedSubscription filter).2 = some group) : noLocal = false := by
  have hshr : "$share/".toList.isPrefixOf filter.toList := by
    rw [parseSharedSubscription_eq] at hgroup
    cases hparts : sharedParts filter with
    | none =>
      rw [hparts] at hgroup
      cases hgroup
    | some _ =>
      rw [List.isPrefixOf_iff_prefix, (sharedParts_eq_some_iff.mp hparts).1]
      exact prefix_append _ _
  cases noLocal with
  | false => rfl
  | true =>
    unfold validateSubscribeFilter at hvalid
    rw [hshr] at hvalid
    cases hvalid

theorem Counted.subscribe (hs : Counted s)
    {request : SubscriptionRequest} (hstep : s.subscribe authorizeSubscribe request = some s') :
    Counted s' := by
  unfold State.subscribe at hstep
  split at hstep
  · rename_i hvalid hsubd
    cases hstep
    intro filter sub hsub group hgroup
    dsimp only at hsub ⊢
    rw [subscribe_eq hsubd, mem_place] at hsub
    rcases hsub with ⟨rfl, rfl⟩ | ⟨hold, -⟩
    · refine ⟨noLocal_of_validate hvalid hgroup, .inr ?_⟩
      refine mem_append_left _ ?_
      unfold pairOf
      rw [hgroup]
      exact mem_singleton.mpr rfl
    · obtain ⟨hlocal, hcnt⟩ := hs filter sub hold group hgroup
      exact ⟨hlocal, hcnt.imp_right (mem_append_right _)⟩
  · cases hstep

theorem Counted.count (hs : Counted s) {pair : String × String}
    (hstep : s.count pair = some s') : Counted s' := by
  obtain ⟨-, rfl⟩ := Option.ite_some_none_eq_some.mp hstep
  intro filter sub hsub group hgroup
  obtain ⟨hlocal, hcnt⟩ := hs filter sub hsub group hgroup
  refine ⟨hlocal, ?_⟩
  dsimp only
  by_cases hpair : (group, filter) = pair
  · -- the pair gets its counter, unless it has one
    left
    subst hpair
    split
    · assumption
    · rw [lookup_insert]
      rfl
  · refine hcnt.imp ?_ (fun hmem => (mem_erase_of_ne hpair).mpr hmem)
    intro hlook
    split
    · exact hlook
    · rw [lookup_insert_of_ne _ hpair]
      exact hlook

theorem Counted.step (hs : Counted s) {a : Action} (hstep : act s a = some s') : Counted s' := by
  cases a with
  | subscribe _ _ => exact hs.subscribe hstep
  | count _ => exact hs.count hstep
  | unsubscribe clientId _ flowId =>
    cases hstep
    exact hs.shrink fun filter sub hmem => (mem_unsubscribe.mp hmem).1
  | unsubscribeByFlow clientId flowId =>
    cases hstep
    exact hs.shrink fun filter sub hmem => (mem_unsubscribeByFlow.mp hmem).1
  | removeClient clientId =>
    cases hstep
    exact hs.shrink fun filter sub hmem => (mem_removeClientSubscriptions.mp hmem).1
  | prune clientId _ =>
    cases hstep
    exact hs.shrink fun filter sub hmem => (mem_prune.mp hmem).1
  | route _ _ _ _ _ _ =>
    cases hstep
    intro filter sub hsub group hgroup
    dsimp only
    rw [planRoute_counters]
    exact hs filter sub hsub group hgroup

/-! ### The members of a pair -/

section

variable {subscriptions : Subscriptions} {order : List (String × List Subscription)}
  {topicName group filter : String} {members : List Subscription}

theorem mem_members (group filter : String)
    (horder : Table.Lists subscriptions.wildcard.buckets.table order)
    (htopic : isValidTopicName topicName) (sub : Subscription) :
    sub ∈ ((collectMatchingSubscriptions subscriptions order topicName).1.lookup
        (group, filter)).getD [] ↔
      (sub ∈ subscriptions.get filter ∧ topicMatchesFilter topicName filter) ∧
        sub.shareGroup = some group := by
  rw [collectMatchingSubscriptions_group, ← mem_matched horder htopic]
  simp

end

/-! ### Runs -/

/-- After every run of subscribes, unsubscribes, removals and publishes, a publish is planned for
each pair of a share group and a filter that matches in one turn, besides the plans of plain
subscriptions.  The pair gets what it is due if and only if it has its counter when a member
is connected, and its first member takes a message that some member takes when none is.  The
counter is there unless a subscribe to the pair is between its two sections. -/
theorem share_groups_served (hrun : Reachable act (fun _ _ => True) {} s) {router : Router}
    (hrouter : router.subscriptions = s.subscriptions) {order : List (String × List Subscription)}
    (horder : Table.Lists router.subscriptions.wildcard.buckets.table order)
    {groupOrder : ShareGroups → List ((String × String) × List Subscription)}
    {publish : PublishPacket} (publishingClientId : Option String) (hgroups : Table.Lists
      (collectMatchingSubscriptions router.subscriptions order publish.topicName).1
      (groupOrder (collectMatchingSubscriptions router.subscriptions order publish.topicName).1))
    (htopic : isValidTopicName publish.topicName = true)
    (hecho : router.echoSuppressionKey = none) (hrate : router.maxOutboundRate = 0)
    (hchange : ∀ filter, ∀ sub ∈ router.subscriptions.get filter, sub.changeOnly = false) :
    let (groups, regular) :=
      collectMatchingSubscriptions router.subscriptions order publish.topicName
    let served := turns (planShareGroup router publish publishingClientId) (groupOrder groups)
      s.router
    (∃ state, (planRoute router order groupOrder publish publishingClientId none s.router).1 =
      served.flatMap Prod.snd ++ (planRegular router publish publishingClientId regular state).1) ∧
    (∀ sub ∈ regular, sub.shareGroup = none) ∧
    (served.map fun turn => turn.1.1).Nodup ∧
    (∀ group filter, ∀ sub ∈ router.subscriptions.get filter, sub.shareGroup = some group →
      topicMatchesFilter publish.topicName filter = true →
      ∃ turn ∈ served, turn.1.1 = (group, filter)) ∧
    ∀ group filter members plans, (((group, filter), members), plans) ∈ served →
      (∀ sub, sub ∈ members ↔ (sub ∈ router.subscriptions.get filter ∧
        topicMatchesFilter publish.topicName filter = true) ∧ sub.shareGroup = some group) ∧
      (Served router publish members plans ↔
        Ready router publish members (s.router.shareGroupCounters.lookup (group, filter))) ∧
      (members ≠ [] → (group, filter) ∉ s.uncounted →
        (s.router.shareGroupCounters.lookup (group, filter)).isSome = true) := by
  have hs : Counted s := hrun.invariant Counted.initial (fun _ _ _ hs _ hstep => hs.step hstep)
  generalize hcollect : collectMatchingSubscriptions router.subscriptions order publish.topicName =
    collected at hgroups ⊢
  obtain ⟨groups, regular⟩ := collected
  dsimp only at hgroups ⊢
  have hmembers : ∀ group filter members, groups.lookup (group, filter) = some members →
      ∀ sub, sub ∈ members ↔ (sub ∈ router.subscriptions.get filter ∧
        topicMatchesFilter publish.topicName filter = true) ∧ sub.shareGroup = some group := by
    intro group filter members hlookup sub
    have hmem := mem_members group filter horder htopic sub
    rw [hcollect, hlookup] at hmem
    exact hmem
  have hturns : (turns (planShareGroup router publish publishingClientId) (groupOrder groups)
      s.router).map Prod.fst = groupOrder groups := map_fst_turns
  refine ⟨?_, ?_, ?_, ?_, ?_⟩
  · unfold planRoute
    rw [hcollect]
    refine ⟨(planShareGroups router publish publishingClientId (groupOrder groups) s.router).2, ?_⟩
    rw [← planEach_eq_turns]
    rfl
  · intro sub hsub
    have hregular := collectMatchingSubscriptions_regular router.subscriptions order
      publish.topicName
    rw [hcollect] at hregular
    dsimp only at hregular
    rw [hregular] at hsub
    obtain ⟨_, hentry, rfl⟩ := mem_map.mp hsub
    simpa using (mem_filter.mp hentry).2
  · have hkeys := hgroups.nodup
    rw [← hturns, map_map] at hkeys
    exact hkeys
  · intro group filter sub hsub hgroup hmatch
    have hmem := (mem_members _ _ horder htopic sub).mpr ⟨⟨hsub, hmatch⟩, hgroup⟩
    rw [hcollect] at hmem
    dsimp only at hmem
    cases hlookup : groups.lookup (group, filter) with
    | none =>
      rw [hlookup] at hmem
      cases hmem
    | some members =>
      have hlisted := (hgroups.mem (group, filter) members).mpr hlookup
      rw [← hturns] at hlisted
      obtain ⟨turn, hturn, heq⟩ := mem_map.mp hlisted
      exact ⟨turn, hturn, congrArg Prod.fst heq⟩
  · intro group filter members plans hturn
    have hlisted : ((group, filter), members) ∈ groupOrder groups := by
      rw [← hturns]
      exact mem_map_of_mem (f := Prod.fst) hturn
    have hsubs := hmembers group filter members ((hgroups.mem _ _).mp hlisted)
    have hcounted : ∀ sub ∈ members, sub.noLocal = false ∧
        ((s.router.shareGroupCounters.lookup (group, filter)).isSome = true ∨
          (group, filter) ∈ s.uncounted) := by
      intro sub hsub
      obtain ⟨⟨hget, -⟩, hgroup⟩ := (hsubs sub).mp hsub
      rw [hrouter] at hget
      exact hs filter sub hget group hgroup
    refine ⟨hsubs, ?_, ?_⟩
    · -- the turns before this one leave it its counter
      obtain ⟨before, hbefore, rfl⟩ := mem_turns (p := fun state =>
        (state.shareGroupCounters.lookup (group, filter)).isSome =
          (s.router.shareGroupCounters.lookup (group, filter)).isSome) rfl
        (fun group' state hstate => (planShareGroup_counters group' state _).trans hstate) hturn
      rw [served_iff_ready hecho hrate
        (fun sub hsub => ⟨hchange filter sub ((hsubs sub).mp hsub).1.1, (hcounted sub hsub).1⟩)]
      exact ready_congr hbefore
    · intro hne hcomplete
      obtain ⟨sub, hsub⟩ := exists_mem_of_ne_nil members hne
      exact (hcounted sub hsub).2.resolve_right hcomplete

/-! ### Two workers -/

def request (clientId : String) (qos : QoS) : SubscriptionRequest where
  clientId := clientId
  topicFilter := "$share/crew/jobs"
  qos := qos

def job : PublishPacket where
  topicName := "jobs"
  payload := [1]
  qos := .atLeastOnce

/-- The first worker subscribes with QoS 0, the second with QoS 1. -/
def crew : State where
  subscriptions := (({} : Subscriptions).place "jobs"
    (request "first" .atMostOnce).subscription).place
    "jobs" (request "second" .atLeastOnce).subscription
  router := { shareGroupCounters := insert ("crew", "jobs") 0 ∅ }

def members : List Subscription :=
  [(request "first" .atMostOnce).subscription, (request "second" .atLeastOnce).subscription]

/-- The router with a storage, and the second worker connected. -/
def secondConnected : Router where
  subscriptions := crew.subscriptions
  clients := insert "second" ⟨false, 0⟩ ∅
  storage := some fun _ => 0
  computeHash _ := 0
  evicted _ := none

def crewRun : List Action :=
  [.subscribe (fun _ => true) (request "first" .atMostOnce), .count ("crew", "jobs"),
    .subscribe (fun _ => true) (request "second" .atLeastOnce), .count ("crew", "jobs")]

theorem crew_reached : Foundation.follow act {} crewRun = some crew := rfl

theorem mem_crew {filter : String} {sub : Subscription}
    (hsub : sub ∈ crew.subscriptions.get filter) : sub.changeOnly = false := by
  rcases mem_place.mp hsub with ⟨-, rfl⟩ | ⟨hfirst, -⟩
  · rfl
  · rcases mem_place.mp hfirst with ⟨-, rfl⟩ | ⟨hnone, -⟩
    · rfl
    · cases hnone

/-- The one group of the run, as it is listed. -/
def crewOrder (_ : ShareGroups) : List ((String × String) × List Subscription) :=
  [(("crew", "jobs"), members)]

theorem share_groups_served_second :
    Foundation.follow act {} crewRun = some crew ∧
    ∃ turn ∈ turns (planShareGroup secondConnected job none) [(("crew", "jobs"), members)]
      crew.router, turn.1.1 = ("crew", "jobs") ∧ Served secondConnected job turn.1.2 turn.2 := by
  have hrun : Reachable act (fun _ _ => True) {} crew :=
    Reachable.start.follow (fun _ _ _ => trivial) crew_reached
  have hrouter : secondConnected.subscriptions = crew.subscriptions := rfl
  have horder : Table.Lists secondConnected.subscriptions.wildcard.buckets.table [] :=
    Table.lists_empty
  have hgroups : Table.Lists
      (collectMatchingSubscriptions secondConnected.subscriptions [] job.topicName).1
      (crewOrder (collectMatchingSubscriptions secondConnected.subscriptions [] job.topicName).1) :=
    Table.lists_singleton ("crew", "jobs") members
  obtain ⟨-, -, -, hpairs, hturns⟩ := share_groups_served hrun hrouter horder none hgroups
    (by decide) rfl rfl (fun _ _ hsub => mem_crew hsub)
  obtain ⟨turn, hturn, hkey⟩ := hpairs "crew" "jobs" (request "second" .atLeastOnce).subscription
    (mem_place.mpr (.inl ⟨rfl, rfl⟩)) rfl (by decide)
  refine ⟨rfl, turn, hturn, hkey, ?_⟩
  obtain ⟨⟨key, listed⟩, plans⟩ := turn
  obtain rfl : key = ("crew", "jobs") := hkey
  obtain ⟨hmembers, hserved, -⟩ := hturns "crew" "jobs" listed plans hturn
  refine hserved.mpr ⟨fun _ => rfl, fun hoffline => ?_⟩
  have hconnected := hoffline (request "second" .atLeastOnce).subscription
    ((hmembers _).mpr ⟨⟨mem_place.mpr (.inl ⟨rfl, rfl⟩), by decide⟩, rfl⟩)
  cases hconnected

/-- Nobody is connected: the job is queued for nobody, although the second worker takes it. -/
theorem job_lost :
    Foundation.follow act {} crewRun = some crew ∧
    (∀ sub ∈ members, ({ secondConnected with clients := ∅ } : Router).connected sub = false) ∧
    secondConnected.storage.isSome = true ∧ 0 < job.qos.toNat ∧
    (request "second" .atLeastOnce).subscription ∈ members ∧
    0 < (request "second" .atLeastOnce).subscription.qos.toNat ∧
    (planRoute { secondConnected with clients := ∅ } [] (fun _ => [(("crew", "jobs"), members)]) job
      none none crew.router).1 = [] := by
  refine ⟨rfl, ?_, rfl, by decide, by decide, by decide, rfl⟩
  intro sub _
  rfl

end ShareGroups

end MqttLib.Broker.Routing
