/-
MqttLib.Broker.Subscriptions

The subscriptions of the router (`router.rs`): one map for filters without wildcards and
one for filters with them, both keyed by the filter behind a `$share/group/`.  A
subscription of a key is identified by its client, its share group and its flow.
-/

import MqttLib.Foundation.Buckets
import MqttLib.Protocol.Topic
import MqttLib.Storage.Session

namespace MqttLib.Broker

open Foundation Protocol Storage List Bool

/-! ## Subscriptions and requests -/

structure Subscription where
  clientId : String
  qos : QoS
  subscriptionId : Option UInt32 := none
  shareGroup : Option String := none
  noLocal : Bool := false
  retainAsPublished : Bool := false
  retainHandling : UInt8 := 0
  protocolVersion : ProtocolVersion := .v5
  changeOnly : Bool := false
  flowId : Option UInt64 := none
  deriving DecidableEq

/-- `SubscriptionIdentity`. -/
abbrev SubscriptionIdentity := String × Option String × Option UInt64

def Subscription.identity (sub : Subscription) : SubscriptionIdentity :=
  (sub.clientId, sub.shareGroup, sub.flowId)

structure SubscriptionRequest where
  clientId : String
  topicFilter : String
  qos : QoS
  subscriptionId : Option UInt32 := none
  noLocal : Bool := false
  retainAsPublished : Bool := false
  retainHandling : UInt8 := 0
  protocolVersion : ProtocolVersion := .v5
  changeOnly : Bool := false
  flowId : Option UInt64 := none
  deriving DecidableEq

/-- The filter a request is kept under. -/
def SubscriptionRequest.actualFilter (request : SubscriptionRequest) : String :=
  (parseSharedSubscription request.topicFilter).1

/-- The subscription of a request. -/
def SubscriptionRequest.subscription (request : SubscriptionRequest) : Subscription where
  clientId := request.clientId
  qos := request.qos
  subscriptionId := request.subscriptionId
  shareGroup := (parseSharedSubscription request.topicFilter).2
  noLocal := request.noLocal
  retainAsPublished := request.retainAsPublished
  retainHandling := request.retainHandling
  protocolVersion := request.protocolVersion
  changeOnly := request.changeOnly
  flowId := request.flowId

/-- `stored_subscription_request`. -/
def storedSubscriptionRequest (clientId topicFilter : String) (stored : StoredSubscription) :
    SubscriptionRequest where
  clientId := clientId
  topicFilter := topicFilter
  qos := stored.qos
  subscriptionId := stored.subscriptionId
  noLocal := stored.noLocal
  retainAsPublished := stored.retainAsPublished
  retainHandling := stored.retainHandling
  protocolVersion := (ProtocolVersion.tryFrom stored.protocolVersion).getD .v5
  changeOnly := stored.changeOnly
  flowId := stored.flowId

inductive Subscribed where
  | new
  | updated
  | fenced
  deriving DecidableEq

inductive Unsubscribed where
  | removed
  | absent
  | fenced
  deriving DecidableEq

/-! ## The maps -/

theorem keys_empty {wild : Bool} (filter : String)
    (h : ({} : Buckets String Subscription.identity).get filter ≠ []) :
    hasWildcards filter = wild :=
  absurd rfl h

/-- One of the two maps: its keys have wildcards, or none has. -/
structure SubscriptionMap (wild : Bool) where
  buckets : Buckets String Subscription.identity := {}
  keys : ∀ filter, buckets.get filter ≠ [] → hasWildcards filter = wild := by exact keys_empty

namespace SubscriptionMap

variable {wild : Bool}

def get (m : SubscriptionMap wild) (filter : String) : List Subscription := m.buckets.get filter

theorem get_eq_nil {m : SubscriptionMap wild} {filter : String} (h : hasWildcards filter ≠ wild) :
    m.get filter = [] := by
  by_contra hne
  exact h (m.keys filter hne)

/-- Adds a subscription, or replaces the one with its identity. -/
def place (m : SubscriptionMap wild) (filter : String) (hfilter : hasWildcards filter = wild)
    (sub : Subscription) : SubscriptionMap wild where
  buckets := m.buckets.place filter sub
  keys filter' hne := by
    obtain ⟨sub', hsub'⟩ := exists_mem_of_ne_nil _ hne
    rcases Buckets.mem_place.mp hsub' with ⟨rfl, -⟩ | ⟨hold, -⟩
    · exact hfilter
    · exact m.keys filter' (ne_nil_of_mem hold)

def remove (m : SubscriptionMap wild) (filter : String) (identity : SubscriptionIdentity) :
    SubscriptionMap wild where
  buckets := m.buckets.remove filter identity
  keys filter' hne := by
    obtain ⟨sub, hsub⟩ := exists_mem_of_ne_nil _ hne
    exact m.keys filter' (ne_nil_of_mem (Buckets.mem_remove.mp hsub).1)

/-- Keeps the subscriptions that pass a test; keys without any are dropped. -/
def retain (m : SubscriptionMap wild) (p : String → Subscription → Bool) :
    SubscriptionMap wild where
  buckets := m.buckets.filter p
  keys filter hne := by
    obtain ⟨sub, hsub⟩ := exists_mem_of_ne_nil _ hne
    exact m.keys filter (ne_nil_of_mem (Buckets.mem_filter.mp hsub).1)

section

variable {m : SubscriptionMap wild} {filter filter' : String} {sub sub' : Subscription}

theorem mem_place {hfilt : hasWildcards filter = wild} :
    sub' ∈ (m.place filter hfilt sub).get filter' ↔
      (filter' = filter ∧ sub' = sub) ∨
        (sub' ∈ m.get filter' ∧ ¬ (filter' = filter ∧ sub'.identity = sub.identity)) :=
  Buckets.mem_place

theorem mem_remove {identity : SubscriptionIdentity} :
    sub' ∈ (m.remove filter identity).get filter' ↔
      sub' ∈ m.get filter' ∧ ¬ (filter' = filter ∧ sub'.identity = identity) :=
  Buckets.mem_remove

theorem mem_retain {p : String → Subscription → Bool} :
    sub ∈ (m.retain p).get filter ↔ sub ∈ m.get filter ∧ p filter sub :=
  Buckets.mem_filter

end

end SubscriptionMap

structure Subscriptions where
  exact : SubscriptionMap false := {}
  wildcard : SubscriptionMap true := {}

namespace Subscriptions

/-- The subscriptions with a filter, which are all in one of the maps. -/
def get (s : Subscriptions) (filter : String) : List Subscription :=
  s.exact.get filter ++ s.wildcard.get filter

theorem mem_get {s : Subscriptions} {filter : String} {sub : Subscription} :
    sub ∈ s.get filter ↔ sub ∈ s.exact.get filter ∨ sub ∈ s.wildcard.get filter :=
  mem_append

/-- Adds a subscription to the map of its filter. -/
def place (s : Subscriptions) (filter : String) (sub : Subscription) : Subscriptions :=
  if h : hasWildcards filter = true then { s with wildcard := s.wildcard.place filter h sub }
  else { s with exact := s.exact.place filter (not_eq_true _ ▸ h) sub }

def remove (s : Subscriptions) (filter : String) (identity : SubscriptionIdentity) :
    Subscriptions :=
  if hasWildcards filter then { s with wildcard := s.wildcard.remove filter identity }
  else { s with exact := s.exact.remove filter identity }

def retain (s : Subscriptions) (p : String → Subscription → Bool) : Subscriptions where
  exact := s.exact.retain p
  wildcard := s.wildcard.retain p

/-- `remove_client_subscriptions`. -/
def removeClientSubscriptions (s : Subscriptions) (clientId : String) : Subscriptions :=
  s.retain fun _ sub => sub.clientId != clientId

/-- `subscribe_as` behind the fence. -/
def subscribe (s : Subscriptions) (request : SubscriptionRequest) :
    Except MqttError (Subscriptions × Subscribed) :=
  if request.retainHandling > 2 then
    .error (.protocolError ("Invalid retain_handling value: " ++
      toString request.retainHandling.toNat ++ " (must be 0, 1, or 2)"))
  else
    let sub := request.subscription
    let outcome := if (s.get request.actualFilter).any (·.identity = sub.identity) then .updated
      else .new
    .ok (s.place request.actualFilter sub, outcome)

/-- `unsubscribe_as` behind the fence. -/
def unsubscribe (s : Subscriptions) (clientId topicFilter : String) (flowId : Option UInt64) :
    Subscriptions × Unsubscribed :=
  let (actualFilter, shareGroup) := parseSharedSubscription topicFilter
  let identity := (clientId, shareGroup, flowId)
  (s.remove actualFilter identity,
    if (s.get actualFilter).any (·.identity = identity) then .removed else .absent)

/-- `unsubscribe_by_flow` behind the fence, and the filters it removed something from. -/
def unsubscribeByFlow (s : Subscriptions) (clientId : String) (flowId : UInt64) :
    Subscriptions × Finset String :=
  let bound (sub : Subscription) := sub.clientId == clientId && sub.flowId == some flowId
  (s.retain fun _ sub => !bound sub,
    (s.exact.buckets.table.keys ∪ s.wildcard.buckets.table.keys).filter fun filter =>
      (s.get filter).any bound)

/-- The first section of `set_client_subscriptions`: what none of the requests names goes. -/
def prune (s : Subscriptions) (clientId : String) (requests : List SubscriptionRequest) :
    Subscriptions :=
  s.retain fun filter sub =>
    sub.clientId != clientId ||
      requests.any fun request =>
        request.actualFilter == filter && request.subscription.identity == sub.identity

/-- `set_client_subscriptions`, for an order of the stored subscriptions. -/
def setClientSubscriptions (s : Subscriptions) (clientId : String)
    (stored : List (String × StoredSubscription)) : Except MqttError Subscriptions :=
  let requests := stored.map fun (filter, sub) => storedSubscriptionRequest clientId filter sub
  requests.foldlM (fun s request => (s.subscribe request).map Prod.fst) (s.prune clientId requests)

/-! ## What the operations do -/

section

variable {s : Subscriptions} {filter filter' : String} {sub sub' : Subscription}

theorem mem_place : sub' ∈ (s.place filter sub).get filter' ↔ (filter' = filter ∧ sub' = sub) ∨
      (sub' ∈ s.get filter' ∧ ¬ (filter' = filter ∧ sub'.identity = sub.identity)) := by
  rw [mem_get, mem_get]
  unfold place
  by_cases heq : filter' = filter
  · subst heq
    split
    · rename_i hwild
      rw [SubscriptionMap.mem_place,
        SubscriptionMap.get_eq_nil (m := s.exact) (by simp [hwild])]
      simp
    · rename_i hwild
      rw [SubscriptionMap.mem_place, SubscriptionMap.get_eq_nil (m := s.wildcard) hwild]
      simp
  · split <;> rw [SubscriptionMap.mem_place] <;> simp [heq]

theorem mem_remove {identity : SubscriptionIdentity} :
    sub ∈ (s.remove filter identity).get filter' ↔
      sub ∈ s.get filter' ∧ ¬ (filter' = filter ∧ sub.identity = identity) := by
  rw [mem_get, mem_get]
  unfold remove
  by_cases heq : filter' = filter
  · subst heq
    split
    · rename_i hwild
      rw [SubscriptionMap.mem_remove,
        SubscriptionMap.get_eq_nil (m := s.exact) (by simp [hwild])]
      simp
    · rename_i hwild
      rw [SubscriptionMap.mem_remove, SubscriptionMap.get_eq_nil (m := s.wildcard) hwild]
      simp
  · split <;> rw [SubscriptionMap.mem_remove] <;> simp [heq]

theorem mem_retain {p : String → Subscription → Bool} :
    sub ∈ (s.retain p).get filter ↔ sub ∈ s.get filter ∧ p filter sub := by
  rw [mem_get, mem_get]
  unfold retain
  rw [SubscriptionMap.mem_retain, SubscriptionMap.mem_retain, or_and_right]

variable {request : SubscriptionRequest} {s' : Subscriptions} {outcome : Subscribed}
  {clientId : String}

/-- A subscribe that succeeds puts the subscription of the request in its place. -/
theorem subscribe_eq (h : s.subscribe request = .ok (s', outcome)) :
    s' = s.place request.actualFilter request.subscription := by
  unfold subscribe at h
  split at h
  · cases h
  · exact (Prod.mk.inj (Except.ok.inj h)).1.symm

/-- A subscribe with a retain handling the protocol knows succeeds. -/
theorem subscribe_ok (s : Subscriptions) (request : SubscriptionRequest)
    (h : request.retainHandling ≤ 2) :
    ∃ outcome, outcome ≠ .fenced ∧
      s.subscribe request = .ok (s.place request.actualFilter request.subscription, outcome) := by
  unfold subscribe
  rw [if_neg (by simpa using h)]
  dsimp only
  split
  · exact ⟨.updated, by decide, rfl⟩
  · exact ⟨.new, by decide, rfl⟩

/-- A subscribe leaves the subscriptions of other clients alone. -/
theorem mem_subscribe_of_ne (h : s.subscribe request = .ok (s', outcome))
    (hne : sub.clientId ≠ request.clientId) : sub ∈ s'.get filter ↔ sub ∈ s.get filter := by
  have hident : sub.identity ≠ request.subscription.identity := fun heq =>
    hne (congrArg Prod.fst heq)
  have hoth : sub ≠ request.subscription := fun heq => hident (heq ▸ rfl)
  rw [subscribe_eq h, mem_place]
  simp [hident, hoth]

theorem mem_unsubscribe {topicFilter : String} {flowId : Option UInt64} :
    sub ∈ (s.unsubscribe clientId topicFilter flowId).1.get filter ↔ sub ∈ s.get filter ∧
      ¬ (filter = (parseSharedSubscription topicFilter).1 ∧
        sub.identity = (clientId, (parseSharedSubscription topicFilter).2, flowId)) :=
  mem_remove

theorem mem_unsubscribeByFlow {flowId : UInt64} :
    sub ∈ (s.unsubscribeByFlow clientId flowId).1.get filter ↔
      sub ∈ s.get filter ∧ ¬ (sub.clientId = clientId ∧ sub.flowId = some flowId) := by
  unfold unsubscribeByFlow
  rw [mem_retain]
  simp [imp_iff_not_or]

theorem mem_removeClientSubscriptions :
    sub ∈ (s.removeClientSubscriptions clientId).get filter ↔
      sub ∈ s.get filter ∧ sub.clientId ≠ clientId := by
  unfold removeClientSubscriptions
  rw [mem_retain]
  simp

theorem mem_prune {requests : List SubscriptionRequest} :
    sub ∈ (s.prune clientId requests).get filter ↔ sub ∈ s.get filter ∧
      (sub.clientId = clientId → ∃ request ∈ requests,
        request.actualFilter = filter ∧ request.subscription.identity = sub.identity) := by
  unfold prune
  rw [mem_retain, or_eq_true, any_eq_true, or_iff_not_imp_left]
  simp

end

end Subscriptions

end MqttLib.Broker
