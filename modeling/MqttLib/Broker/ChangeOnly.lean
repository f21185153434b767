/-
MqttLib.Broker.ChangeOnly

Change-only delivery: what is planned for one change-only subscription when publishes are routed
one after another.  Only the plans for a client that is reached are remembered, not those for its
queue.
-/

import MqttLib.Broker.Routing
import MqttLib.Foundation.Reachable

namespace MqttLib.Broker.Routing

open Foundation Protocol Storage Function

/-- A publish, and the router as it is then. -/
structure Attempt where
  router : Router
  publish : PublishPacket
  publishingClientId : Option String := none

/-- The state of the planning, and the payload planned last for every topic and not for the
queue. -/
structure Planning where
  state : RouterState
  last : String → Option Bytes := fun _ => none

variable (sub : Subscription)

namespace Attempt

variable (a : Attempt)

def plan (s : Planning) : Option DeliveryPlan × RouterState :=
  planDelivery a.router sub a.publish a.publishingClientId s.state

/-- No Local or echo suppression keeps the publish from the client. -/
def Kept : Prop :=
  sub.noLocal = true ∧ a.publishingClientId = some sub.clientId ∨
    a.router.isEcho sub a.publish = true

/-- The client is online and within its outbound rate. -/
def Reached (s : Planning) : Prop :=
  (a.router.clients.lookup sub.clientId).isSome = true ∧
    (s.state.admits a.router sub.clientId).1 = true

/-- The publish can wait in the queue. -/
def Queueable : Prop :=
  a.router.storage.isSome = true ∧ 0 < min a.publish.qos.toNat sub.qos.toNat

end Attempt

def Planning.act (s : Planning) (a : Attempt) : Option Planning :=
  some ⟨(a.plan sub s).2, if (a.plan sub s).1.any DeliveryPlan.isOnline then
    update s.last a.publish.topicName (some a.publish.payload) else s.last⟩

/-- What is remembered of the client. -/
def Planning.hashes (s : Planning) : Table String UInt64 :=
  ((s.state.changeOnlyStates.lookup sub.clientId).getD {}).lastPayloadHashes

/-- The hash tells the payloads apart, and a topic that is to be remembered has its place. -/
structure Roomy (hash : Bytes → UInt64) (payloads : Set Bytes) (s : Planning) (a : Attempt) :
    Prop where
  hash : a.router.computeHash = hash
  payload : a.publish.payload ∈ payloads
  room : a.Reached sub s → (s.hashes sub).entries.card < changeOnlyMaxTopics ∨
    ((s.hashes sub).lookup a.publish.topicName).isSome = true

/-- The hashes are those of the payloads planned last. -/
def Remembers (hash : Bytes → UInt64) (payloads : Set Bytes) (s : Planning) : Prop :=
  ∀ topic, (s.hashes sub).lookup topic = (s.last topic).map hash ∧
    ∀ payload ∈ s.last topic, payload ∈ payloads

variable {sub} {hash : Bytes → UInt64} {payloads : Set Bytes} {s s' : Planning} {a : Attempt}

theorem changeOnlyStates_admits {state : RouterState} {router : Router} {clientId : String} :
    (state.admits router clientId).2.changeOnlyStates = state.changeOnlyStates := by
  unfold RouterState.admits
  split
  · split <;> rfl
  · rfl

theorem unchanged_iff (hsub : sub.changeOnly) (s : Planning) (a : Attempt) :
    s.state.unchanged a.router sub a.publish = true ↔
      (s.hashes sub).lookup a.publish.topicName =
        some (a.router.computeHash a.publish.payload) := by
  unfold RouterState.unchanged Planning.hashes shouldDeliver
  cases s.state.changeOnlyStates.lookup sub.clientId <;> simp [hsub, bne]

theorem updateHash_of_room (hroomy : Roomy sub hash payloads s a) (hreached : a.Reached sub s) :
    (updateHash a.router ((s.state.changeOnlyStates.lookup sub.clientId).getD {})
      a.publish).lastPayloadHashes =
        (s.hashes sub).insert a.publish.topicName (hash a.publish.payload) := by
  have hroom := hroomy.room hreached
  unfold Planning.hashes at hroom
  unfold updateHash
  rw [hroomy.hash]
  rcases hroom with hcard | hknown
  · simp [Nat.not_le.mpr hcard, Planning.hashes]
  · simp [Option.isNone_eq_false_iff.mpr hknown, Planning.hashes]

/-- Nothing is planned for who has had the payload, or is kept from it. -/
theorem plan_skipped (hsub : sub.changeOnly) (hskip : a.Kept sub ∨
    (s.hashes sub).lookup a.publish.topicName = some (a.router.computeHash a.publish.payload)) :
    a.plan sub s = (none, s.state) := by
  unfold Attempt.plan planDelivery
  rcases hskip with (⟨hlocal, hown⟩ | hecho) | hsame
  · rw [if_pos (by simp [hlocal, hown])]
  · rw [if_pos hecho, ite_self]
  · rw [if_pos ((unchanged_iff hsub s a).mpr hsame), ite_self, ite_self]

/-- Who is reached is sent the payload, and it is remembered. -/
theorem plan_reached (hsub : sub.changeOnly) (hkept : ¬ a.Kept sub)
    (hroomy : Roomy sub hash payloads s a) (hreached : a.Reached sub s)
    (hnew : (s.hashes sub).lookup a.publish.topicName ≠ some (hash a.publish.payload)) :
    (a.plan sub s).1.any DeliveryPlan.isOnline = true ∧
      Planning.hashes sub ⟨(a.plan sub s).2, s.last⟩ =
        (s.hashes sub).insert a.publish.topicName (hash a.publish.payload) := by
  rw [← hroomy.hash, Ne, ← unchanged_iff hsub s a] at hnew
  rw [Attempt.Kept, not_or, Bool.not_eq_true] at hkept
  obtain ⟨_, hinfo⟩ := Option.isSome_iff_exists.mp hreached.1
  unfold Attempt.plan planDelivery
  rw [if_neg (by simpa using hkept.1), hkept.2, if_neg Bool.false_ne_true, if_neg hnew]
  simp only [hreached.2, hinfo]
  refine ⟨rfl, ?_⟩
  rw [← updateHash_of_room hroomy hreached]
  simp [RouterState.record, hsub, Planning.hashes, changeOnlyStates_admits]

/-- Who is not reached is left to the queue, and nothing is remembered. -/
theorem plan_unreached (hsub : sub.changeOnly) (hkept : ¬ a.Kept sub) (hreached : ¬ a.Reached sub s)
    (hnew : (s.hashes sub).lookup a.publish.topicName ≠
      some (a.router.computeHash a.publish.payload)) :
    a.plan sub s = (planQueued a.router sub a.publish (effectiveQos a.publish.qos sub.qos),
      (s.state.admits a.router sub.clientId).2) := by
  rw [Ne, ← unchanged_iff hsub s a] at hnew
  rw [Attempt.Kept, not_or, Bool.not_eq_true] at hkept
  unfold Attempt.plan planDelivery
  rw [if_neg (by simpa using hkept.1), hkept.2, if_neg Bool.false_ne_true, if_neg hnew]
  dsimp only
  by_cases hlet : (s.state.admits a.router sub.clientId).1 = true
  · have hoff : a.router.clients.lookup sub.clientId = none :=
      Option.not_isSome_iff_eq_none.mp fun hon => hreached ⟨hon, hlet⟩
    simp [hlet, hoff]
  · simp [hlet]

theorem planQueued_not_online {router : Router} {publish : PublishPacket} {qos : QoS} :
    (planQueued router sub publish qos).any DeliveryPlan.isOnline = false := by
  unfold planQueued
  split
  · rfl
  · split <;> rfl

theorem Remembers.act (hs : Remembers sub hash payloads s) (hsub : sub.changeOnly)
    (hroomy : Roomy sub hash payloads s a) (hact : s.act sub a = some s') :
    Remembers sub hash payloads s' := by
  cases hact
  by_cases hskip : a.Kept sub ∨
      (s.hashes sub).lookup a.publish.topicName = some (a.router.computeHash a.publish.payload)
  · rw [plan_skipped hsub hskip]
    exact hs
  rw [not_or, hroomy.hash] at hskip
  by_cases hreached : a.Reached sub s
  · obtain ⟨honline, hhashes⟩ := plan_reached hsub hskip.1 hroomy hreached hskip.2
    intro topic
    rw [if_pos honline]
    dsimp only
    have hlook := congrArg (Finmap.lookup topic) hhashes
    by_cases htopic : topic = a.publish.topicName
    · subst htopic
      rw [Finmap.lookup_insert] at hlook
      rw [update_self]
      refine ⟨hlook, fun payload hmem => ?_⟩
      cases hmem
      exact hroomy.payload
    · rw [Finmap.lookup_insert_of_ne _ htopic] at hlook
      rw [update_of_ne htopic]
      exact ⟨hlook.trans (hs topic).1, (hs topic).2⟩
  · rw [plan_unreached hsub hskip.1 hreached (hroomy.hash ▸ hskip.2), planQueued_not_online]
    intro topic
    rw [if_neg Bool.false_ne_true, Planning.hashes, changeOnlyStates_admits]
    exact hs topic

end MqttLib.Broker.Routing
