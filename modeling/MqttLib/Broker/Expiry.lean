/-
MqttLib.Broker.Expiry

The Message Expiry Interval of one message on its way through the broker: as a packet that
is routed, waits in a delivery lane or for its PUBREL; as a record of the queue; as a packet
sent and not acknowledged; as a record in the storage.  Every conversion reads the clock.
-/

import MqttLib.Foundation.Reachable
import MqttLib.Storage.Messages

namespace MqttLib.Broker.Expiry

open Foundation Protocol Storage Option

/-! ## The way of a message -/

/-- Where a message is.  A packet has its interval, as it was at some time, and maybe a record
in the storage. -/
inductive Form where
  /-- Routed, in a delivery lane, or waiting for its PUBREL. -/
  | packet (publish : PublishPacket) (since : SystemTime) (record : Option InflightMessage)
  | queued (message : QueuedMessage)
  /-- In a batch of the drain, or held back from it. -/
  | taken (message : QueuedMessage)
  /-- In `outbound_inflight`. -/
  | inFlight (publish : PublishPacket) (since : SystemTime) (record : Option InflightMessage)
  /-- Only in the storage. -/
  | stored (record : InflightMessage)
  | gone

/-- A copy that has been written to the client. -/
structure Copy where
  time : SystemTime
  interval : Option UInt32
  deriving DecidableEq

structure State where
  clientId : String
  form : Form
  clock : SystemTime
  copies : List Copy := []
  /-- How long the message has waited as a packet. -/
  waited : Nat := 0

inductive Action where
  /-- An inbound QoS 2 message is stored until its PUBREL. -/
  | keep (now : SystemTime)
  /-- `queue_behind`, and the delivery lane in `requeue_unsent`. -/
  | enqueue (now : SystemTime)
  /-- `send_publish` of a message from the delivery lane. -/
  | deliver (packetId : UInt16) (storing : Bool) (now : SystemTime)
  /-- The message leaves the queue, dropped if it has expired. -/
  | take (now : SystemTime)
  /-- The rest of a batch goes back to the queue. -/
  | putBack (now : SystemTime)
  /-- `send_publish` of a message from the queue. -/
  | drain (packetId : UInt16) (storing : Bool) (now : SystemTime)
  /-- `requeue_unsent` of an unacknowledged message. -/
  | requeue (now : SystemTime)
  /-- The queue is read from its files. -/
  | reopen (now : SystemTime)
  /-- The connection is gone, or the broker with what a record has in memory only. -/
  | lose (restarted : Bool) (now : SystemTime)
  /-- `load_persisted_inflight`: the storage drops an expired record; one of the client goes
  back to waiting for its PUBREL, one to the client to the front of the queue. -/
  | reload (read now queuedAt : SystemTime)
  /-- Acknowledged, or dropped for another reason. -/
  | finish (now : SystemTime)

def Action.time : Action → SystemTime
  | .keep now | .enqueue now | .deliver _ _ now | .take now | .putBack now | .drain _ _ now
  | .requeue now | .reopen now | .lose _ now | .finish now => now
  | .reload _ _ queuedAt => queuedAt

/-- What a write to the client leaves behind: a message of QoS 0 is not heard of again. -/
def State.send (s : State) (publish : PublishPacket) (packetId : UInt16) (storing : Bool)
    (now : SystemTime) : State :=
  let sent := { publish with packetId := some packetId }
  { s with
    form :=
      if publish.qos = .atMostOnce then .gone
      else .inFlight sent now (if storing then
        some (.fromPublish sent s.clientId .outbound .awaitingPubrec now) else none)
    copies := s.copies ++ [⟨now, publish.properties.getMessageExpiryInterval⟩] }

def State.move (s : State) : Action → Option State
  | .keep now =>
    match s.form with
    | .packet publish since none =>
      some { s with
        form := .packet publish now
          (some (.fromPublish publish s.clientId .inbound .awaitingPubrel now))
        waited := s.waited + (now - since) }
    | _ => none
  | .enqueue now =>
    match s.form with
    | .packet publish since _ =>
      some { s with
        form := .queued (.new publish s.clientId publish.qos none now)
        waited := s.waited + (now - since) }
    | _ => none
  | .deliver packetId storing now =>
    match s.form with
    | .packet publish since _ =>
      some ({ s with waited := s.waited + (now - since) }.send publish packetId storing now)
    | _ => none
  | .take now =>
    match s.form with
    | .queued message =>
      some { s with form := if message.isExpired now then .gone else .taken message }
    | _ => none
  | .putBack _ =>
    match s.form with
    | .taken message => some { s with form := .queued message }
    | _ => none
  | .drain packetId storing now =>
    match s.form with
    | .taken message => some (s.send (message.toPublishPacket now) packetId storing now)
    | _ => none
  | .requeue now =>
    match s.form with
    | .inFlight publish since _ =>
      some { s with
        form := .queued
          { QueuedMessage.new publish s.clientId publish.qos publish.packetId now with dup := true }
        waited := s.waited + (now - since) }
    | _ => none
  | .reopen _ =>
    match s.form with
    | .queued message =>
      some { s with form := .queued ({ message with expiresAt := none }.recomputeExpiry) }
    | _ => none
  | .lose restarted _ =>
    match s.form with
    | .packet _ _ (some record) | .inFlight _ _ (some record) =>
      some { s with form := .stored (if restarted then { record with expiresAtCache := none }
        else record) }
    | _ => some { s with form := .gone }
  | .reload read now queuedAt =>
    match s.form with
    | .stored record =>
      if record.isExpired read then some { s with form := .gone }
      else match record.direction with
        | .inbound =>
          some { s with form := .packet (record.toPublishPacket now) now (some record) }
        | .outbound =>
          -- of the others only the PUBREL is sent again
          if record.phase ≠ .awaitingPubrec then some { s with form := .gone }
          else some { s with
            form := .queued
              { QueuedMessage.new (record.toPublishPacket now) s.clientId record.qos
                  (some record.packetId) queuedAt with dup := true }
            waited := s.waited + (queuedAt - now) }
    | _ => none
  | .finish _ => some { s with form := .gone }

/-- The clock does not go back. -/
def act (s : State) (a : Action) : Option State :=
  if a.time < s.clock then none else s.move a |>.map fun s' => { s' with clock := a.time }

/-- A message as it is received. -/
def received (clientId : String) (publish : PublishPacket) (now : SystemTime) : State where
  clientId := clientId
  form := .packet publish now none
  clock := now

/-! ## What ends by a time -/

/-- There is an interval, and counted from a time it ends by the bound. -/
def EndsBy (bound : SystemTime) (interval : Option UInt32) (since : SystemTime) : Prop :=
  ∃ seconds, interval = some seconds ∧ deadline since seconds ≤ bound

/-- The deadline of a queued message, and the one its file gives it. -/
def QueuedWithin (bound : SystemTime) (m : QueuedMessage) : Prop :=
  (∃ expiry, m.expiresAt = some expiry ∧ expiry ≤ bound) ∧
    EndsBy bound m.messageExpiryInterval (fromUnixSecs m.queuedAtSecs)

/-- The deadline of a record in memory, and the one its file gives it. -/
def RecordWithin (bound : SystemTime) (record : InflightMessage) : Prop :=
  (∀ expiry, record.expiresAtCache = some expiry → expiry ≤ bound) ∧
    ∃ secs, record.expiresAtSecs = some secs ∧ fromUnixSecs secs ≤ bound

def Form.Within (bound : SystemTime) : Form → Prop
  | .packet publish since record | .inFlight publish since record =>
    EndsBy bound publish.properties.getMessageExpiryInterval since ∧
      ∀ r, record = some r → RecordWithin bound r
  | .queued message | .taken message => QueuedWithin bound message
  | .stored record => RecordWithin bound record
  | .gone => True

/-- The message still has a deadline, which is not after the bound; no copy of it was sent
later, and none with an interval that ends later. -/
structure State.Within (bound : SystemTime) (s : State) : Prop where
  form : s.form.Within bound
  copies : ∀ copy ∈ s.copies, EndsBy bound copy.interval copy.time

section

variable {bound bound' since now : SystemTime} {interval : Option UInt32} {publish : PublishPacket}
  {m : QueuedMessage} {record : InflightMessage} {form : Form} {s s' : State} {expiry : SystemTime}

theorem EndsBy.mono (h : EndsBy bound interval since) (hle : bound ≤ bound') :
    EndsBy bound' interval since := by
  obtain ⟨seconds, hint, hends⟩ := h
  exact ⟨seconds, hint, le_trans hends hle⟩

theorem EndsBy.later (h : EndsBy bound interval since) (now : SystemTime) :
    EndsBy (bound + (now - since)) interval now := by
  obtain ⟨seconds, hint, hends⟩ := h
  refine ⟨seconds, hint, ?_⟩
  have hnow : now ≤ since + (now - since) := Nat.sub_le_iff_le_add'.mp (le_refl _)
  calc deadline now seconds
      ≤ deadline (since + (now - since)) seconds := deadline_le_deadline hnow seconds
    _ = deadline since seconds + (now - since) := Nat.add_right_comm _ _ _
    _ ≤ bound + (now - since) := Nat.add_le_add_right hends _

section

variable (h : EndsBy bound publish.properties.getMessageExpiryInterval now)
include h

theorem queuedWithin_new (clientId : String) (qos : QoS) (packetId : Option UInt16) :
    QueuedWithin bound (.new publish clientId qos packetId now) := by
  obtain ⟨seconds, hint, hends⟩ := h
  refine ⟨⟨deadline now seconds, ?_, hends⟩, seconds, hint, ?_⟩
  · show publish.properties.getMessageExpiryInterval.map (deadline now) = _
    rw [hint, map_some]
  · exact le_trans (deadline_le_deadline (fromUnixSecs_unixSecs_le now) seconds) hends

theorem recordWithin_fromPublish (clientId : String)
    (direction : InflightDirection) (phase : InflightPhase) :
    RecordWithin bound (.fromPublish publish clientId direction phase now) := by
  obtain ⟨seconds, hint, hends⟩ := h
  refine ⟨fun _ hexpiry => ?_, unixSecs now + seconds.toUInt64, ?_, ?_⟩
  · change publish.properties.getMessageExpiryInterval.map (deadline now) = _ at hexpiry
    rw [hint, map_some, some.injEq] at hexpiry
    rw [← hexpiry]
    exact hends
  · show publish.properties.getMessageExpiryInterval.map _ = _
    rw [hint, map_some]
  · exact le_trans (fromUnixSecs_add_le now seconds) hends

end

/-- The deadline that is computed again after a restart. -/
theorem QueuedWithin.recomputeExpiry (h : QueuedWithin bound m) :
    QueuedWithin bound ({ m with expiresAt := none }.recomputeExpiry) := by
  obtain ⟨-, seconds, hint, hends⟩ := h
  unfold QueuedMessage.recomputeExpiry
  rw [hint]
  exact ⟨⟨_, rfl, hends⟩, seconds, rfl, hends⟩

theorem RecordWithin.forget (h : RecordWithin bound record) :
    RecordWithin bound { record with expiresAtCache := none } := by
  refine ⟨fun _ hexpiry => ?_, h.2⟩
  cases hexpiry

theorem le_of_not_expired (h : expired (some expiry) now = false) : now ≤ expiry := by
  unfold expired at h
  rw [any_some, decide_eq_false_iff_not] at h
  exact Nat.le_of_not_lt h

/-- What is left of a deadline that has not passed. -/
theorem endsBy_remaining (hbound : expiry ≤ bound) (hfresh : expired (some expiry) now = false) :
    EndsBy bound (remainingInterval expiry now) now := by
  obtain ⟨seconds, hint, hends⟩ := exists_remainingInterval (le_of_not_expired hfresh)
  exact ⟨seconds, hint, le_trans hends hbound⟩

theorem QueuedWithin.toPublishPacket (h : QueuedWithin bound m) (hfresh : m.isExpired now = false) :
    EndsBy bound (m.toPublishPacket now).properties.getMessageExpiryInterval now := by
  obtain ⟨⟨_, hexpiry, hbound⟩, -⟩ := h
  rw [QueuedMessage.getMessageExpiryInterval_toPublishPacket]
  unfold QueuedMessage.isExpired at hfresh
  unfold QueuedMessage.remainingExpiryInterval
  rw [hexpiry] at hfresh ⊢
  exact endsBy_remaining hbound hfresh

theorem RecordWithin.resolved (h : RecordWithin bound record) :
    ∃ expiry, record.resolvedExpiresAt = some expiry ∧ expiry ≤ bound := by
  obtain ⟨hcache, secs, hsecs, hbound⟩ := h
  unfold InflightMessage.resolvedExpiresAt
  cases hcached : record.expiresAtCache with
  | some expiry => exact ⟨expiry, rfl, hcache expiry hcached⟩
  | none =>
    rw [hsecs]
    exact ⟨fromUnixSecs secs, rfl, hbound⟩

theorem RecordWithin.toPublishPacket (h : RecordWithin bound record)
    (hfresh : record.isExpired now = false) :
    EndsBy bound (record.toPublishPacket now).properties.getMessageExpiryInterval now := by
  obtain ⟨_, hexpiry, hbound⟩ := h.resolved
  rw [InflightMessage.getMessageExpiryInterval_toPublishPacket]
  unfold InflightMessage.isExpired at hfresh
  unfold InflightMessage.remainingExpiryInterval
  rw [hexpiry] at hfresh ⊢
  exact endsBy_remaining hbound hfresh

theorem within_send (hcopies : ∀ copy ∈ s.copies, EndsBy bound copy.interval copy.time)
    (hends : EndsBy bound publish.properties.getMessageExpiryInterval now) (packetId : UInt16)
    (storing : Bool) : (s.send publish packetId storing now).Within bound := by
  constructor
  · dsimp only [State.send]
    split
    · trivial
    · refine ⟨hends, fun r hr => ?_⟩
      split at hr
      · rw [← some.inj hr]
        exact recordWithin_fromPublish hends s.clientId .outbound .awaitingPubrec
      · cases hr
  · intro copy hcopy
    rcases List.mem_append.mp hcopy with hcopy | hcopy
    · exact hcopies copy hcopy
    · rw [List.mem_singleton.mp hcopy]
      exact hends

end

/-! ## Conditions on a step -/

/-- Whether a record has expired. -/
def Form.isExpired (now : SystemTime) : Form → Bool
  | .taken message => message.isExpired now
  | .stored record => record.isExpired now
  | _ => false

/-- The time a packet has its interval from. -/
def Form.since : Form → Option SystemTime
  | .packet _ since _ | .inFlight _ since _ => some since
  | _ => none

/-- No record is turned into a packet once it has expired. -/
def Unexpired (s : State) : Action → Prop
  | .drain _ _ now | .reload _ now _ => s.form.isExpired now = false
  | _ => True

/-- Nor does a packet keep its interval while time passes. -/
def Prompt (s : State) (a : Action) : Prop :=
  Unexpired s a ∧
    match a with
    | .keep now | .enqueue now | .deliver _ _ now | .requeue now => s.form.since = some now
    | .reload _ now queuedAt => queuedAt = now
    | _ => True

section

variable {start : SystemTime} {s s' : State} {a : Action}

theorem act_eq_some (h : act s a = some s') :
    ∃ t, s.move a = some t ∧ s' = { t with clock := a.time } := by
  unfold act at h
  split at h
  · cases h
  · obtain ⟨t, hmove, hs'⟩ := map_eq_some_iff.mp h
    exact ⟨t, hmove, hs'.symm⟩

theorem within_move (h : s.Within (start + s.waited)) (hmet : Unexpired s a)
    (hmove : s.move a = some s') : s'.Within (start + s'.waited) := by
  obtain ⟨clientId, form, _, _, waited⟩ := s
  obtain ⟨hform, hcopies⟩ := h
  have hlater (since now : SystemTime) :
      start + (waited + (now - since)) = start + waited + (now - since) :=
    (Nat.add_assoc _ _ _).symm
  have hkept (n : Nat) := fun copy hcopy => (hcopies copy hcopy).mono (Nat.le_add_right _ n)
  cases a with
  | keep now =>
    cases form with
    | packet publish since record =>
      cases record with
      | some record => cases hmove
      | none =>
        cases hmove
        have hends := hform.1.later now
        rw [hlater since now]
        refine ⟨⟨hends, fun r hr => ?_⟩, hkept _⟩
        rw [← some.inj hr]
        exact recordWithin_fromPublish hends clientId .inbound .awaitingPubrel
    | _ => cases hmove
  | enqueue now =>
    cases form with
    | packet publish since record =>
      cases hmove
      rw [hlater since now]
      exact ⟨queuedWithin_new (hform.1.later now) clientId publish.qos none, hkept _⟩
    | _ => cases hmove
  | deliver packetId storing now =>
    cases form with
    | packet publish since record =>
      cases hmove
      show State.Within (start + (waited + (now - since))) _
      rw [hlater since now]
      refine within_send ?_ (hform.1.later now) packetId storing
      exact hkept _
    | _ => cases hmove
  | take now =>
    cases form with
    | queued message =>
      cases hmove
      refine ⟨?_, hcopies⟩
      dsimp only
      split
      · trivial
      · exact hform
    | _ => cases hmove
  | putBack now =>
    cases form with
    | taken message =>
      cases hmove
      exact ⟨hform, hcopies⟩
    | _ => cases hmove
  | drain packetId storing now =>
    cases form with
    | taken message =>
      cases hmove
      exact within_send hcopies (QueuedWithin.toPublishPacket hform hmet) packetId storing
    | _ => cases hmove
  | requeue now =>
    cases form with
    | inFlight publish since record =>
      cases hmove
      rw [hlater since now]
      exact ⟨queuedWithin_new (hform.1.later now) clientId publish.qos publish.packetId, hkept _⟩
    | _ => cases hmove
  | reopen now =>
    cases form with
    | queued message =>
      cases hmove
      exact ⟨QueuedWithin.recomputeExpiry hform, hcopies⟩
    | _ => cases hmove
  | lose restarted now =>
    have hlost (record : InflightMessage) (hrec : RecordWithin (start + waited) record) :
        RecordWithin (start + waited)
          (if restarted then { record with expiresAtCache := none } else record) := by
      split
      · exact hrec.forget
      · exact hrec
    cases form with
    | packet publish since record | inFlight publish since record =>
      cases record with
      | none =>
        cases hmove
        exact ⟨trivial, hcopies⟩
      | some record =>
        cases hmove
        exact ⟨hlost record (hform.2 record rfl), hcopies⟩
    | _ =>
      cases hmove
      exact ⟨trivial, hcopies⟩
  | reload _ now queuedAt =>
    cases form with
    | stored record =>
      have hends := RecordWithin.toPublishPacket hform hmet
      dsimp only [State.move] at hmove
      split at hmove
      · cases hmove
        exact ⟨trivial, hcopies⟩
      · split at hmove
        · cases hmove
          refine ⟨⟨hends, fun r hr => ?_⟩, hcopies⟩
          rw [← some.inj hr]
          exact hform
        · split at hmove
          · cases hmove
            exact ⟨trivial, hcopies⟩
          · cases hmove
            rw [hlater now queuedAt]
            exact ⟨queuedWithin_new (hends.later queuedAt) clientId record.qos
                (some record.packetId),
              fun copy hcopy => (hcopies copy hcopy).mono (Nat.le_add_right _ _)⟩
    | _ => cases hmove
  | finish now =>
    cases hmove
    exact ⟨trivial, hcopies⟩

/-- A prompt step does not wait. -/
theorem waited_move (hmet : Prompt s a) (hmove : s.move a = some s') : s'.waited = s.waited := by
  obtain ⟨_, _, _, _, waited⟩ := s
  have hprompt := hmet.2
  have hzero {since now : SystemTime} (h : some since = some now) :
      waited + (now - since) = waited := by
    rw [some.inj h, Nat.sub_self, Nat.add_zero]
  unfold State.move at hmove
  cases a with
  | keep now | enqueue now | deliver packetId storing now | requeue now =>
    dsimp only at hmove
    split at hmove
    · cases hmove
      exact hzero hprompt
    · cases hmove
  | lose _ now =>
    dsimp only at hmove
    split at hmove <;> cases hmove <;> rfl
  | take now | putBack now | drain packetId storing now | reopen now =>
    dsimp only at hmove
    split at hmove <;> cases hmove
    rfl
  | reload _ now _ =>
    dsimp only at hmove
    split at hmove
    · split at hmove
      · cases hmove
        rfl
      · split at hmove
        · cases hmove
          rfl
        · split at hmove <;> cases hmove
          · rfl
          · exact hzero (congrArg some hprompt.symm)
    · cases hmove
  | finish now =>
    cases hmove
    rfl

/-- As long as no record has expired when it becomes a packet, the deadline moves by no more
than the time the message has waited as one. -/
theorem expiry_extended_by_waiting {clientId : String} {publish : PublishPacket} {seconds : UInt32}
    {now : SystemTime} (hint : publish.properties.getMessageExpiryInterval = some seconds)
    (hrun : Reachable act Unexpired (received clientId publish now) s) :
    s.Within (deadline now seconds + s.waited) := by
  have hstart : (received clientId publish now).Within (deadline now seconds + 0) := by
    rw [Nat.add_zero]
    exact ⟨⟨⟨seconds, hint, le_refl _⟩, fun r hr => by cases hr⟩,
      fun _ hcopy => by cases hcopy⟩
  refine hrun.invariant (p := fun s => s.Within (deadline now seconds + s.waited)) hstart ?_
  intro s a _ hwithin hmet hact
  obtain ⟨t, hmove, rfl⟩ := act_eq_some hact
  have ht := within_move hwithin hmet hmove
  exact ⟨ht.form, ht.copies⟩

/-- If every packet is sent, stored or queued as soon as its interval has been computed, and
no record has expired when it becomes a packet, the message expires when its interval has
passed since it was received: this is its deadline wherever it is, no copy is sent later,
and every copy has an interval no longer than the time that remained. -/
theorem expiry_never_extended {clientId : String} {publish : PublishPacket} {seconds : UInt32}
    {now : SystemTime} (hinterval : publish.properties.getMessageExpiryInterval = some seconds)
    (hrun : Reachable act Prompt (received clientId publish now) s) :
    s.Within (deadline now seconds) := by
  have hwaited : s.waited = 0 := by
    refine hrun.invariant (p := fun s => s.waited = 0) rfl ?_
    intro s a _ hzero hmet hact
    obtain ⟨t, hmove, rfl⟩ := act_eq_some hact
    exact (waited_move hmet hmove).trans hzero
  have hwithin := expiry_extended_by_waiting hinterval (hrun.mono fun _ _ hmet => hmet.1)
  rw [hwaited, Nat.add_zero] at hwithin
  exact hwithin

end

/-! ## A message that expires after ten seconds -/

instance (s : State) (a : Action) : Decidable (Unexpired s a) := by
  unfold Unexpired
  split <;> infer_instance

instance (s : State) (a : Action) : Decidable (Prompt s a) := by
  unfold Prompt
  split <;> infer_instance

def hello : PublishPacket where
  topicName := "greetings"
  payload := [104, 105]
  qos := .atLeastOnce
  properties := Properties.setMessageExpiryInterval ∅ 10

/-- It is queued at once, sent after three seconds, re-queued at once, and sent after six. -/
theorem expiry_never_extended_hello :
    ∃ s, Reachable act Prompt (received "reader" hello 0) s ∧
      s.copies = [⟨3000000000, some 7⟩, ⟨6000000000, some 4⟩] ∧ s.Within (deadline 0 10) := by
  have hrun := Reachable.start.follow_guarded (show follow
    (fun s a => if Prompt s a then act s a else none) (received "reader" hello 0)
    [.enqueue 0, .take 3000000000, .drain 1 true 3000000000, .requeue 3000000000,
      .take 6000000000, .drain 1 true 6000000000] = some _ from rfl)
  exact ⟨_, hrun, by decide +kernel, expiry_never_extended (by decide +kernel) hrun⟩

/-- It is sent at once, its client is gone for a minute, and it is sent again with nine
seconds left; or it is taken from the queue in time, sent too late, and has no interval. -/
theorem hello_after_deadline :
    (∃ s, follow act (received "reader" hello 0) [.deliver 1 true 0, .requeue 60000000000,
        .take 61000000000, .drain 1 true 61000000000] = some s ∧
      s.copies = [⟨0, some 10⟩, ⟨61000000000, some 9⟩] ∧ ¬s.Within (deadline 0 10)) ∧
    ∃ s, follow act (received "reader" hello 0) [.enqueue 0, .take 9000000000,
        .drain 1 true 11000000000] = some s ∧
      s.copies = [⟨11000000000, none⟩] ∧ ¬s.Within (deadline 0 10) := by
  refine ⟨⟨_, rfl, by decide +kernel, fun hwithin => ?_⟩, _, rfl, by decide +kernel,
    fun hwithin => ?_⟩
  · obtain ⟨seconds, hseconds, hends⟩ := hwithin.copies ⟨61000000000, some 9⟩ (by decide +kernel)
    cases hseconds
    exact absurd hends (by decide +kernel)
  · obtain ⟨seconds, hseconds, -⟩ := hwithin.copies ⟨11000000000, none⟩ (by decide +kernel)
    cases hseconds

end MqttLib.Broker.Expiry
