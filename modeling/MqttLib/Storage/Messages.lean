/-
MqttLib.Storage.Messages

The message records of the storage layer (`broker/storage/mod.rs`): a retained message, a
message queued for a client, and a message in flight with its QoS 1 or 2 handshake; and
what they take from a PUBLISH packet and give back to one.  The clock is an argument.
-/

import MqttLib.Protocol.Packet
import MqttLib.Storage.Session

namespace MqttLib.Storage

open Foundation Protocol Properties

/-! ## Time -/

/-- The time in whole seconds since the Unix epoch. -/
def unixSecs (t : SystemTime) : UInt64 := UInt64.ofNat (t / 1000000000)

def fromUnixSecs (secs : UInt64) : SystemTime := secs.toNat * 1000000000

/-- A Message Expiry Interval counted from a time. -/
def deadline (t : SystemTime) (interval : UInt32) : SystemTime := t + interval.toNat * 1000000000

/-- The seconds from now to a deadline that has not passed; what exceeds a `u32` is cut off. -/
def remainingInterval (expiry now : SystemTime) : Option UInt32 :=
  if expiry < now then none
  else some (UInt32.ofNat (min ((expiry - now) / 1000000000) 4294967295))

def expired (expiry : Option SystemTime) (now : SystemTime) : Bool :=
  expiry.any fun expiry => expiry < now

theorem fromUnixSecs_unixSecs_le (t : SystemTime) : fromUnixSecs (unixSecs t) ≤ t := by
  unfold fromUnixSecs unixSecs
  rw [UInt64.toNat_ofNat']
  exact le_trans (Nat.mul_le_mul_right _ (Nat.mod_le _ _)) (Nat.div_mul_le_self _ _)

/-- Counting in whole seconds does not make a deadline later. -/
theorem fromUnixSecs_add_le (t : SystemTime) (interval : UInt32) :
    fromUnixSecs (unixSecs t + interval.toUInt64) ≤ deadline t interval := by
  have hsum : (unixSecs t + interval.toUInt64).toNat ≤ (unixSecs t).toNat + interval.toNat := by
    rw [UInt64.toNat_add, UInt32.toNat_toUInt64]
    exact Nat.mod_le _ _
  calc fromUnixSecs (unixSecs t + interval.toUInt64)
      ≤ ((unixSecs t).toNat + interval.toNat) * 1000000000 := Nat.mul_le_mul_right _ hsum
    _ = fromUnixSecs (unixSecs t) + interval.toNat * 1000000000 := Nat.add_mul _ _ _
    _ ≤ deadline t interval := Nat.add_le_add_right (fromUnixSecs_unixSecs_le t) _

theorem deadline_le_deadline {t t' : SystemTime} (hle : t ≤ t') (interval : UInt32) :
    deadline t interval ≤ deadline t' interval :=
  Nat.add_le_add_right hle _

/-- Before a deadline there is an interval that remains, and it ends by then. -/
theorem exists_remainingInterval {expiry now : SystemTime} (hle : now ≤ expiry) :
    ∃ interval, remainingInterval expiry now = some interval ∧ deadline now interval ≤ expiry := by
  refine ⟨_, if_neg (Nat.not_lt.mpr hle), ?_⟩
  unfold deadline
  rw [UInt32.toNat_ofNat']
  have hseconds : min ((expiry - now) / 1000000000) 4294967295 % 2 ^ 32 ≤
      (expiry - now) / 1000000000 :=
    le_trans (Nat.mod_le _ _) (Nat.min_le_left _ _)
  calc now + min ((expiry - now) / 1000000000) 4294967295 % 2 ^ 32 * 1000000000
      ≤ now + (expiry - now) / 1000000000 * 1000000000 :=
        Nat.add_le_add_left (Nat.mul_le_mul_right _ hseconds) _
    _ ≤ now + (expiry - now) := Nat.add_le_add_left (Nat.div_mul_le_self _ _) _
    _ = expiry := Nat.add_sub_cancel' hle

/-! ## Properties that are kept -/

structure V5PublishProps where
  userProperties : List (String × String) := []
  contentType : Option String := none
  responseTopic : Option String := none
  correlationData : Option Bytes := none
  payloadFormatIndicator : Option Bool := none
  deriving DecidableEq

def V5PublishProps.fromPacket (packet : PublishPacket) : V5PublishProps where
  userProperties := packet.properties.userProperties
  contentType := packet.properties.getContentType
  responseTopic :=
    match packet.properties.get .responseTopic with
    | some (.utf8String topic) => some topic
    | _ => none
  correlationData :=
    match packet.properties.get .correlationData with
    | some (.binaryData data) => some data
    | _ => none
  payloadFormatIndicator :=
    match packet.properties.get .payloadFormatIndicator with
    | some (.byte value) => some (value != 0)
    | _ => none

/-- Sets what is there. -/
def setIfSome {α : Type*} (set : Properties → α → Properties) (value : Option α)
    (properties : Properties) : Properties :=
  match value with
  | some value => set properties value
  | none => properties

/-- `apply_v5_props`. -/
def V5PublishProps.apply (props : V5PublishProps) (properties : Properties) : Properties :=
  props.userProperties.foldl (fun properties (key, value) => properties.addUserProperty key value)
    properties
    |> setIfSome setContentType props.contentType
    |> setIfSome setResponseTopic props.responseTopic
    |> setIfSome setCorrelationData props.correlationData
    |> setIfSome setPayloadFormatIndicator props.payloadFormatIndicator

theorem setIfSome_keeps {α β : Type*} {read : Properties → β} {set : Properties → α → Properties}
    (hset : ∀ properties value, read (set properties value) = read properties)
    (value : Option α) (properties : Properties) :
    read (setIfSome set value properties) = read properties := by
  cases value with
  | none => rfl
  | some value => exact hset properties value

theorem foldl_keeps {α β : Type*} {read : Properties → β} {set : Properties → α → Properties}
    (hset : ∀ properties value, read (set properties value) = read properties)
    (values : List α) (properties : Properties) :
    read (values.foldl set properties) = read properties := by
  induction values generalizing properties with
  | nil => rfl
  | cons value values ih =>
    rw [List.foldl_cons, ih, hset]

/-- The kept properties do not include the expiry interval. -/
theorem V5PublishProps.getMessageExpiryInterval_apply (props : V5PublishProps)
    (properties : Properties) :
    (props.apply properties).getMessageExpiryInterval = properties.getMessageExpiryInterval := by
  have hpush (id : PropertyId) (hne : .messageExpiryInterval ≠ id) (value : PropertyValue)
      (properties : Properties) :
      (properties.push id value).getMessageExpiryInterval =
        properties.getMessageExpiryInterval :=
    properties.getMessageExpiryInterval_push_of_ne hne value
  unfold V5PublishProps.apply
  refine (setIfSome_keeps (fun _ _ => hpush .payloadFormatIndicator (by decide) _ _) _ _).trans ?_
  refine (setIfSome_keeps (fun _ _ => hpush .correlationData (by decide) _ _) _ _).trans ?_
  refine (setIfSome_keeps (fun _ _ => hpush .responseTopic (by decide) _ _) _ _).trans ?_
  refine (setIfSome_keeps (fun _ _ => hpush .contentType (by decide) _ _) _ _).trans ?_
  exact foldl_keeps (fun _ _ => hpush .userProperty (by decide) _ _) _ _

theorem getMessageExpiryInterval_setIfSome (interval : Option UInt32) :
    (setIfSome setMessageExpiryInterval interval ∅).getMessageExpiryInterval =
      interval := by
  cases interval <;> rfl

/-! ## Retained messages -/

structure RetainedMessage where
  topic : String
  payload : Bytes
  qos : QoS
  retain : Bool
  storedAtSecs : UInt64
  messageExpiryInterval : Option UInt32 := none
  expiresAt : Option SystemTime := none
  userProperties : List (String × String) := []
  contentType : Option String := none
  responseTopic : Option String := none
  correlationData : Option Bytes := none
  payloadFormatIndicator : Option Bool := none
  deriving DecidableEq

namespace RetainedMessage

def new (packet : PublishPacket) (now : SystemTime) : RetainedMessage :=
  let interval := packet.properties.getMessageExpiryInterval
  let v5 := V5PublishProps.fromPacket packet
  { topic := packet.topicName
    payload := packet.payload
    qos := packet.qos
    retain := packet.retain
    storedAtSecs := unixSecs now
    messageExpiryInterval := interval
    expiresAt := interval.map (deadline now)
    userProperties := v5.userProperties
    contentType := v5.contentType
    responseTopic := v5.responseTopic
    correlationData := v5.correlationData
    payloadFormatIndicator := v5.payloadFormatIndicator }

/-- To be called after deserialization, which leaves `expiresAt` empty. -/
def recomputeExpiry (m : RetainedMessage) : RetainedMessage :=
  match m.messageExpiryInterval with
  | some interval => { m with expiresAt := some (deadline (fromUnixSecs m.storedAtSecs) interval) }
  | none => m

def v5 (m : RetainedMessage) : V5PublishProps :=
  ⟨m.userProperties, m.contentType, m.responseTopic, m.correlationData, m.payloadFormatIndicator⟩

def remainingExpiryInterval (m : RetainedMessage) (now : SystemTime) : Option UInt32 :=
  m.expiresAt.bind (remainingInterval · now)

def toPublishPacket (m : RetainedMessage) (now : SystemTime) : PublishPacket where
  topicName := m.topic
  payload := m.payload
  qos := m.qos
  retain := m.retain
  properties :=
    setIfSome setMessageExpiryInterval (m.remainingExpiryInterval now) ∅ |> m.v5.apply

def isExpired (m : RetainedMessage) (now : SystemTime) : Bool := expired m.expiresAt now

end RetainedMessage

/-! ## Queued messages -/

/-- A message queued for one client. -/
structure QueuedMessage where
  topic : String
  payload : Bytes
  clientId : String
  qos : QoS
  queuedAtSecs : UInt64 := 0
  messageExpiryInterval : Option UInt32 := none
  expiresAt : Option SystemTime := none
  packetId : Option UInt16 := none
  dup : Bool := false
  retain : Bool := false
  targetFlow : Option UInt64 := none
  subscriptionIdentifiers : List UInt32 := []
  userProperties : List (String × String) := []
  contentType : Option String := none
  responseTopic : Option String := none
  correlationData : Option Bytes := none
  payloadFormatIndicator : Option Bool := none
  deriving DecidableEq

namespace QueuedMessage

def new (packet : PublishPacket) (clientId : String) (qos : QoS) (packetId : Option UInt16)
    (now : SystemTime) : QueuedMessage :=
  let interval := packet.properties.getMessageExpiryInterval
  let props := V5PublishProps.fromPacket packet
  { topic := packet.topicName
    payload := packet.payload
    clientId
    qos
    queuedAtSecs := unixSecs now
    messageExpiryInterval := interval
    expiresAt := interval.map (deadline now)
    packetId
    dup := packet.dup
    retain := packet.retain
    targetFlow := none
    subscriptionIdentifiers := packet.properties.subscriptionIdentifiers
    userProperties := props.userProperties
    contentType := props.contentType
    responseTopic := props.responseTopic
    correlationData := props.correlationData
    payloadFormatIndicator := props.payloadFormatIndicator }

def recomputeExpiry (m : QueuedMessage) : QueuedMessage :=
  match m.messageExpiryInterval with
  | some interval => { m with expiresAt := some (deadline (fromUnixSecs m.queuedAtSecs) interval) }
  | none => m

def v5 (m : QueuedMessage) : V5PublishProps :=
  ⟨m.userProperties, m.contentType, m.responseTopic, m.correlationData, m.payloadFormatIndicator⟩

def remainingExpiryInterval (m : QueuedMessage) (now : SystemTime) : Option UInt32 :=
  m.expiresAt.bind (remainingInterval · now)

def toPublishPacket (m : QueuedMessage) (now : SystemTime) : PublishPacket where
  topicName := m.topic
  packetId := m.packetId
  payload := m.payload
  qos := m.qos
  retain := m.retain
  dup := m.dup
  properties :=
    m.v5.apply (m.subscriptionIdentifiers.foldl setSubscriptionIdentifier
      (setIfSome setMessageExpiryInterval (m.remainingExpiryInterval now) ∅))

def isExpired (m : QueuedMessage) (now : SystemTime) : Bool := expired m.expiresAt now

/-- The packet carries the interval that remains. -/
theorem getMessageExpiryInterval_toPublishPacket (m : QueuedMessage) (now : SystemTime) :
    (m.toPublishPacket now).properties.getMessageExpiryInterval =
      m.remainingExpiryInterval now := by
  show (m.v5.apply (m.subscriptionIdentifiers.foldl setSubscriptionIdentifier
    (setIfSome setMessageExpiryInterval (m.remainingExpiryInterval now)
      ∅))).getMessageExpiryInterval = _
  rw [V5PublishProps.getMessageExpiryInterval_apply]
  refine (foldl_keeps (fun properties id => ?_) _ _).trans (getMessageExpiryInterval_setIfSome _)
  exact properties.getMessageExpiryInterval_push_of_ne (by decide) _

end QueuedMessage

/-! ## Messages in flight -/

inductive InflightDirection where
  | inbound
  | outbound
  deriving DecidableEq

inductive InflightPhase where
  | awaitingPubrec
  | awaitingPubrel
  | awaitingPubcomp
  deriving DecidableEq

/-- A message in flight to or from one client. -/
structure InflightMessage where
  clientId : String
  packetId : UInt16
  direction : InflightDirection
  phase : InflightPhase
  topic : String
  payload : Bytes
  qos : QoS
  retain : Bool := false
  storedAtSecs : UInt64 := 0
  messageExpiryInterval : Option UInt32 := none
  expiresAtSecs : Option UInt64 := none
  expiresAtCache : Option SystemTime := none
  userProperties : List (String × String) := []
  contentType : Option String := none
  responseTopic : Option String := none
  correlationData : Option Bytes := none
  payloadFormatIndicator : Option Bool := none
  deriving DecidableEq

namespace InflightMessage

def fromPublish (packet : PublishPacket) (clientId : String) (direction : InflightDirection)
    (phase : InflightPhase) (now : SystemTime) : InflightMessage :=
  let interval := packet.properties.getMessageExpiryInterval
  let v5 := V5PublishProps.fromPacket packet
  { clientId
    packetId := packet.packetId.getD 0
    direction
    phase
    topic := packet.topicName
    payload := packet.payload
    qos := packet.qos
    retain := packet.retain
    storedAtSecs := unixSecs now
    messageExpiryInterval := interval
    expiresAtSecs := interval.map fun interval => unixSecs now + interval.toUInt64
    expiresAtCache := interval.map (deadline now)
    userProperties := v5.userProperties
    contentType := v5.contentType
    responseTopic := v5.responseTopic
    correlationData := v5.correlationData
    payloadFormatIndicator := v5.payloadFormatIndicator }

def v5 (m : InflightMessage) : V5PublishProps :=
  ⟨m.userProperties, m.contentType, m.responseTopic, m.correlationData, m.payloadFormatIndicator⟩

/-- The deadline in memory, or the stored one in seconds. -/
def resolvedExpiresAt (m : InflightMessage) : Option SystemTime :=
  m.expiresAtCache.or (m.expiresAtSecs.map fromUnixSecs)

def remainingExpiryInterval (m : InflightMessage) (now : SystemTime) : Option UInt32 :=
  m.resolvedExpiresAt.bind (remainingInterval · now)

def toPublishPacket (m : InflightMessage) (now : SystemTime) : PublishPacket where
  topicName := m.topic
  packetId := some m.packetId
  payload := m.payload
  qos := m.qos
  retain := m.retain
  properties :=
    setIfSome setMessageExpiryInterval (m.remainingExpiryInterval now) ∅ |> m.v5.apply

def isExpired (m : InflightMessage) (now : SystemTime) : Bool := expired m.resolvedExpiresAt now

theorem getMessageExpiryInterval_toPublishPacket (m : InflightMessage) (now : SystemTime) :
    (m.toPublishPacket now).properties.getMessageExpiryInterval =
      m.remainingExpiryInterval now := by
  show (m.v5.apply (setIfSome setMessageExpiryInterval (m.remainingExpiryInterval now)
    ∅)).getMessageExpiryInterval = _
  rw [V5PublishProps.getMessageExpiryInterval_apply, getMessageExpiryInterval_setIfSome]

end InflightMessage

end MqttLib.Storage
