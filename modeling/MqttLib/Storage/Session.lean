/-
MqttLib.Storage.Session

The stored session of a client (`broker/storage/mod.rs`).  Three fields of
`ClientSession` carry `#[serde(skip)]`: they live in memory only.  The fields
that are written are a structure of their own, `SessionRecord`, so that what a
serializer can see of a session is a matter of its type.
-/

import MqttLib.Foundation.LastWrite
import MqttLib.Protocol.Types

namespace MqttLib.Storage

open Foundation Protocol

/-- Nanoseconds since the Unix epoch. -/
abbrev SystemTime := Nat

structure ChangeOnlyState where
  lastPayloadHashes : Table String UInt64 := ∅
  deriving DecidableEq

structure StoredSubscription where
  qos : QoS
  noLocal : Bool := false
  retainAsPublished : Bool := false
  retainHandling : UInt8 := 0
  subscriptionId : Option UInt32 := none
  protocolVersion : UInt8 := 5
  changeOnly : Bool := false
  flowId : Option UInt64 := none
  deriving DecidableEq

/-- The fields of a session that are serialized. -/
structure SessionRecord where
  clientId : String
  persistent : Bool
  expiryInterval : Option UInt32
  subscriptions : Table String StoredSubscription := ∅
  willMessage : Option WillMessage := none
  willDelayInterval : Option UInt32 := none
  receiveMaximum : UInt16 := 65535
  changeOnlyState : ChangeOnlyState := {}
  userId : Option String := none
  connectionToken : UInt64 := 0
  disconnectedAt : Option UInt64 := none
  deriving DecidableEq

/-- A session in memory: its record and the fields serde skips. -/
structure ClientSession extends SessionRecord where
  createdAt : SystemTime
  lastSeen : SystemTime
  connected : Bool := false
  deriving DecidableEq

/-- Deserializing: the skipped fields take their defaults, the clock's time and
`false`. -/
def SessionRecord.restore (r : SessionRecord) (now : SystemTime) : ClientSession where
  toSessionRecord := r
  createdAt := now
  lastSeen := now
  connected := false

@[simp] theorem SessionRecord.toSessionRecord_restore (r : SessionRecord) (now : SystemTime) :
    (r.restore now).toSessionRecord = r := rfl

namespace ClientSession

def new (clientId : String) (persistent : Bool) (expiryInterval : Option UInt32)
    (now : SystemTime) : ClientSession where
  clientId := clientId
  persistent := persistent
  expiryInterval := expiryInterval
  createdAt := now
  lastSeen := now

/-- `is_expired`: a connected session never is; otherwise the interval runs from the
recorded disconnect, or from the last activity where there is none. -/
def isExpired (s : ClientSession) (now : SystemTime) : Bool :=
  if s.connected then false
  else match s.expiryInterval with
    | none => false
    | some secs =>
      let since := match s.disconnectedAt with
        | some millis => millis.toNat * 1000000
        | none => s.lastSeen
      decide (since + secs.toNat * 1000000000 < now)

def markConnected (s : ClientSession) (connectionToken : UInt64) (now : SystemTime) :
    ClientSession :=
  { s with connectionToken := connectionToken, connected := true, disconnectedAt := none,
           lastSeen := now }

def markDisconnected (s : ClientSession) (disconnectedAt : UInt64) (now : SystemTime) :
    ClientSession :=
  { s with connected := false, disconnectedAt := some disconnectedAt, lastSeen := now }

end ClientSession

end MqttLib.Storage
