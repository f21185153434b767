/-
MqttLib.Protocol.Packet

The packets the broker and the codec share (`packet/*.rs`).
-/

import MqttLib.Protocol.Property

namespace MqttLib.Protocol

open Foundation

structure ConnectPacket where
  protocolVersion : UInt8
  cleanStart : Bool
  keepAlive : UInt16
  clientId : String
  username : Option String := none
  password : Option Bytes := none
  will : Option WillMessage := none
  properties : Properties := ∅
  willProperties : Properties := ∅
  deriving DecidableEq

structure ConnAckPacket where
  sessionPresent : Bool
  reasonCode : ReasonCode
  properties : Properties := ∅
  protocolVersion : UInt8
  deriving DecidableEq

structure PublishPacket where
  topicName : String
  packetId : Option UInt16 := none
  payload : Bytes
  qos : QoS
  retain : Bool := false
  dup : Bool := false
  properties : Properties := ∅
  protocolVersion : UInt8 := 5
  streamId : Option UInt64 := none
  deriving DecidableEq

inductive RetainHandling where
  | sendAtSubscribe
  | sendAtSubscribeIfNew
  | doNotSend
  deriving DecidableEq, Repr

def RetainHandling.toU8 : RetainHandling → UInt8
  | .sendAtSubscribe => 0
  | .sendAtSubscribeIfNew => 1
  | .doNotSend => 2

structure SubscriptionOptions where
  qos : QoS
  noLocal : Bool := false
  retainAsPublished : Bool := false
  retainHandling : RetainHandling := .sendAtSubscribe
  deriving DecidableEq

structure TopicFilter where
  filter : String
  options : SubscriptionOptions
  deriving DecidableEq

structure SubscribePacket where
  packetId : UInt16
  filters : List TopicFilter
  properties : Properties := ∅
  protocolVersion : UInt8 := 5
  deriving DecidableEq

structure UnsubscribePacket where
  packetId : UInt16
  filters : List String
  properties : Properties := ∅
  protocolVersion : UInt8 := 5
  deriving DecidableEq

structure DisconnectPacket where
  reasonCode : ReasonCode
  properties : Properties := ∅
  deriving DecidableEq

structure AuthPacket where
  reasonCode : ReasonCode
  properties : Properties := ∅
  deriving DecidableEq

namespace AuthPacket

def authenticationMethod (packet : AuthPacket) : Option String :=
  match packet.properties.get .authenticationMethod with
  | some (.utf8String method) => some method
  | _ => none

/-- An AUTH packet of the server; the two properties are added to an empty table. -/
def withMethod (reasonCode : ReasonCode) (authMethod : String) (authData : Option Bytes) :
    AuthPacket :=
  let properties := Properties.push ∅ .authenticationMethod (.utf8String authMethod)
  match authData with
  | some data =>
    { reasonCode, properties := properties.push .authenticationData (.binaryData data) }
  | none => { reasonCode, properties }

def continueAuthentication : String → Option Bytes → AuthPacket :=
  withMethod .continueAuthentication

end AuthPacket

end MqttLib.Protocol
