/-
MqttLib.Protocol.Types

The value types shared by the packet codec and the broker: errors, reason codes, quality
of service and the Will Message with its properties.
-/

import MqttLib.Foundation.ReplacedFile

namespace MqttLib.Protocol

open Foundation

/-- Errors (`error.rs`), those the modelled functions return; an operating-system text inside
a message is left out. -/
inductive MqttError where
  | io (message : String)
  | invalidTopicName (topic : String)
  | invalidTopicFilter (filter : String)
  | invalidClientId (clientId : String)
  | protocolError (message : String)
  | malformedPacket (message : String)
  | packetTooLarge (size max : Nat)
  | authenticationFailed
  | invalidQoS (value : UInt8)
  | invalidPacketType (value : UInt8)
  | invalidReasonCode (value : UInt8)
  | invalidPropertyId (value : UInt8)
  | duplicatePropertyId (value : UInt8)
  | unsupportedProtocolVersion
  | serverUnavailable
  | useAnotherServer
  deriving DecidableEq, Repr

/-- Reason codes (`protocol/v5/reason_codes.rs`). -/
inductive ReasonCode where
  | success
  | grantedQoS1
  | grantedQoS2
  | disconnectWithWillMessage
  | noMatchingSubscribers
  | noSubscriptionExisted
  | continueAuthentication
  | reAuthenticate
  | unspecifiedError
  | malformedPacket
  | protocolError
  | implementationSpecificError
  | unsupportedProtocolVersion
  | clientIdentifierNotValid
  | badUsernameOrPassword
  | notAuthorized
  | serverUnavailable
  | serverBusy
  | banned
  | serverShuttingDown
  | badAuthenticationMethod
  | keepAliveTimeout
  | sessionTakenOver
  | topicFilterInvalid
  | topicNameInvalid
  | packetIdentifierInUse
  | packetIdentifierNotFound
  | receiveMaximumExceeded
  | topicAliasInvalid
  | packetTooLarge
  | messageRateTooHigh
  | quotaExceeded
  | administrativeAction
  | payloadFormatInvalid
  | retainNotSupported
  | qoSNotSupported
  | useAnotherServer
  | serverMoved
  | sharedSubscriptionsNotSupported
  | connectionRateExceeded
  | maximumConnectTime
  | subscriptionIdentifiersNotSupported
  | wildcardSubscriptionsNotSupported
  | mqoqNoFlowState
  | mqoqNotFlowOwner
  | mqoqStreamTypeError
  | mqoqBadFlowId
  | mqoqPersistentTopic
  | mqoqPersistentSubError
  | mqoqOptionalHeader
  | mqoqIncompletePacket
  | mqoqFlowOpenIdle
  | mqoqFlowCancelled
  | mqoqFlowPacketCancelled
  | mqoqFlowRefused
  | mqoqDiscardState
  | mqoqServerPushNotWelcome
  | mqoqRecoveryFailed
  deriving DecidableEq, Repr

namespace ReasonCode

def toU8 : ReasonCode → UInt8
  | .success => 0x00
  | .grantedQoS1 => 0x01
  | .grantedQoS2 => 0x02
  | .disconnectWithWillMessage => 0x04
  | .noMatchingSubscribers => 0x10
  | .noSubscriptionExisted => 0x11
  | .continueAuthentication => 0x18
  | .reAuthenticate => 0x19
  | .unspecifiedError => 0x80
  | .malformedPacket => 0x81
  | .protocolError => 0x82
  | .implementationSpecificError => 0x83
  | .unsupportedProtocolVersion => 0x84
  | .clientIdentifierNotValid => 0x85
  | .badUsernameOrPassword => 0x86
  | .notAuthorized => 0x87
  | .serverUnavailable => 0x88
  | .serverBusy => 0x89
  | .banned => 0x8A
  | .serverShuttingDown => 0x8B
  | .badAuthenticationMethod => 0x8C
  | .keepAliveTimeout => 0x8D
  | .sessionTakenOver => 0x8E
  | .topicFilterInvalid => 0x8F
  | .topicNameInvalid => 0x90
  | .packetIdentifierInUse => 0x91
  | .packetIdentifierNotFound => 0x92
  | .receiveMaximumExceeded => 0x93
  | .topicAliasInvalid => 0x94
  | .packetTooLarge => 0x95
  | .messageRateTooHigh => 0x96
  | .quotaExceeded => 0x97
  | .administrativeAction => 0x98
  | .payloadFormatInvalid => 0x99
  | .retainNotSupported => 0x9A
  | .qoSNotSupported => 0x9B
  | .useAnotherServer => 0x9C
  | .serverMoved => 0x9D
  | .sharedSubscriptionsNotSupported => 0x9E
  | .connectionRateExceeded => 0x9F
  | .maximumConnectTime => 0xA0
  | .subscriptionIdentifiersNotSupported => 0xA1
  | .wildcardSubscriptionsNotSupported => 0xA2
  | .mqoqNoFlowState => 0xB3
  | .mqoqNotFlowOwner => 0xB4
  | .mqoqStreamTypeError => 0xB5
  | .mqoqBadFlowId => 0xB6
  | .mqoqPersistentTopic => 0xB7
  | .mqoqPersistentSubError => 0xB8
  | .mqoqOptionalHeader => 0xB9
  | .mqoqIncompletePacket => 0xBA
  | .mqoqFlowOpenIdle => 0xBB
  | .mqoqFlowCancelled => 0xBC
  | .mqoqFlowPacketCancelled => 0xBD
  | .mqoqFlowRefused => 0xBE
  | .mqoqDiscardState => 0xBF
  | .mqoqServerPushNotWelcome => 0xC0
  | .mqoqRecoveryFailed => 0xC1

def fromU8 (value : UInt8) : Option ReasonCode :=
  match value.toNat with
  | 0x00 => some .success
  | 0x01 => some .grantedQoS1
  | 0x02 => some .grantedQoS2
  | 0x04 => some .disconnectWithWillMessage
  | 0x10 => some .noMatchingSubscribers
  | 0x11 => some .noSubscriptionExisted
  | 0x18 => some .continueAuthentication
  | 0x19 => some .reAuthenticate
  | 0x80 => some .unspecifiedError
  | 0x81 => some .malformedPacket
  | 0x82 => some .protocolError
  | 0x83 => some .implementationSpecificError
  | 0x84 => some .unsupportedProtocolVersion
  | 0x85 => some .clientIdentifierNotValid
  | 0x86 => some .badUsernameOrPassword
  | 0x87 => some .notAuthorized
  | 0x88 => some .serverUnavailable
  | 0x89 => some .serverBusy
  | 0x8A => some .banned
  | 0x8B => some .serverShuttingDown
  | 0x8C => some .badAuthenticationMethod
  | 0x8D => some .keepAliveTimeout
  | 0x8E => some .sessionTakenOver
  | 0x8F => some .topicFilterInvalid
  | 0x90 => some .topicNameInvalid
  | 0x91 => some .packetIdentifierInUse
  | 0x92 => some .packetIdentifierNotFound
  | 0x93 => some .receiveMaximumExceeded
  | 0x94 => some .topicAliasInvalid
  | 0x95 => some .packetTooLarge
  | 0x96 => some .messageRateTooHigh
  | 0x97 => some .quotaExceeded
  | 0x98 => some .administrativeAction
  | 0x99 => some .payloadFormatInvalid
  | 0x9A => some .retainNotSupported
  | 0x9B => some .qoSNotSupported
  | 0x9C => some .useAnotherServer
  | 0x9D => some .serverMoved
  | 0x9E => some .sharedSubscriptionsNotSupported
  | 0x9F => some .connectionRateExceeded
  | 0xA0 => some .maximumConnectTime
  | 0xA1 => some .subscriptionIdentifiersNotSupported
  | 0xA2 => some .wildcardSubscriptionsNotSupported
  | 0xB3 => some .mqoqNoFlowState
  | 0xB4 => some .mqoqNotFlowOwner
  | 0xB5 => some .mqoqStreamTypeError
  | 0xB6 => some .mqoqBadFlowId
  | 0xB7 => some .mqoqPersistentTopic
  | 0xB8 => some .mqoqPersistentSubError
  | 0xB9 => some .mqoqOptionalHeader
  | 0xBA => some .mqoqIncompletePacket
  | 0xBB => some .mqoqFlowOpenIdle
  | 0xBC => some .mqoqFlowCancelled
  | 0xBD => some .mqoqFlowPacketCancelled
  | 0xBE => some .mqoqFlowRefused
  | 0xBF => some .mqoqDiscardState
  | 0xC0 => some .mqoqServerPushNotWelcome
  | 0xC1 => some .mqoqRecoveryFailed
  | _ => none

def isError (code : ReasonCode) : Bool := code.toU8 ≥ 0x80

end ReasonCode

inductive ProtocolVersion where
  | v311
  | v5
  deriving DecidableEq, Repr

def ProtocolVersion.asU8 : ProtocolVersion → UInt8
  | .v311 => 4
  | .v5 => 5

/-- `ProtocolVersion::try_from`. -/
def ProtocolVersion.tryFrom (value : UInt8) : Option ProtocolVersion :=
  if value = 4 then some .v311 else if value = 5 then some .v5 else none

/-- Quality of service. -/
inductive QoS where
  | atMostOnce
  | atLeastOnce
  | exactlyOnce
  deriving DecidableEq, Repr

namespace QoS

def toNat : QoS → Nat
  | .atMostOnce => 0
  | .atLeastOnce => 1
  | .exactlyOnce => 2

def toU8 : QoS → UInt8
  | .atMostOnce => 0
  | .atLeastOnce => 1
  | .exactlyOnce => 2

/-- `QoS::from`. -/
def fromU8 (value : UInt8) : QoS :=
  if value = 1 then .atLeastOnce else if value = 2 then .exactlyOnce else .atMostOnce

end QoS

/-- The answer to one filter of a SUBSCRIBE packet. -/
inductive SubAckReasonCode where
  | grantedQoS0
  | grantedQoS1
  | grantedQoS2
  | unspecifiedError
  | implementationSpecificError
  | notAuthorized
  | topicFilterInvalid
  | packetIdentifierInUse
  | quotaExceeded
  | sharedSubscriptionsNotSupported
  | subscriptionIdentifiersNotSupported
  | wildcardSubscriptionsNotSupported
  deriving DecidableEq, Repr

def SubAckReasonCode.fromQos : QoS → SubAckReasonCode
  | .atMostOnce => .grantedQoS0
  | .atLeastOnce => .grantedQoS1
  | .exactlyOnce => .grantedQoS2

/-- The answer to one filter of an UNSUBSCRIBE packet. -/
inductive UnsubAckReasonCode where
  | success
  | noSubscriptionExisted
  | unspecifiedError
  | implementationSpecificError
  | notAuthorized
  | topicFilterInvalid
  | packetIdentifierInUse
  deriving DecidableEq, Repr

structure WillProperties where
  willDelayInterval : Option UInt32 := none
  payloadFormatIndicator : Option Bool := none
  messageExpiryInterval : Option UInt32 := none
  contentType : Option String := none
  responseTopic : Option String := none
  correlationData : Option Bytes := none
  userProperties : List (String × String) := []
  deriving DecidableEq

structure WillMessage where
  topic : String
  payload : Bytes
  qos : QoS
  retain : Bool
  properties : WillProperties
  deriving DecidableEq

end MqttLib.Protocol
