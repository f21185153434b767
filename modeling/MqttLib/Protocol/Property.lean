/-
MqttLib.Protocol.Property

Properties of MQTT v5 packets (`protocol/v5/properties`): identifiers, typed values and the
map from identifiers to values.
-/

import MqttLib.Foundation.LastWrite
import MqttLib.Protocol.Types

namespace MqttLib.Protocol

open Foundation

inductive PropertyId where
  | payloadFormatIndicator
  | requestProblemInformation
  | requestResponseInformation
  | maximumQoS
  | retainAvailable
  | wildcardSubscriptionAvailable
  | subscriptionIdentifierAvailable
  | sharedSubscriptionAvailable
  | serverKeepAlive
  | receiveMaximum
  | topicAliasMaximum
  | topicAlias
  | messageExpiryInterval
  | sessionExpiryInterval
  | willDelayInterval
  | maximumPacketSize
  | subscriptionIdentifier
  | contentType
  | responseTopic
  | assignedClientIdentifier
  | authenticationMethod
  | responseInformation
  | serverReference
  | reasonString
  | correlationData
  | authenticationData
  | userProperty
  deriving DecidableEq, Repr

inductive PropertyValue where
  | byte (value : UInt8)
  | twoByteInteger (value : UInt16)
  | fourByteInteger (value : UInt32)
  | variableByteInteger (value : UInt32)
  | binaryData (value : Bytes)
  | utf8String (value : String)
  | utf8StringPair (key value : String)
  deriving DecidableEq, Repr

/-- The name a derived `Debug` prints for a constructor. -/
def debugName {α : Type*} [Repr α] (value : α) : String :=
  ((reprStr value).splitOn ".").getLastD "" |>.capitalize

/-- `Properties`: a hash map from identifiers to the values in the order they were added. -/
abbrev Properties := Table PropertyId (List PropertyValue)

namespace Properties

def get (properties : Properties) (id : PropertyId) : Option PropertyValue :=
  (properties.lookup id).bind List.head?

def getAuthenticationMethod (properties : Properties) : Option String :=
  match properties.get .authenticationMethod with
  | some (.utf8String method) => some method
  | _ => none

def getRequestProblemInformation (properties : Properties) : Option Bool :=
  match properties.get .requestProblemInformation with
  | some (.byte value) => some (value != 0)
  | _ => none

def getMaximumPacketSize (properties : Properties) : Option UInt32 :=
  match properties.get .maximumPacketSize with
  | some (.fourByteInteger size) => some size
  | _ => none

def getSessionExpiryInterval (properties : Properties) : Option UInt32 :=
  match properties.get .sessionExpiryInterval with
  | some (.fourByteInteger seconds) => some seconds
  | _ => none

def getReceiveMaximum (properties : Properties) : Option UInt16 :=
  match properties.get .receiveMaximum with
  | some (.twoByteInteger maximum) => some maximum
  | _ => none

def getAuthenticationData (properties : Properties) : Option Bytes :=
  match properties.get .authenticationData with
  | some (.binaryData data) => some data
  | _ => none

/-- All values of a property. -/
def getAll (properties : Properties) (id : PropertyId) : List PropertyValue :=
  (properties.lookup id).getD []

/-- What every setter does: the value comes after those that are there. -/
def push (properties : Properties) (id : PropertyId) (value : PropertyValue) : Properties :=
  properties.insert id (properties.getAll id ++ [value])

def setPayloadFormatIndicator (properties : Properties) (isUtf8 : Bool) : Properties :=
  properties.push .payloadFormatIndicator (.byte (if isUtf8 then 1 else 0))

def setMessageExpiryInterval (properties : Properties) (seconds : UInt32) : Properties :=
  properties.push .messageExpiryInterval (.fourByteInteger seconds)

def getMessageExpiryInterval (properties : Properties) : Option UInt32 :=
  match properties.get .messageExpiryInterval with
  | some (.fourByteInteger seconds) => some seconds
  | _ => none

def setResponseTopic (properties : Properties) (topic : String) : Properties :=
  properties.push .responseTopic (.utf8String topic)

def setCorrelationData (properties : Properties) (data : Bytes) : Properties :=
  properties.push .correlationData (.binaryData data)

def addUserProperty (properties : Properties) (key value : String) : Properties :=
  properties.push .userProperty (.utf8StringPair key value)

/-- Removes the user properties with a key. -/
def removeUserPropertyByKey (properties : Properties) (key : String) : Properties :=
  let kept := (properties.getAll .userProperty).filter fun
    | .utf8StringPair k _ => k != key
    | _ => true
  if kept.isEmpty then properties.erase .userProperty else properties.insert .userProperty kept

def injectSender (properties : Properties) (userId : Option String) : Properties :=
  let properties := properties.removeUserPropertyByKey "x-mqtt-sender"
  match userId with
  | some userId => properties.addUserProperty "x-mqtt-sender" userId
  | none => properties

def injectClientId (properties : Properties) (clientId : Option String) : Properties :=
  let properties := properties.removeUserPropertyByKey "x-mqtt-client-id"
  match clientId with
  | some clientId => properties.addUserProperty "x-mqtt-client-id" clientId
  | none => properties

def userProperties (properties : Properties) : List (String × String) :=
  (properties.getAll .userProperty).filterMap fun
    | .utf8StringPair key value => some (key, value)
    | _ => none

/-- The value of the first user property with a key. -/
def getUserPropertyValue (properties : Properties) (key : String) : Option String :=
  (properties.getAll .userProperty).findSome? fun
    | .utf8StringPair k value => if k = key then some value else none
    | _ => none

def setSubscriptionIdentifier (properties : Properties) (id : UInt32) : Properties :=
  properties.push .subscriptionIdentifier (.variableByteInteger id)

def getSubscriptionIdentifier (properties : Properties) : Option UInt32 :=
  match properties.get .subscriptionIdentifier with
  | some (.variableByteInteger id) => some id
  | _ => none

def subscriptionIdentifiers (properties : Properties) : List UInt32 :=
  (properties.getAll .subscriptionIdentifier).filterMap fun
    | .variableByteInteger id => some id
    | _ => none

def setContentType (properties : Properties) (contentType : String) : Properties :=
  properties.push .contentType (.utf8String contentType)

def setReasonString (properties : Properties) (reason : String) : Properties :=
  properties.push .reasonString (.utf8String reason)

def getContentType (properties : Properties) : Option String :=
  match properties.get .contentType with
  | some (.utf8String contentType) => some contentType
  | _ => none

theorem getAll_push_self (properties : Properties) (id : PropertyId) (value : PropertyValue) :
    (properties.push id value).getAll id = properties.getAll id ++ [value] := by
  unfold getAll push
  rw [Finmap.lookup_insert]
  rfl

theorem getAll_push_of_ne (properties : Properties) {id id' : PropertyId} (hne : id' ≠ id)
    (value : PropertyValue) : (properties.push id value).getAll id' = properties.getAll id' := by
  unfold getAll push
  rw [Finmap.lookup_insert_of_ne _ hne]

theorem get_eq_head? (properties : Properties) (id : PropertyId) :
    properties.get id = (properties.getAll id).head? := by
  unfold get getAll
  cases properties.lookup id <;> rfl

theorem getMessageExpiryInterval_push_of_ne (properties : Properties) {id : PropertyId}
    (hne : .messageExpiryInterval ≠ id) (value : PropertyValue) :
    (properties.push id value).getMessageExpiryInterval = properties.getMessageExpiryInterval := by
  unfold getMessageExpiryInterval
  rw [get_eq_head?, get_eq_head?, getAll_push_of_ne properties hne]

end Properties

end MqttLib.Protocol
