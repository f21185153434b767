/-
MqttLib.Broker.Authentication

Enhanced authentication (`client_handler/auth.rs`, `connect.rs`): the exchange of AUTH
packets that may follow a CONNECT packet, and re-authentication in the life of a
connection.  What the provider answers comes with each packet.
-/

import MqttLib.Broker.Connect
import MqttLib.Foundation.Fallible

namespace MqttLib.Broker

open Foundation Protocol ClientHandler

/-! ## The provider -/

inductive EnhancedAuthStatus where
  | success
  | continuing
  | failed
  deriving DecidableEq

structure EnhancedAuthResult where
  status : EnhancedAuthStatus
  reasonCode : ReasonCode := .success
  authMethod : String
  authData : Option Bytes := none
  reasonString : Option String := none
  userId : Option String := none
  deriving DecidableEq

/-- The provider's answers to a CONNECT packet. -/
structure AuthProvider where
  authenticate : ConnectPacket → Except MqttError AuthResult
  /-- `authenticate_enhanced`, if it is supported. -/
  authenticateEnhanced :
    Option (String → Option Bytes → String → Except MqttError EnhancedAuthResult)

/-! ## The handler -/

inductive AuthState where
  | notStarted
  | inProgress
  | completed
  deriving DecidableEq

structure PendingConnect where
  connect : ConnectPacket
  assignedClientId : Option String
  deriving DecidableEq

/-- What the handler of a connection keeps of its authentication. -/
structure Authenticator where
  protocolVersion : UInt8 := 5
  clientId : Option String := none
  userId : Option String := none
  authMethod : Option String := none
  authState : AuthState := .notStarted
  requestProblemInformation : Bool := true
  pendingConnect : Option PendingConnect := none
  authenticatedConnect : Option PendingConnect := none
  connackAuthData : Option Bytes := none
  deriving DecidableEq

/-- A packet to the client. -/
inductive Reply where
  | connack (packet : ConnAckPacket)
  | auth (packet : AuthPacket)
  | disconnect (packet : DisconnectPacket)
  deriving DecidableEq

/-- How a packet is handled: the handler then, what is written, and the error that ends the
connection. -/
structure Handled where
  handler : Authenticator
  replies : List Reply := []
  error : Option MqttError := none

namespace Authenticator

/-- A DISCONNECT packet to an MQTT 5 client. -/
def disconnecting (h : Authenticator) (packet : DisconnectPacket) : List Reply :=
  if h.protocolVersion == 5 then [.disconnect packet] else []

def failing (h : Authenticator) (error : MqttError) : Handled :=
  { handler := h, error := some error }

/-- The CONNACK that refuses a client, with a reason where there is one to give. -/
def refusal (h : Authenticator) (reasonCode : ReasonCode) (reason : Option String) :
    ConnAckPacket :=
  let connack := newConnack h.protocolVersion false reasonCode
  match reason with
  | some reason =>
    if h.protocolVersion == 5 then
      { connack with properties := connack.properties.setReasonString reason }
    else connack
  | none => connack

/-- The reason a client is given, if it has asked for it. -/
def reasonFor (h : Authenticator) (reason : Option String) : Option String :=
  if h.requestProblemInformation then reason else none

def handleContinueAuth (h : Authenticator) (answer : Except MqttError EnhancedAuthResult) :
    Handled :=
  match answer with
  | .error error => h.failing error
  | .ok result =>
    match result.status with
    | .success =>
      let h := { h with authState := .completed, userId := result.userId }
      match h.pendingConnect with
      | some pending =>
        { handler :=
            { h with
              pendingConnect := none
              connackAuthData := result.authData
              authenticatedConnect := some pending } }
      | none =>
        { handler := h
          replies := [.auth (.withMethod .success result.authMethod result.authData)] }
    | .continuing =>
      { handler := h
        replies := [.auth (.continueAuthentication result.authMethod result.authData)] }
    | .failed =>
      let reason := h.reasonFor result.reasonString
      { handler := { h with pendingConnect := none }
        replies :=
          match h.pendingConnect with
          | some _ => [.connack (h.refusal result.reasonCode reason)]
          | none =>
            h.disconnecting
              { reasonCode := result.reasonCode
                properties := match reason with
                  | some reason => Properties.setReasonString ∅ reason
                  | none => ∅ }
        error := some .authenticationFailed }

def handleReauthenticate (h : Authenticator) (answer : Except MqttError EnhancedAuthResult) :
    Handled :=
  if h.authState ≠ .completed then
    h.failing (.protocolError "Cannot re-authenticate before initial auth completes")
  else match answer with
    | .error error => h.failing error
    | .ok result =>
      match result.status with
      | .success =>
        { handler := { h with userId := result.userId }
          replies := [.auth (.withMethod .success result.authMethod result.authData)] }
      | .continuing =>
        { handler := h
          replies := [.auth (.continueAuthentication result.authMethod result.authData)] }
      | .failed =>
        { handler := h
          replies := h.disconnecting { reasonCode := result.reasonCode }
          error := some .authenticationFailed }

/-- `handle_auth`; the answer is that of `authenticate_enhanced` or `reauthenticate`, where the
handler asks for it. -/
def handleAuth (h : Authenticator) (auth : AuthPacket)
    (answer : Except MqttError EnhancedAuthResult) : Handled :=
  match h.clientId with
  | none => h.failing (.protocolError "AUTH received before CONNECT")
  | some _ =>
    match auth.authenticationMethod with
    | none => h.failing (.protocolError "AUTH packet missing authentication method")
    | some method =>
      if h.authMethod.any fun expected => method != expected then
        { handler := h
          replies := h.disconnecting { reasonCode := .badAuthenticationMethod }
          error := some (.protocolError "Authentication method mismatch") }
      else match auth.reasonCode with
        | .continueAuthentication => h.handleContinueAuth answer
        | .reAuthenticate => h.handleReauthenticate answer
        | code =>
          { handler := h
            replies := h.disconnecting { reasonCode := .protocolError }
            error := some (.protocolError ("Unexpected AUTH reason code: " ++ debugName code)) }

/-- `handle_authentication` of a CONNECT packet; without an error, the client is accepted or,
with the CONNECT packet pending, asked to continue. -/
def handleConnectAuthentication (h : Authenticator) (provider : AuthProvider)
    (pending : PendingConnect) : Handled :=
  let connect := pending.connect
  match connect.properties.getAuthenticationMethod with
  | some method =>
    let h := { h with authMethod := some method }
    match provider.authenticateEnhanced with
    | some authenticateEnhanced =>
      let h := { h with clientId := some connect.clientId }
      match authenticateEnhanced method connect.properties.getAuthenticationData
        connect.clientId with
      | .error error => h.failing error
      | .ok result =>
        match result.status with
        | .success =>
          { handler :=
              { h with
                authState := .completed
                userId := result.userId
                connackAuthData := result.authData
                authenticatedConnect := some pending } }
        | .continuing =>
          { handler := { h with authState := .inProgress, pendingConnect := some pending }
            replies := [.auth (.continueAuthentication result.authMethod result.authData)] }
        | .failed =>
          { handler := h
            replies := [.connack (h.refusal result.reasonCode (h.reasonFor result.reasonString))]
            error := some .authenticationFailed }
    | none =>
      { handler := h
        replies := [.connack (h.refusal .badAuthenticationMethod
          (h.reasonFor (some "Server does not support enhanced authentication")))]
        error := some .authenticationFailed }
  | none =>
    match provider.authenticate connect with
    | .error error => h.failing error
    | .ok result =>
      if !result.authenticated then
        { handler := h
          replies := [.connack (h.refusal result.reasonCode
            (h.reasonFor (some "Authentication failed")))]
          error := some .authenticationFailed }
      else { handler := { h with userId := result.userId, authenticatedConnect := some pending } }

end Authenticator

/-! ## A CONNECT packet and the AUTH packets that follow it -/

/-- How the negotiation ends: a client that is accepted and the handler it has; a refusal by a
CONNACK; an error that closes the connection without one; or more packets to wait for. -/
inductive Negotiated where
  | accepted (handler : Authenticator) (connect : PendingConnect)
  | refused (refused : Refused)
  | closed (error : MqttError)
  | waiting (handler : Authenticator)

/-- The CONNACK among the packets that are written. -/
def connackOf : List Reply → Option ConnAckPacket
  | [] => none
  | .connack packet :: _ => some packet
  | _ :: replies => connackOf replies

/-- What a handled packet means for the negotiation. -/
def Handled.negotiated (handled : Handled) : Negotiated :=
  match handled.error with
  | some error =>
    match connackOf handled.replies with
    | some connack => .refused { connack, error }
    | none => .closed error
  | none =>
    match handled.handler.authenticatedConnect with
    | some connect => .accepted { handled.handler with authenticatedConnect := none } connect
    | none => .waiting handled.handler

/-- The checks of `handle_connect` in front of the authentication. -/
def ClientHandler.admission (env : Surroundings) (connect : ConnectPacket) :
    Except Refused PendingConnect := do
  validateProtocolVersion connect.protocolVersion
  let (connect, assignedClientId) ← assignClientIdIfEmpty env connect
  checkLoadBalancerRedirect env connect
  checkMaximumPacketSize connect
  validateClientId env connect
  return { connect, assignedClientId }

/-- The AUTH packets of `negotiate_connect`. -/
def negotiateAuth (h : Authenticator) :
    List (AuthPacket × Except MqttError EnhancedAuthResult) → Negotiated
  | [] => .waiting h
  | (auth, answer) :: rest =>
    match (h.handleAuth auth answer).negotiated with
    | .waiting h => negotiateAuth h rest
    | other => other

/-- `negotiate_connect`. -/
def negotiateConnect (env : Surroundings) (provider : AuthProvider) (connect : ConnectPacket)
    (exchange : List (AuthPacket × Except MqttError EnhancedAuthResult)) : Negotiated :=
  match admission env connect with
  | .error refused => .refused refused
  | .ok pending =>
    let h : Authenticator :=
      { protocolVersion := connect.protocolVersion
        requestProblemInformation := connect.properties.getRequestProblemInformation.getD true }
    match (h.handleConnectAuthentication provider pending).negotiated with
    | .waiting h => negotiateAuth h exchange
    | other => other

end MqttLib.Broker
