/-
MqttLib.Broker.Connect

A CONNECT packet up to authentication (`client_handler/connect.rs`), with the certificate
provider (`auth/providers.rs`).  The provider reads the fingerprint from the client
identifier; the handler only asks the transport whether the peer has shown some
certificate.
-/

import MqttLib.Protocol.Packet

namespace MqttLib.Broker

open Foundation Protocol

/-! ## Transports and their peers -/

/-- A certificate in DER. -/
abbrev Certificate := Bytes

/-- `BrokerTransport`, with the chain the TLS layer reports for the peer. -/
inductive Transport where
  | tcp
  | tls (peerCertificates : Option (List Certificate))
  | webSocket
  | quic (peerCertificates : Option (List Certificate))

namespace Transport

def clientCertInfo : Transport → Option String
  | .tls (some _) => some "Client certificate provided"
  | _ => none

/-- The end-entity certificate the peer has presented on the connection. -/
def endEntity : Transport → Option Certificate
  | .tls (some chain) | .quic (some chain) => chain.head?
  | _ => none

end Transport

/-! ## The certificate provider -/

structure AuthResult where
  authenticated : Bool
  reasonCode : ReasonCode
  reasonString : Option String := none
  userId : Option String := none
  deriving DecidableEq

namespace AuthResult

def successWithUser (userId : String) : AuthResult :=
  { authenticated := true, reasonCode := .success, userId := some userId }

def fail (reasonCode : ReasonCode) : AuthResult := { authenticated := false, reasonCode }

end AuthResult

def isAsciiHexdigit (c : Char) : Bool :=
  ('0' ≤ c && c ≤ '9') || ('a' ≤ c && c ≤ 'f') || ('A' ≤ c && c ≤ 'F')

/-- `CertificateAuthProvider`: user names by lowercase fingerprint. -/
structure CertificateAuthProvider where
  allowedCerts : Table String String

namespace CertificateAuthProvider

/-- `hex::encode`. -/
def hexEncode (bytes : Bytes) : String :=
  String.ofList (bytes.flatMap fun b =>
    [Nat.digitChar (b.toNat / 16), Nat.digitChar (b.toNat % 16)])

def calculateFingerprint (sha256 : Bytes → Bytes) (certDer : Certificate) : String :=
  hexEncode (sha256 certDer)

def authenticate (provider : CertificateAuthProvider) (connect : ConnectPacket) : AuthResult :=
  match connect.clientId.toList.dropPrefix? "cert:".toList with
  | some rest =>
    let fingerprint := String.ofList rest
    if fingerprint.utf8ByteSize ≠ 64 || !rest.all isAsciiHexdigit then
      .fail .clientIdentifierNotValid
    else
      match provider.allowedCerts.lookup fingerprint.toLower with
      | some username => .successWithUser username
      | none => .fail .notAuthorized
  | none => .fail .badUsernameOrPassword

end CertificateAuthProvider

/-! ## The handler -/

/-- `limits::MAX_CLIENT_ID_LENGTH`. -/
def maxClientIdLength : Nat := 128

def isAsciiControl (c : Char) : Bool := c.toNat < 32 || c.toNat == 127

def isPathSafeClientId (clientId : String) : Bool :=
  if clientId.isEmpty then true
  else if clientId.utf8ByteSize > maxClientIdLength then false
  else if clientId.toList.contains '/' || clientId.toList.contains '\\' ||
      clientId.toList.contains (Char.ofNat 0) then false
  else if clientId == "." || clientId == ".." || "../".toList.isPrefixOf clientId.toList then false
  else clientId.toList.all fun c => !isAsciiControl c

/-- A refused CONNECT: the CONNACK that is sent and the error that ends the handler. -/
structure Refused where
  connack : ConnAckPacket
  error : MqttError
  deriving DecidableEq

/-- What the handler reads of its surroundings: the transport, the load balancer's choice of a
backend, and the random number for a client identifier (`none` where that fails). -/
structure Surroundings where
  transport : Transport
  selectBackend : String → Option String := fun _ => none
  random : Option (Fin (2 ^ 128))

def newConnack (protocolVersion : UInt8) (sessionPresent : Bool) (reasonCode : ReasonCode) :
    ConnAckPacket :=
  if protocolVersion == 4 then { sessionPresent, reasonCode, protocolVersion := 4 }
  else { sessionPresent, reasonCode, protocolVersion := 5 }

/-- An accepted CONNECT and the user it is authenticated as. -/
structure Accepted where
  connect : ConnectPacket
  assignedClientId : Option String
  userId : Option String
  deriving DecidableEq

namespace ClientHandler

def validateProtocolVersion (protocolVersion : UInt8) : Except Refused Unit :=
  if protocolVersion == 4 || protocolVersion == 5 then .ok ()
  else
    .error
      { connack :=
          { sessionPresent := false
            reasonCode := .unsupportedProtocolVersion
            protocolVersion := if protocolVersion < 5 then 4 else 5 }
        error := .unsupportedProtocolVersion }

/-- The identifier for a random number: `auto-` and 32 hexadecimal digits. -/
def generatedId (random : Fin (2 ^ 128)) : String :=
  "auto-" ++ String.ofList ((List.range 32).reverse.map fun place =>
    Nat.digitChar (random.val / 16 ^ place % 16))

def assignClientIdIfEmpty (env : Surroundings) (connect : ConnectPacket) :
    Except Refused (ConnectPacket × Option String) :=
  if !connect.clientId.isEmpty then .ok (connect, none)
  else if connect.protocolVersion == 4 && !connect.cleanStart then
    .error
      { connack := newConnack connect.protocolVersion false .clientIdentifierNotValid
        error := .invalidClientId "" }
  else
    match env.random with
    | none =>
      .error
        { connack := newConnack connect.protocolVersion false .serverUnavailable
          error := .io "failed to generate a client ID" }
    | some random =>
      .ok ({ connect with clientId := generatedId random }, some (generatedId random))

def checkLoadBalancerRedirect (env : Surroundings) (connect : ConnectPacket) :
    Except Refused Unit :=
  match env.selectBackend connect.clientId with
  | none => .ok ()
  | some backend =>
    if connect.protocolVersion == 4 then
      .error
        { connack := newConnack connect.protocolVersion false .serverUnavailable
          error := .serverUnavailable }
    else
      .error
        { connack :=
            { newConnack connect.protocolVersion false .useAnotherServer with
              properties := Finmap.singleton .serverReference [.utf8String backend] }
          error := .useAnotherServer }

def checkMaximumPacketSize (connect : ConnectPacket) : Except Refused Unit :=
  if connect.properties.getMaximumPacketSize == some 0 then
    .error
      { connack := newConnack connect.protocolVersion false .protocolError
        error := .protocolError "Maximum Packet Size must not be zero" }
  else .ok ()

def validateClientId (env : Surroundings) (connect : ConnectPacket) : Except Refused Unit :=
  if !isPathSafeClientId connect.clientId then
    .error
      { connack := newConnack connect.protocolVersion false .clientIdentifierNotValid
        error := .invalidClientId connect.clientId }
  else if "cert:".toList.isPrefixOf connect.clientId.toList &&
      env.transport.clientCertInfo.isNone then
    .error
      { connack := newConnack connect.protocolVersion false .notAuthorized
        error := .authenticationFailed }
  else .ok ()

/-- The refusal of an authentication, with its reason where the client asks for it. -/
def authenticationRefused (connect : ConnectPacket) (reasonCode : ReasonCode) (reason : String) :
    Refused :=
  let connack := newConnack connect.protocolVersion false reasonCode
  { connack :=
      if connect.protocolVersion == 5 &&
          connect.properties.getRequestProblemInformation.getD true then
        { connack with properties := Finmap.singleton .reasonString [.utf8String reason] }
      else connack
    error := .authenticationFailed }

/-- `handle_authentication` for a provider without enhanced authentication. -/
def handleAuthentication (authenticate : ConnectPacket → AuthResult) (connect : ConnectPacket) :
    Except Refused (Option String) :=
  match connect.properties.getAuthenticationMethod with
  | some _ =>
    .error (authenticationRefused connect .badAuthenticationMethod
      "Server does not support enhanced authentication")
  | none =>
    let authResult := authenticate connect
    if !authResult.authenticated then
      .error (authenticationRefused connect authResult.reasonCode "Authentication failed")
    else .ok authResult.userId

def handleConnect (env : Surroundings) (authenticate : ConnectPacket → AuthResult)
    (connect : ConnectPacket) : Except Refused Accepted := do
  validateProtocolVersion connect.protocolVersion
  let (connect, assignedClientId) ← assignClientIdIfEmpty env connect
  checkLoadBalancerRedirect env connect
  checkMaximumPacketSize connect
  validateClientId env connect
  let userId ← handleAuthentication authenticate connect
  return { connect, assignedClientId, userId }

end ClientHandler

end MqttLib.Broker
