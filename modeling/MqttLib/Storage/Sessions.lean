/-
MqttLib.Storage.Sessions

The sessions of a storage backend: what a CONNECT packet asks of a session, and the
operations of `StorageBackend` on the stored ones.  A write that fails leaves them as they
were.
-/

import MqttLib.Protocol.Packet
import MqttLib.Storage.Session

namespace MqttLib.Storage

open Foundation Protocol Finmap

namespace ClientSession

def newWithWill (clientId : String) (persistent : Bool) (expiryInterval : Option UInt32)
    (willMessage : Option WillMessage) (now : SystemTime) : ClientSession where
  clientId := clientId
  persistent := persistent
  expiryInterval := expiryInterval
  willMessage := willMessage
  willDelayInterval := willMessage.bind fun will => will.properties.willDelayInterval
  createdAt := now
  lastSeen := now

/-- The expiry a client asks for; an MQTT 3.1.1 session that is not clean never expires. -/
def expiryFromConnect (connect : ConnectPacket) : Option UInt32 :=
  if connect.protocolVersion == 5 then some (connect.properties.getSessionExpiryInterval.getD 0)
  else if connect.cleanStart then some 0
  else none

def grantedExpiry (requested : Option UInt32) (maximum : UInt32) : UInt32 :=
  match requested with
  | none => maximum
  | some requested => min requested maximum

/-- The delay of the Will, which ends with the session. -/
def willPublishDelay (s : ClientSession) : Option UInt32 :=
  s.willMessage.map fun _ => min (s.willDelayInterval.getD 0) (s.expiryInterval.getD 4294967295)

/-- Keeps the subscriptions a predicate accepts. -/
def retainSubscriptions (s : ClientSession) (p : String → StoredSubscription → Bool) :
    ClientSession :=
  { s with
    subscriptions := s.subscriptions.filterMapEntries fun filter sub =>
      if p filter sub then some sub else none }

end ClientSession

abbrev Sessions := Table String ClientSession

namespace Sessions

variable (sessions : Sessions) (clientId : String) (connectionToken : UInt64)

/-- A session that has expired is not returned. -/
def getSession (now : SystemTime) : Option ClientSession :=
  (sessions.lookup clientId).filter fun session => !session.isExpired now

def storeSession (session : ClientSession) : Sessions := sessions.insert session.clientId session

def removeExpiredSession (now : SystemTime) : Sessions × Bool :=
  if (sessions.lookup clientId).any fun session => session.isExpired now then
    (sessions.erase clientId, true)
  else (sessions, false)

/-- Whether a stored session is the connection's. -/
def owned : Bool :=
  (sessions.lookup clientId).any fun session => session.connectionToken == connectionToken

def updateSession (update : ClientSession → ClientSession) : Sessions × Bool :=
  match sessions.lookup clientId with
  | some session =>
    if session.connectionToken == connectionToken then
      (sessions.insert clientId (update session), true)
    else (sessions, false)
  | none => (sessions, false)

def removeOwnedSession : Sessions × Bool :=
  if owned sessions clientId connectionToken then (sessions.erase clientId, true)
  else (sessions, false)

variable {sessions clientId connectionToken} {clientId' : String} {now : SystemTime}
  {update : ClientSession → ClientSession} {session : ClientSession}

theorem lookup_storeSession_of_ne (hne : clientId' ≠ session.clientId) :
    (sessions.storeSession session).lookup clientId' = sessions.lookup clientId' :=
  lookup_insert_of_ne _ hne

theorem lookup_removeExpiredSession_of_ne (hne : clientId' ≠ clientId) :
    (sessions.removeExpiredSession clientId now).1.lookup clientId' =
      sessions.lookup clientId' := by
  unfold removeExpiredSession
  split
  · exact lookup_erase_ne hne
  · rfl

theorem lookup_removeOwnedSession_of_ne (hne : clientId' ≠ clientId) :
    (sessions.removeOwnedSession clientId connectionToken).1.lookup clientId' =
      sessions.lookup clientId' := by
  unfold removeOwnedSession
  split
  · exact lookup_erase_ne hne
  · rfl

theorem lookup_updateSession (sessions : Sessions) (clientId : String) (connectionToken : UInt64)
    (update : ClientSession → ClientSession) (clientId' : String) :
    (sessions.updateSession clientId connectionToken update).1.lookup clientId' =
      (sessions.lookup clientId').map fun session =>
        if clientId' = clientId ∧ session.connectionToken = connectionToken then update session
        else session := by
  unfold updateSession
  cases hlook : sessions.lookup clientId with
  | none =>
    by_cases hcl : clientId' = clientId
    · rw [hcl, hlook]
      rfl
    · simp [hcl]
  | some session =>
    dsimp only
    split
    · rename_i htoken
      rw [beq_iff_eq] at htoken
      by_cases hcl : clientId' = clientId
      · rw [hcl, lookup_insert, hlook, Option.map_some, if_pos ⟨rfl, htoken⟩]
      · rw [lookup_insert_of_ne _ hcl]
        simp [hcl]
    · rename_i htoken
      rw [beq_iff_eq] at htoken
      by_cases hcl : clientId' = clientId
      · rw [hcl, hlook, Option.map_some, if_neg fun h => htoken h.2]
      · simp [hcl]

end Sessions

end MqttLib.Storage
