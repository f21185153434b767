/-
MqttLib.Broker.ResourceMonitor

The resource monitor (`resource_monitor.rs`) and the calls that connections make of it
(`server.rs`, `client_handler/mod.rs`, `client_handler/publish.rs`): a socket is tested
against the limits when it is accepted, its handler registers after the handshake, asks
before every publish, may move to another address, and unregisters when it ends.

A step is one atomic operation or one section under one of the monitor's locks, so that the
calls of any number of handlers interleave between them.

The windows of the message rate are numbered, and every admitted message is recorded with
the window it was counted in; a window tells whether a registration or the end of the last one
has started it.
-/

import MqttLib.Foundation.LastWrite
import MqttLib.Foundation.Reachable
import Mathlib.Data.UInt

namespace MqttLib.Broker.ResourceMonitor

open Foundation Function

/-! ## State -/

/-- `ResourceLimits`; a rate or bandwidth of 0 is no limit. -/
structure ResourceLimits where
  maxConnections : UInt64
  maxConnectionsPerIp : Nat
  maxMessageRatePerClient : Nat
  maxBandwidthPerClient : Nat
  maxConnectionRate : Nat
  rateLimitWindow : Nat

/-- One of the two limits on the messages of a client is set. -/
def ResourceLimits.limited (limits : ResourceLimits) : Bool :=
  0 < limits.maxMessageRatePerClient || 0 < limits.maxBandwidthPerClient

inductive IpAddr where
  | v4 (bits : BitVec 32)
  | v6 (bits : BitVec 128)
  deriving DecidableEq

/-- A rate window of a client. -/
structure Window where
  number : Nat
  clientId : String
  start : Nat
  registered : Bool
  deriving DecidableEq

/-- `ClientResources`; its `window_start` is the start of its window. -/
structure ClientResources where
  messageCount : Nat
  bytesTransferred : Nat
  window : Window

/-- A message that was let through, with the window it was counted in. -/
structure Admission where
  clientId : String
  size : Nat
  time : Nat
  window : Option Window
  deriving DecidableEq

/-- Where a connection stands: its socket is tested against the number of connections, the
number from its address and the connection rate; it is accepted; it registers in three
sections, is served, and unregisters in three sections. -/
inductive Stage where
  | idle
  | belowTotal
  | belowAddress
  | accepted
  | counted
  | listed
  | serving
  | uncounted
  | unlisted
  | gone
  deriving DecidableEq

structure Connection where
  clientId : String := ""
  addr : IpAddr := .v4 0
  stage : Stage := .idle
  deriving DecidableEq

structure State where
  now : Nat := 0
  connectionCount : UInt64 := 0
  ipConnections : Table IpAddr Nat := ∅
  clientResources : Table String ClientResources := ∅
  /-- The times in the `ConnectionRateTracker`. -/
  connectionRate : List Nat := []
  connections : Nat → Connection := fun _ => {}
  nextWindow : Nat := 0
  admissions : List Admission := []

/-! ## Operations -/

section

variable (limits : ResourceLimits) (s : State) (g : Nat)

def State.setStage (stage : Stage) : State :=
  { s with
    connections := update s.connections g { s.connections g with stage := stage } }

/-- How many connections an address has in a table. -/
def ipCountIn (table : Table IpAddr Nat) (ip : IpAddr) : Nat := (table.lookup ip).getD 0

def State.ipCount (ip : IpAddr) : Nat := ipCountIn s.ipConnections ip

/-- The first test of `can_accept_connection`. -/
def State.testTotal (ip : IpAddr) : Option State :=
  if (s.connections g).stage = .idle then
    some { s with
      connections := update s.connections g
        { addr := ip
          stage := if s.connectionCount ≥ limits.maxConnections then .gone else .belowTotal } }
  else none

/-- The second test. -/
def State.testAddress : Option State :=
  if (s.connections g).stage = .belowTotal then
    some (s.setStage g
      (if s.ipCount (s.connections g).addr ≥ limits.maxConnectionsPerIp then .gone
        else .belowAddress))
  else none

/-- `add_connection` of the `ConnectionRateTracker`, the third test. -/
def State.testRate : Option State :=
  if (s.connections g).stage = .belowAddress then
    let recent := s.connectionRate.filter fun time => s.now - time ≤ limits.rateLimitWindow
    if recent.length < limits.maxConnectionRate then
      some { s.setStage g .accepted with connectionRate := recent ++ [s.now] }
    else some { s.setStage g .gone with connectionRate := recent }
  else none

/-- The handshake of an accepted socket fails. -/
def State.fail : Option State :=
  if (s.connections g).stage = .accepted then some (s.setStage g .gone) else none

/-- `register_connection` counts the connection. -/
def State.count (clientId : String) : Option State :=
  if (s.connections g).stage = .accepted then
    some { s with
      connectionCount := s.connectionCount + 1
      connections := update s.connections g
        { s.connections g with
          clientId := clientId
          stage := .counted } }
  else none

/-- One more connection from an address. -/
def incrementIp (ip : IpAddr) (table : Table IpAddr Nat) : Table IpAddr Nat :=
  table.insert ip (ipCountIn table ip + 1)

/-- One connection less from an address; an address without any is dropped. -/
def decrementIp (ip : IpAddr) (table : Table IpAddr Nat) : Table IpAddr Nat :=
  match table.lookup ip with
  | some count => if count - 1 = 0 then table.erase ip else table.insert ip (count - 1)
  | none => table

/-- `register_connection` counts the address. -/
def State.list : Option State :=
  if (s.connections g).stage = .counted then
    some { s.setStage g .listed with
      ipConnections := incrementIp (s.connections g).addr s.ipConnections }
  else none

/-- The next window of a client starts now. -/
def State.newWindow (clientId : String) (registered : Bool) : ClientResources :=
  ⟨0, 0, ⟨s.nextWindow, clientId, s.now, registered⟩⟩

/-- `register_connection` starts the accounting of the client. -/
def State.insert : Option State :=
  if (s.connections g).stage = .listed then
    let clientId := (s.connections g).clientId
    some { s.setStage g .serving with
      clientResources := s.clientResources.insert clientId (s.newWindow clientId true)
      nextWindow := s.nextWindow + 1 }
  else none

/-- `is_window_expired`. -/
def State.expired (resources : ClientResources) : Bool :=
  s.now - resources.window.start > limits.rateLimitWindow

/-- The entry `can_send_message` counts in: a new window if the entry's has expired. -/
def State.currentWindow (clientId : String) (resources : ClientResources) : ClientResources :=
  if s.expired limits resources then s.newWindow clientId false else resources

/-- The tests of `can_send_message`. -/
def ResourceLimits.admits (resources : ClientResources) (size : Nat) : Bool :=
  !(0 < limits.maxMessageRatePerClient &&
      resources.messageCount ≥ limits.maxMessageRatePerClient) &&
    !(0 < limits.maxBandwidthPerClient &&
      resources.bytesTransferred + size > limits.maxBandwidthPerClient)

/-- A message is let through. -/
def State.admission (clientId : String) (size : Nat) (window : Option Window) : State :=
  { s with admissions := s.admissions ++ [⟨clientId, size, s.now, window⟩] }

/-- `can_send_message` for a message of the given size. -/
def State.canSendMessage (clientId : String) (size : Nat) : State × Bool :=
  if limits.limited then
    match s.clientResources.lookup clientId with
    | none => (s.admission clientId size none, true)
    | some resources =>
      let current := s.currentWindow limits clientId resources
      let s := { s with
        clientResources := s.clientResources.insert clientId current
        nextWindow := s.nextWindow + 1 }
      if limits.admits current size then
        let counted := { current with
          messageCount := current.messageCount + 1
          bytesTransferred := current.bytesTransferred + size }
        (State.admission
          { s with clientResources := s.clientResources.insert clientId counted }
          clientId size (some current.window), true)
      else (s, false)
  else (s.admission clientId size none, true)

/-- A connection in service has received a PUBLISH. -/
def State.send (size : Nat) : Option State :=
  if (s.connections g).stage = .serving then
    some (s.canSendMessage limits (s.connections g).clientId size).1
  else none

/-- `check_quic_migration` and `update_connection_ip`. -/
def State.migrate (ip : IpAddr) : Option State :=
  if (s.connections g).stage = .serving then
    some { s with
      ipConnections := incrementIp ip (decrementIp (s.connections g).addr s.ipConnections)
      connections := update s.connections g { s.connections g with addr := ip } }
  else none

/-- `unregister_connection` stops counting the connection. -/
def State.uncount : Option State :=
  if (s.connections g).stage = .serving then
    some { s.setStage g .uncounted with connectionCount := s.connectionCount - 1 }
  else none

/-- `unregister_connection` stops counting the address. -/
def State.unlist : Option State :=
  if (s.connections g).stage = .uncounted then
    some { s.setStage g .unlisted with
      ipConnections := decrementIp (s.connections g).addr s.ipConnections }
  else none

/-- `unregister_connection` ends the accounting of the client. -/
def State.remove : Option State :=
  if (s.connections g).stage = .unlisted then
    some { s.setStage g .gone with
      clientResources := s.clientResources.erase (s.connections g).clientId }
  else none

/-- One entry of `cleanup_expired_windows`, which holds the lock over all of them. -/
def State.cleanup (clientId : String) : Option State :=
  (s.clientResources.lookup clientId).map fun resources =>
    { s with
      clientResources :=
        s.clientResources.insert clientId (s.currentWindow limits clientId resources)
      nextWindow := s.nextWindow + 1 }

end

/-! ## Steps -/

inductive Action where
  | tick (elapsed : Nat)
  | testTotal (g : Nat) (ip : IpAddr)
  | testAddress (g : Nat)
  | testRate (g : Nat)
  | fail (g : Nat)
  | count (g : Nat) (clientId : String)
  | list (g : Nat)
  | insert (g : Nat)
  | send (g : Nat) (size : Nat)
  | migrate (g : Nat) (ip : IpAddr)
  | uncount (g : Nat)
  | unlist (g : Nat)
  | remove (g : Nat)
  | cleanup (clientId : String)

def act (limits : ResourceLimits) (s : State) : Action → Option State
  | .tick elapsed => some { s with now := s.now + elapsed }
  | .testTotal g ip => s.testTotal limits g ip
  | .testAddress g => s.testAddress limits g
  | .testRate g => s.testRate limits g
  | .fail g => s.fail g
  | .count g clientId => s.count g clientId
  | .list g => s.list g
  | .insert g => s.insert g
  | .send g size => s.send limits g size
  | .migrate g ip => s.migrate g ip
  | .uncount g => s.uncount g
  | .unlist g => s.unlist g
  | .remove g => s.remove g
  | .cleanup clientId => s.cleanup limits clientId

end MqttLib.Broker.ResourceMonitor
