/-
MqttLib.Client.ReceiveMaximum

Changes of the Receive Maximum (`set_receive_maximum` of `session/flow_control.rs`) with messages in
flight.
-/

import MqttLib.Client.SendQuota

namespace MqttLib.Client.SendQuota

open Foundation Function Option Finset

namespace State

/-- The permits of the main semaphore become `n`. -/
def setPermits (s : State) (n : Nat) : State :=
  s.setSemaphore s.flow.quotaSemaphore { s.main with permits := n }

def tryAcquireSendQuota (s : State) (packetId : UInt16) : Option State :=
  if s.flow.receiveMaximum = 0 then some s
  else if s.main.closed ∨ s.main.permits = 0 then none
  else some ({ s with flow.inFlight := insert packetId s.flow.inFlight }.setPermits
    (s.main.permits - 1))

/-- `cleanup_expired`, of the messages `get_expired` has found. -/
def cleanupExpired (s : State) (expired : Finset UInt16) : State :=
  let t := { s with flow.inFlight := s.flow.inFlight \ expired }
  if s.flow.receiveMaximum = 0 then t
  else t.setPermits (s.main.permits + (s.flow.inFlight ∩ expired).card)

/-- `set_receive_maximum`; permits above the target are acquired and forgotten one by one. -/
def setReceiveMaximum (s : State) (value : UInt16) : State :=
  let permits := s.main.permits
  let target := value.toNat - s.flow.inFlight.card
  let t := { s with flow.receiveMaximum := value }
  if value = 0 then t.setPermits (max permits maxPermits)
  else if s.flow.receiveMaximum = 0 then
    { t with flow.quotaSemaphore := s.issued, issued := s.issued + 1 }.setSemaphore s.issued
      { permits := target, generation := s.flow.quotaGeneration }
  else if permits < target then t.setPermits (permits + (target - permits))
  else t.setPermits ((· - 1)^[permits - target] permits)

end State

/-- The calls, one after the other; an acknowledgement or an attempt that fails changes nothing. -/
inductive Call where
  | tryAcquireSendQuota (packetId : UInt16)
  | acknowledge (packetId : UInt16)
  | cleanupExpired (expired : Finset UInt16)
  | setReceiveMaximum (value : UInt16)

def call (s : State) : Call → Option State
  | .tryAcquireSendQuota packetId => s.tryAcquireSendQuota packetId
  | .acknowledge packetId => acknowledge s packetId
  | .cleanupExpired expired => some (s.cleanupExpired expired)
  | .setReceiveMaximum value => some (s.setReceiveMaximum value)

/-- No new value is 0 or below the number of messages in flight. -/
def Covering (s : State) : Call → Prop
  | .setReceiveMaximum value => value ≠ 0 ∧ s.flow.inFlight.card ≤ value.toNat
  | _ => True

/-- There is no replay, and the Receive Maximum covers the messages in flight and the free
permits. -/
def Covers (s : State) : Prop :=
  s.flow.replaySlots = none ∧ s.flow.inFlight.card + s.main.permits ≤ s.flow.receiveMaximum.toNat

theorem iterate_pred (n k : Nat) : (· - 1)^[k] n = n - k := by
  induction k with
  | zero => rfl
  | succ k ih => rw [iterate_succ_apply', ih]; omega

theorem covers_setPermits {s : State} {n : Nat} : Covers (s.setPermits n) ↔
    s.flow.replaySlots = none ∧ s.flow.inFlight.card + n ≤ s.flow.receiveMaximum.toNat := by
  simp [Covers, State.setPermits, State.setSemaphore, State.main]

theorem Covers.call {s s' : State} {c : Call} (hs : Covers s) (hcovering : Covering s c)
    (h : call s c = some s') : Covers s' := by
  obtain ⟨hslots, hcov⟩ := hs
  cases c with
  | tryAcquireSendQuota packetId =>
    dsimp only [SendQuota.call, State.tryAcquireSendQuota] at h
    split at h
    · cases h
      exact ⟨hslots, hcov⟩
    obtain ⟨hfree, h⟩ := ite_none_left_eq_some.mp h
    cases h
    have hcard := card_insert_le packetId s.flow.inFlight
    exact covers_setPermits.mpr ⟨hslots, by dsimp only; omega⟩
  | acknowledge packetId =>
    dsimp only [SendQuota.call, SendQuota.acknowledge] at h
    split at h
    · cases h
      exact ⟨hslots, hcov⟩
    obtain ⟨hmem, h⟩ := ite_none_right_eq_some.mp h
    have hcard := card_erase_add_one hmem
    rw [hslots] at h
    split at h
    · cases h
      refine ⟨rfl, ?_⟩
      show (s.flow.inFlight.erase packetId).card + s.main.permits ≤ s.flow.receiveMaximum.toNat
      omega
    · cases h
      exact (covers_setPermits (n := s.main.permits + 1)).mpr ⟨rfl, by dsimp only; omega⟩
  | cleanupExpired expired =>
    cases h
    have hcard := card_sdiff_add_card_inter s.flow.inFlight expired
    unfold State.cleanupExpired
    split
    · refine ⟨hslots, ?_⟩
      show (s.flow.inFlight \ expired).card + s.main.permits ≤ s.flow.receiveMaximum.toNat
      omega
    · exact covers_setPermits.mpr ⟨hslots, by dsimp only; omega⟩
  | setReceiveMaximum _ =>
    obtain ⟨hvalue, hroom⟩ := hcovering
    cases h
    unfold State.setReceiveMaximum
    dsimp only
    rw [if_neg hvalue, iterate_pred]
    split
    · refine ⟨hslots, ?_⟩
      simp [State.main, State.setSemaphore]
      omega
    split <;> exact covers_setPermits.mpr ⟨hslots, by dsimp only; omega⟩

/-- In every sequence of calls in which no new Receive Maximum is below the number of messages in
flight, it is never below that number, and the free permits are not more than the rest. -/
theorem receive_maximum_covers {value : UInt16} {s : State} (hvalue : value ≠ 0)
    (hrun : Reachable call Covering (.new value) s) :
    s.flow.inFlight.card ≤ s.flow.receiveMaximum.toNat ∧
      s.main.permits ≤ s.flow.receiveMaximum.toNat - s.flow.inFlight.card := by
  have hstart : Covers (.new value) := ⟨rfl, by simp [State.new, State.main, hvalue]⟩
  obtain ⟨-, hcovers⟩ := hrun.invariant hstart fun _ _ _ hs hcovering h => hs.call hcovering h
  omega

theorem receive_maximum_covers_raised : ∃ s, Reachable call Covering (.new 1) s ∧
    s.flow.inFlight = {7} ∧ s.main.permits = 2 ∧
    s.main.permits ≤ s.flow.receiveMaximum.toNat - s.flow.inFlight.card := by
  have hstart : Reachable call Covering (.new 1) (.new 1) := .start
  have hrun := (hstart.step
    (show Covering _ (.tryAcquireSendQuota 7) from trivial) rfl).step
    (show Covering _ (.setReceiveMaximum 3) from ⟨by decide, by decide⟩) rfl
  exact ⟨_, hrun, by decide, by decide, (receive_maximum_covers (by decide) hrun).2⟩

/-- It is lowered to 1 with three messages in flight: the first acknowledgement frees a permit, and
with the next message there are three again. -/
theorem lowered_maximum_exceeded : ∃ s, follow call (.new 3)
      [.tryAcquireSendQuota 1, .tryAcquireSendQuota 2, .tryAcquireSendQuota 3,
        .setReceiveMaximum 1, .acknowledge 1, .tryAcquireSendQuota 4] = some s ∧
    s.flow.inFlight.card = 3 ∧ s.flow.receiveMaximum = 1 :=
  ⟨_, rfl, by decide, rfl⟩

end MqttLib.Client.SendQuota
