/-
MqttLib.Broker.SessionFlows

The data flows of a client's session (`quic_flows.rs`): the connection that owns them, and
what is kept of a flow until it is recovered or expires.  The router has a table of them
(`with_session_flows`), where idle ones are left out.
-/

import MqttLib.Storage.Session

namespace MqttLib.Broker

open Foundation Storage Option Finmap Table

/-- How a flow is held: on a stream, or kept after its stream has ended. -/
inductive Held where
  | opened (generation : Nat) (streamId : UInt64)
  | kept (deadline : SystemTime)
  deriving DecidableEq

/-- `expire` is in nanoseconds. -/
structure Flow where
  expire : Nat
  held : Held
  deriving DecidableEq

namespace Flow

def live (flow : Flow) (now : SystemTime) : Bool :=
  match flow.held with
  | .opened _ _ => true
  | .kept deadline => now < deadline

def isOpened (flow : Flow) : Bool :=
  match flow.held with
  | .opened _ _ => true
  | .kept _ => false

/-- What is left of a flow when its connection is gone. -/
def settled (flow : Flow) (now : SystemTime) : Option Flow :=
  match flow.held with
  | .opened _ _ =>
    if flow.expire = 0 then none
    else
      let kept := { flow with held := .kept (now + flow.expire) }
      if kept.live now then some kept else none
  | .kept _ => if flow.live now then some flow else none

/-- A flow that is kept and has not expired. -/
def isKept (flow : Flow) (now : SystemTime) : Bool :=
  match flow.held with
  | .opened _ _ => false
  | .kept deadline => now < deadline

variable {now : SystemTime}

theorem settled_eq_self {flow : Flow} : flow.settled now = some flow ↔ flow.isKept now := by
  obtain ⟨_, held⟩ := flow
  cases held with
  | opened _ _ =>
    simp only [settled, isKept, Bool.false_eq_true, iff_false]
    split
    · exact fun h => nomatch h
    · split
      · intro h
        cases h
      · exact fun h => nomatch h
  | kept _ => simp [settled, isKept, live]

theorem kept_of_settled {flow flow' : Flow} (h : flow.settled now = some flow') :
    ∃ deadline, flow'.held = .kept deadline := by
  obtain ⟨expire, held⟩ := flow
  cases held with
  | opened _ _ =>
    simp only [settled] at h
    split at h
    · cases h
    · split at h
      · exact ⟨now + expire, by rw [← some.inj h]⟩
      · cases h
  | kept deadline =>
    simp only [settled] at h
    split at h
    · exact ⟨deadline, by rw [← some.inj h]⟩
    · cases h

/-- A flow that is settled twice is the same again if it was kept throughout. -/
theorem settled_settled {flow : Flow} {now later : SystemTime} :
    ((flow.settled now).bind fun flow => flow.settled later) = some flow ↔
      flow.isKept now ∧ flow.isKept later := by
  constructor
  · intro h
    obtain ⟨first, hfirst, hsecond⟩ := bind_eq_some_iff.mp h
    obtain ⟨_, hheld⟩ := kept_of_settled hfirst
    -- the first time it became one that is kept, which the second time leaves as it is
    have hsame : first = flow := by
      unfold settled at hsecond
      rw [hheld] at hsecond
      dsimp only at hsecond
      split at hsecond
      · exact some.inj hsecond
      · cases hsecond
    rw [hsame] at hfirst hsecond
    exact ⟨settled_eq_self.mp hfirst, settled_eq_self.mp hsecond⟩
  · rintro ⟨hnow, hlater⟩
    rw [settled_eq_self.mpr hnow]
    exact settled_eq_self.mpr hlater

end Flow

structure SessionFlows where
  owner : Option Nat := none
  flows : Table UInt64 Flow := ∅
  failed : Finset UInt64 := ∅
  expiryEpoch : Nat := 0
  deriving DecidableEq

open SessionFlows

namespace SessionFlows

def settle (s : SessionFlows) (now : SystemTime) : SessionFlows :=
  { s with flows := s.flows.filterMapEntries fun _ flow => flow.settled now }

def claim (s : SessionFlows) (generation : Nat) (cleanStart : Bool) (now : SystemTime) :
    SessionFlows :=
  let s := { s with owner := some generation, failed := ∅ }
  if cleanStart then { s with flows := ∅ } else s.settle now

/-- Gives up the flows, if the connection still owns them. -/
def release (s : SessionFlows) (generation : Nat) (keep : Bool) (now : SystemTime) :
    SessionFlows × Bool :=
  if s.owner ≠ some generation then (s, false)
  else
    let s := { s with owner := none, failed := ∅ }
    (if keep then s.settle now else { s with flows := ∅ }, true)

def holds (s : SessionFlows) (flowId : UInt64) : Bool := (s.flows.lookup flowId).isSome

def isIdle (s : SessionFlows) : Bool := s.owner.isNone && decide (s.flows = ∅)

/-- `next_deadline` finds one: a flow is kept. -/
def hasDeadline (s : SessionFlows) : Bool := 0 < s.flows.values.countP fun flow => !flow.isOpened

def armExpiry (s : SessionFlows) : SessionFlows := { s with expiryEpoch := s.expiryEpoch + 1 }

theorem settle_settle_eq {s : SessionFlows} {now later : SystemTime} :
    ((s.settle now).settle later).flows = s.flows ↔
      ∀ id flow, s.flows.lookup id = some flow →
        flow.isKept now ∧ flow.isKept later := by
  have hlook (id : UInt64) : ((s.settle now).settle later).flows.lookup id =
      (s.flows.lookup id).bind fun flow => (flow.settled now).bind fun flow =>
        flow.settled later := by
    show lookup id ((s.flows.filterMapEntries fun _ flow => flow.settled now).filterMapEntries
      fun _ flow => flow.settled later) = _
    rw [lookup_filterMapEntries, lookup_filterMapEntries, bind_assoc]
  constructor
  · intro heq id flow hflow
    have hid := hlook id
    rw [heq, hflow, bind_some] at hid
    exact Flow.settled_settled.mp hid.symm
  · intro hkept
    refine ext_lookup fun id => ?_
    rw [hlook id]
    cases hflow : s.flows.lookup id with
    | none => rfl
    | some flow => exact Flow.settled_settled.mpr (hkept id flow hflow)

end SessionFlows

/-! ## The router's table -/

/-- `with_session_flows`. -/
def withSessionFlows (tables : Table String SessionFlows) (clientId : String)
    (update : SessionFlows → SessionFlows) : Table String SessionFlows :=
  let flows := update ((tables.lookup clientId).getD {})
  if flows.isIdle then tables.erase clientId else tables.insert clientId flows

section

variable (s : SessionFlows) (generation : Nat) (fresh : Bool) (now later : SystemTime)

/-- A claim of the flows that is given up again. -/
def SessionFlows.abandoned : SessionFlows :=
  ((s.claim generation fresh now).release generation true later).1

theorem SessionFlows.abandoned_eq : s.abandoned generation fresh now later = { s with
      owner := none
      failed := ∅
      flows := if fresh then ∅ else ((s.settle now).settle later).flows } := by
  have hemp : (∅ : Table UInt64 Flow).filterMapEntries (fun _ flow => flow.settled later) = ∅ := by
    refine ext_lookup fun id => ?_
    rw [lookup_filterMapEntries]
    rfl
  unfold abandoned claim release
  cases fresh with
  | true => simp [settle, hemp]
  | false => simp [settle]

theorem SessionFlows.isIdle_abandoned :
    (s.abandoned generation fresh now later).isIdle ↔
      (fresh = false → ((s.settle now).settle later).flows = ∅) := by
  rw [abandoned_eq]
  unfold isIdle
  cases fresh <;> simp

end

/-- The table is as it was after a claim that is given up, if and only if it had nothing for the
client, or only flows that no connection owned and that are kept for longer. -/
theorem withSessionFlows_abandoned (tables : Table String SessionFlows) (clientId : String)
    (generation : Nat) (fresh : Bool) (now later : SystemTime) :
    withSessionFlows (withSessionFlows tables clientId (·.claim generation fresh now)) clientId
        (fun flows => (flows.release generation true later).1) = tables ↔
      ∀ s, tables.lookup clientId = some s →
        fresh = false ∧ s.owner = none ∧ s.failed = ∅ ∧ s.flows ≠ ∅ ∧
          ∀ id flow, s.flows.lookup id = some flow →
            flow.isKept now ∧ flow.isKept later := by
  set s := (tables.lookup clientId).getD {} with hs
  -- a claimed table is not idle
  have hclmd : withSessionFlows tables clientId (·.claim generation fresh now) =
      tables.insert clientId (s.claim generation fresh now) := by
    have hown : (s.claim generation fresh now).owner = some generation := by
      unfold claim
      split <;> rfl
    unfold withSessionFlows
    rw [← hs]
    dsimp only
    rw [if_neg (by unfold isIdle; rw [hown]; exact Bool.false_ne_true)]
  have habandoned : withSessionFlows
      (tables.insert clientId (s.claim generation fresh now)) clientId
        (fun flows => (flows.release generation true later).1) =
      if (s.abandoned generation fresh now later).isIdle then tables.erase clientId
      else tables.insert clientId (s.abandoned generation fresh now later) := by
    unfold withSessionFlows
    rw [lookup_insert, getD_some]
    show (if (s.abandoned generation fresh now later).isIdle then _ else
      insert clientId (s.abandoned generation fresh now later)
        (insert clientId _ tables)) = _
    rw [insert_insert]
    split
    · refine ext_lookup fun k => ?_
      by_cases hk : k = clientId
      · rw [hk, lookup_erase, lookup_erase]
      · rw [lookup_erase_ne hk, lookup_erase_ne hk, lookup_insert_of_ne _ hk]
    · rfl
  rw [hclmd, habandoned]
  cases hlook : tables.lookup clientId with
  | none =>
    -- what is claimed is given up with nothing left
    have hidle : (s.abandoned generation fresh now later).isIdle := by
      rw [isIdle_abandoned, hs, hlook, getD_none]
      refine fun _ => settle_settle_eq.mpr fun id flow hflow => ?_
      cases hflow
    rw [if_pos hidle, erase_of_lookup_none hlook]
    exact iff_of_true rfl fun _ h => nomatch h
  | some s' =>
    have hs' : s = s' := by rw [hs, hlook, getD_some]
    rw [hs']
    by_cases hidle : (s'.abandoned generation fresh now later).isIdle = true
    · -- the entry goes; it would stay if its flows were kept
      rw [if_pos hidle]
      refine iff_of_false (fun heq => ?_) (fun hcond => ?_)
      · rw [← heq, lookup_erase] at hlook
        cases hlook
      · obtain ⟨hfresh, -, -, hflows, hkept⟩ := hcond s' rfl
        rw [isIdle_abandoned] at hidle
        rw [settle_settle_eq.mpr hkept] at hidle
        exact hflows (hidle hfresh)
    · rw [if_neg hidle, insert_eq_self_iff hlook]
      rw [isIdle_abandoned, not_forall] at hidle
      obtain ⟨hfresh, hflows⟩ := hidle
      rw [abandoned_eq, hfresh, if_neg Bool.false_ne_true]
      constructor
      · intro heq _ hs''
        obtain rfl := some.inj hs''
        have hsame : ((s'.settle now).settle later).flows = s'.flows := by
          have hflows' := congrArg flows heq
          exact hflows'
        rw [hsame] at hflows
        exact ⟨rfl, (congrArg owner heq).symm, (congrArg failed heq).symm,
          hflows, settle_settle_eq.mp hsame⟩
      · intro hcond
        obtain ⟨-, hown, hfailed, -, hkept⟩ := hcond s' rfl
        rw [settle_settle_eq.mpr hkept, ← hown, ← hfailed]

end MqttLib.Broker
