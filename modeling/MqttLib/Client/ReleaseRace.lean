/-
MqttLib.Client.ReleaseRace

The store of unacknowledged publishes and the store of pending PUBRELs.  The PUBREC handler
moves the identifier from the first to the second in one section, writes the PUBREL, and
stores it once more.  Another reader task can handle the PUBCOMP while the PUBREL is being
written; the second `store_pubrel` then brings a PUBREL back whose exchange is over.

Exchanges under one identifier are told apart by the count of PUBLISHes stored under it.  The
invariant `Apart` says what the two stores, the exchanges that are over and the handlers of
PUBCOMPs have to do with one another.
-/

import MqttLib.Client.Outbound

namespace MqttLib.Client.Outbound

open Foundation Protocol Function Finset

variable {s s' : State}

/-! ## The two stores -/

/-- The exchange whose PUBREL a handler found waiting. -/
def ReaderPhase.carried : ReaderPhase → Option (PacketId × Nat)
  | .accepted ack ends | .removingPublish ack ends | .removingPubrel ack ends =>
    ends.map fun n => (ack.packetId, n)
  | _ => none

/-- What a handler carries after the check of its acknowledgement. -/
theorem ReaderPhase.carried_checked (accepted : Bool) (ack : Ack) (ends : Option Nat) :
    (if accepted then ReaderPhase.accepted ack ends else .failed).carried =
      if accepted then ends.map fun n => (ack.packetId, n) else none := by
  cases accepted <;> rfl

structure Apart (publish pubrel : PacketId → Option Exchange) (stored : PacketId → Nat)
    (ended : Finset (PacketId × Nat)) (readers : Nat → ReaderPhase) : Prop where
  disjoint : ∀ id, publish id = none ∨ pubrel id = none
  ended : ∀ id n, (id, n) ∈ ended →
    n ≤ stored id ∧ (n = stored id → publish id = none ∧ pubrel id = none)
  carried : ∀ r id n, (readers r).carried = some (id, n) →
    n ≤ stored id ∧ (n = stored id → publish id = none)

def State.Apart (s : State) : Prop :=
  Outbound.Apart (s.held .publish) (s.held .pubrel) s.stored s.ended s.readers

namespace Apart

variable {publish pubrel publish' pubrel' : PacketId → Option Exchange}
  {stored : PacketId → Nat} {ended : Finset (PacketId × Nat)} {readers : Nat → ReaderPhase}

theorem initial : Apart (fun _ => none) (fun _ => none) (fun _ => 0) ∅ (fun _ => .idle) where
  disjoint _ := .inl rfl
  ended _ _ h := absurd h (notMem_empty _)
  carried _ _ _ h := by cases h

section

variable (hs : Apart publish pubrel stored ended readers) {id : PacketId}
include hs

/-- Taking entries away. -/
theorem fewer (hpubl : ∀ id, publish id = none → publish' id = none)
    (hpubrel : ∀ id, pubrel id = none → pubrel' id = none) :
    Apart publish' pubrel' stored ended readers where
  disjoint id := (hs.disjoint id).imp (hpubl id) (hpubrel id)
  ended id n h := by
    obtain ⟨hle, hgone⟩ := hs.ended id n h
    exact ⟨hle, fun heq => (hgone heq).imp (hpubl id) (hpubrel id)⟩
  carried r id n h := by
    obtain ⟨hle, hgone⟩ := hs.carried r id n h
    exact ⟨hle, fun heq => hpubl id (hgone heq)⟩

/-- A reader moves on. -/
theorem moving (r : Nat) (phase : ReaderPhase) (hph : ∀ id n, phase.carried = some (id, n) →
      n ≤ stored id ∧ (n = stored id → publish id = none)) :
    Apart publish pubrel stored ended (update readers r phase) where
  disjoint := hs.disjoint
  ended := hs.ended
  carried := (forall_update_iff readers fun _ phase => ∀ id n,
    phase.carried = some (id, n) → n ≤ stored id ∧ (n = stored id → publish id = none)).mpr
      ⟨hph, fun i _ => hs.carried i⟩

/-- A PUBLISH is stored under an identifier whose PUBREL is not pending.  It is one more than
all that have ended or are about to. -/
theorem entering {x : Exchange} (hfree : pubrel id = none) :
    Apart (update publish id (some x)) pubrel
      (update stored id (stored id + 1)) ended readers where
  disjoint i := by
    by_cases hi : i = id
    · rw [hi]
      exact .inr hfree
    · rw [update_of_ne hi]
      exact hs.disjoint i
  ended i n h := by
    obtain ⟨hle, hgone⟩ := hs.ended i n h
    by_cases hi : i = id
    · subst hi
      rw [update_self]
      exact ⟨by omega, fun heq => by omega⟩
    · rw [update_of_ne hi, update_of_ne hi]
      exact ⟨hle, hgone⟩
  carried r i n h := by
    obtain ⟨hle, hgone⟩ := hs.carried r i n h
    by_cases hi : i = id
    · subst hi
      rw [update_self]
      exact ⟨by omega, fun heq => by omega⟩
    · rw [update_of_ne hi, update_of_ne hi]
      exact ⟨hle, hgone⟩

/-- `complete_pubrec` moves the identifier of a stored PUBLISH. -/
theorem completing {x : Exchange} (hx : publish id = some x) :
    Apart (update publish id none) (update pubrel id (some x)) stored ended
      readers where
  disjoint i := by
    by_cases hi : i = id
    · rw [hi, update_self]
      exact .inl rfl
    · rw [update_of_ne hi, update_of_ne hi]
      exact hs.disjoint i
  ended i n h := by
    obtain ⟨hle, hgone⟩ := hs.ended i n h
    refine ⟨hle, fun heq => ?_⟩
    have hi : i ≠ id := by
      rintro rfl
      rw [(hgone heq).1] at hx
      cases hx
    rw [update_of_ne hi, update_of_ne hi]
    exact hgone heq
  carried r i n h := by
    obtain ⟨hle, hgone⟩ := hs.carried r i n h
    refine ⟨hle, fun heq => ?_⟩
    rw [update_apply]
    split
    · rfl
    · exact hgone heq

/-- The PUBCOMP of an exchange has been handled: its PUBREL is gone, and so is its PUBLISH. -/
theorem ending {r n : Nat} (hcarried : (readers r).carried = some (id, n))
    (hgone : pubrel id = none) :
    Apart publish pubrel stored (insert (id, n) ended) readers where
  disjoint := hs.disjoint
  ended i m h := by
    obtain heq | hold := mem_insert.mp h
    · cases heq
      obtain ⟨hle, hpubl⟩ := hs.carried r id n hcarried
      exact ⟨hle, fun heq => ⟨hpubl heq, hgone⟩⟩
    · exact hs.ended i m hold
  carried := hs.carried

end

end Apart

/-! ## Steps -/

/-- No PUBLISH is stored under an identifier whose PUBREL is pending, and the PUBREC handler
stores its PUBREL again only while it is pending. -/
def paired (s : State) : Action → Bool
  | .enter k _ =>
    match s.callers k with
    | .holding x => x.purpose != .publish || (s.held .pubrel x.packetId).isNone
    | _ => true
  | .transferQueued k _ =>
    match s.callers k with
    | .queued x => (s.held .pubrel x.packetId).isNone
    | _ => true
  | .store r =>
    match s.readers r with
    | .storing id _ => (s.held .pubrel id).isSome
    | _ => true
  | _ => true

namespace State.Apart

variable {k : Task} {r : Nat} {id : PacketId} {qos : QoS}

section

variable (hs : s.Apart)
include hs

/-- A reader moves on with what it carried before, or with nothing. -/
theorem setReader {phase : ReaderPhase}
    (hph : phase.carried = none ∨ phase.carried = (s.readers r).carried) :
    (s.setReader r phase).Apart := by
  refine Outbound.Apart.moving hs r phase fun id n h => ?_
  obtain hnone | hsame := hph
  · rw [hnone] at h
    cases h
  · exact hs.carried r id n (hsame ▸ h)

/-- Taking an entry away. -/
theorem remove (place : Place) (id : PacketId) : (s.put place id none).Apart := by
  have hfewer : ∀ p i, s.held p i = none → (s.put place id none).held p i = none := by
    intro p i h
    show s.held.put place id none p i = none
    rw [Tables.put_apply]
    split
    · rfl
    · exact h
  exact hs.fewer (hfewer .publish) (hfewer .pubrel)

theorem reserve {purpose : Purpose} (h : s.reserve k purpose id = some s') : s'.Apart := by
  unfold State.reserve at h
  split at h
  · split at h <;> cases h
    exact hs
  · cases h

theorem enter (hpaired : paired s (.enter k qos)) (h : s.enter k qos = some s') : s'.Apart := by
  unfold State.enter at h
  split at h
  case h_2 => cases h
  case h_1 x hph =>
    split at h
    · rename_i hpurpose
      cases h
      have hfree : s.held .pubrel x.packetId = none := by
        simp only [paired, hph, hpurpose] at hpaired
        simpa using hpaired
      exact Outbound.Apart.entering hs hfree
    · cases h
      exact hs
    · cases h
      exact hs

theorem transferQueued (hpaired : paired s (.transferQueued k qos))
    (h : s.transferQueued k qos = some s') : s'.Apart := by
  unfold State.transferQueued at h
  split at h
  case h_2 => cases h
  case h_1 x hx _ =>
    cases h
    have hfree : s.held .pubrel x.packetId = none := by
      simp only [paired, hx] at hpaired
      exact Option.isNone_iff_eq_none.mp hpaired
    exact Outbound.Apart.entering hs hfree

theorem drop (h : s.drop k = some s') : s'.Apart := by
  unfold State.drop at h
  split at h <;> cases h <;> exact hs

theorem enqueue (h : s.enqueue k = some s') : s'.Apart := by
  unfold State.enqueue at h
  split at h
  · split at h <;> cases h
    exact hs
  · cases h

theorem finishTransfer (h : s.finishTransfer = some s') : s'.Apart := by
  unfold State.finishTransfer at h
  split at h
  · split at h <;> cases h
    exact hs
  · cases h
    exact hs.remove .publish _
  · cases h

theorem abandon (h : s.abandon id = some s') : s'.Apart := by
  unfold State.abandon at h
  split at h
  · cases h
    split <;> exact hs
  · cases h

theorem answer {unsubscribe : Bool} (h : s.answer unsubscribe id = some s') : s'.Apart := by
  unfold State.answer at h
  cases h
  exact hs.remove _ id

theorem receive {ack : Ack} (h : s.receive r ack = some s') : s'.Apart := by
  unfold State.receive at h
  split at h <;> cases h
  exact hs.setReader (.inl rfl)

theorem lookPublish (h : s.lookPublish r = some s') : s'.Apart := by
  unfold State.lookPublish at h
  split at h
  case h_2 => cases h
  split at h <;> cases h
  · exact hs.setReader (.inl rfl)
  · refine hs.setReader (.inl ?_)
    rw [ReaderPhase.carried_checked]
    exact ite_self none

/-- Where a PUBREL is found pending, the PUBLISH of the exchange is gone. -/
theorem lookPubrel (h : s.lookPubrel r = some s') : s'.Apart := by
  unfold State.lookPubrel at h
  split at h
  case h_2 => cases h
  case h_1 ack _ =>
    split at h <;> cases h
    · exact hs.setReader (.inl rfl)
    · rename_i x hx
      have hgone : s.held .publish ack.packetId = none := by
        refine (hs.disjoint ack.packetId).resolve_right fun hnone => ?_
        rw [hx] at hnone
        cases hnone
      refine Outbound.Apart.moving hs r _ fun id n hn => ?_
      rw [ReaderPhase.carried_checked] at hn
      obtain ⟨-, heq⟩ := Option.ite_none_right_eq_some.mp hn
      cases heq
      exact ⟨le_rfl, fun _ => hgone⟩

theorem completePubrec (id : PacketId) : (s.completePubrec id).Apart := by
  unfold State.completePubrec
  split
  · rename_i x hx
    exact Outbound.Apart.completing hs hx
  · exact hs

theorem settle (h : s.settle r = some s') : s'.Apart := by
  unfold State.settle at h
  split at h
  · cases h
    exact (hs.completePubrec _).setReader (.inl rfl)
  · rename_i hr
    cases h
    exact (hs.remove .publish _).setReader (.inr (congrArg ReaderPhase.carried hr).symm)
  · rename_i hr
    cases h
    exact hs.setReader (.inr (congrArg ReaderPhase.carried hr).symm)
  · cases h

theorem removePublish (h : s.removePublish r = some s') : s'.Apart := by
  unfold State.removePublish at h
  split at h
  case h_2 => cases h
  case h_1 hr =>
    cases h
    exact (hs.remove .publish _).setReader (.inr (congrArg ReaderPhase.carried hr).symm)

theorem removePubrel (h : s.removePubrel r = some s') : s'.Apart := by
  unfold State.removePubrel at h
  split at h
  case h_2 => cases h
  case h_1 ack ends hr =>
    cases h
    have hremoved := hs.remove .pubrel ack.packetId
    dsimp only
    split
    · rename_i id n
      -- The exchange ends here; its identifier is the one that was just removed.
      have hcarried : (s.readers r).carried = some (id, n) := congrArg ReaderPhase.carried hr
      have hended := Outbound.Apart.ending hremoved hcarried
        (Tables.put_same s.held .pubrel id none)
      exact Outbound.Apart.moving hended r .idle fun _ _ hn => by cases hn
    · exact hremoved.setReader (.inl rfl)

theorem write {ok : Bool} (h : s.write r ok = some s') : s'.Apart := by
  unfold State.write at h
  split at h <;> cases h
  refine hs.setReader (.inl ?_)
  split <;> rfl

/-- Under the condition the PUBREL is still pending, and storing it again changes nothing. -/
theorem store (hpaired : paired s (.store r)) (h : s.store r = some s') : s'.Apart := by
  unfold State.store at h
  split at h
  case h_2 => cases h
  case h_1 id of hr =>
    cases h
    simp only [paired, hr] at hpaired
    obtain ⟨x, hx⟩ := Option.isSome_iff_exists.mp hpaired
    rw [hx]
    exact hs.setReader (.inl rfl)

theorem reconnect {present resume : Bool} (h : s.reconnect present resume = some s') :
    s'.Apart := by
  unfold State.reconnect at h
  split at h
  case isFalse => cases h
  split at h <;> cases h
  · exact hs
  · exact hs.fewer (fun _ _ => rfl) (fun _ _ => rfl)

theorem step {a : Action} (hpaired : paired s a) (h : act s a = some s') : s'.Apart := by
  cases a with
  | reserve k _ id => exact hs.reserve h
  | enter k qos => exact hs.enter hpaired h
  | drop k => exact hs.drop h
  | enqueue k => exact hs.enqueue h
  | transferQueued k qos => exact hs.transferQueued hpaired h
  | finishTransfer => exact hs.finishTransfer h
  | abandon id => exact hs.abandon h
  | answer _ id => exact hs.answer h
  | receive r _ => exact hs.receive h
  | lookPublish r => exact hs.lookPublish h
  | lookPubrel r => exact hs.lookPubrel h
  | settle r => exact hs.settle h
  | removePublish r => exact hs.removePublish h
  | removePubrel r => exact hs.removePubrel h
  | write r _ => exact hs.write h
  | store r => exact hs.store hpaired h
  | reconnect _ _ => exact hs.reconnect h

end

end State.Apart

/-! ## Runs -/

/-- In every run in which no PUBLISH is stored under the identifier of a pending PUBREL and no
PUBREC handler stores a PUBREL again that is no longer pending, an identifier is never in
both stores, and neither store holds it from the moment the PUBCOMP of its last exchange
has been handled. -/
theorem release_stores_apart {s : State}
    (hrun : Reachable act (fun s a => paired s a = true) {} s) :
    (∀ id, s.held .publish id = none ∨ s.held .pubrel id = none) ∧
      ∀ id, (id, s.stored id) ∈ s.ended →
        s.held .publish id = none ∧ s.held .pubrel id = none := by
  have hs : s.Apart := hrun.invariant Outbound.Apart.initial
    fun _ _ _ hs hpaired hstep => hs.step hpaired hstep
  exact ⟨hs.disjoint, fun id hended => (hs.ended id _ hended).2 rfl⟩

/-- A caller publishes with QoS 2 under the first identifier. -/
def publishing : List Action :=
  [.reserve 0 .publish 1, .enter (.request 0) .exactlyOnce, .drop (.request 0)]

/-- Reader `r` handles a PUBREC up to the write of the PUBREL. -/
def pubrecWritten (r : Nat) : List Action :=
  [.receive r (.pubrec 1 false), .lookPublish r, .settle r, .write r true]

/-- Reader `r` handles the PUBCOMP. -/
def pubcompHandled (r : Nat) : List Action :=
  [.receive r (.pubcomp 1), .lookPublish r, .lookPubrel r, .settle r, .removePublish r,
    .removePubrel r]

/-- One reader after the other: the exchange is over, and its identifier is free. -/
theorem release_stores_apart_in_turn :
    ∃ s, Reachable act (fun s a => paired s a = true) {} s ∧ (1, s.stored 1) ∈ s.ended ∧
      s.held .publish 1 = none ∧ s.held .pubrel 1 = none := by
  have hrun := Reachable.start.follow_guarded (show follow
    (fun s a => if paired s a = true then act s a else none) {}
    (publishing ++ pubrecWritten 0 ++ [.store 0] ++ pubcompHandled 0) = some _ from rfl)
  exact ⟨_, hrun, mem_insert_self _ _, (release_stores_apart hrun).2 1 (mem_insert_self _ _)⟩

/-- The PUBCOMP is handled by another reader while the first one writes its PUBREL: when all
handlers have finished, the PUBREL of the exchange that is over is pending again. -/
theorem pubrel_pending_after_pubcomp :
    ∃ s, follow act {} (publishing ++ pubrecWritten 0 ++ pubcompHandled 1 ++ [.store 0]) = some s ∧
      (∀ r, s.readers r = .idle) ∧ (1, s.stored 1) ∈ s.ended ∧ s.stored 1 = 1 ∧
      s.held .pubrel 1 = some ⟨0, 1, .publish⟩ := by
  refine ⟨_, rfl, fun r => ?_, mem_insert_self _ _, rfl, rfl⟩
  match r with
  | 0 => rfl
  | 1 => rfl
  | _ + 2 => rfl

end MqttLib.Client.Outbound
