/-
MqttLib.Broker.HandOff

What a connection that ends or is displaced leaves behind (`requeue_unsent`): all that it
had not finished is at the front of the queue, once, or recorded as waiting for PUBCOMP.
-/

import MqttLib.Broker.Conservation

namespace MqttLib.Broker.Delivery

open Foundation Storage Multiset Outbound List Bool
open MqttLib.Broker.Ownership (Exit)

variable {α : Type*}

section

variable {s : State α} {g : Nat} {registered : Option Nat} {records : Records α}

/-! ## What is handed back -/

/-- The PUBREC of the message has succeeded. -/
def Handler.Awaits (h : Handler α) (d : Delivery) : Prop :=
  ∃ id m, h.outbound.inflight.lookup id = some m ∧ m.delivery = d ∧
    id ∈ h.outbound.awaitingPubcomp

/-- The message is in the queue, once, and nowhere else in the session. -/
def State.Queued (s : State α) (d : Delivery) : Prop :=
  (s.queue.messages.map Message.delivery).count d = 1 ∧ d ∉ s.records.deliveries

/-- The message has one record, which waits for PUBCOMP, and is not in the queue. -/
def State.Recorded (s : State α) (d : Delivery) : Prop :=
  d ∉ s.queue.messages.map Message.delivery ∧ s.records.deliveries.count d = 1 ∧
    ∃ id record, s.records.lookup id = some record ∧ record.message.delivery = d ∧
      record.phase = .awaitingPubcomp

/-- What a connection leaves behind: its messages at the front of the queue in the order of
its sends, then those it held, then those of its lane, each of them once, and the records
of those that wait for PUBCOMP. -/
structure HandedBack (s : State α) (g : Nat) (s' : State α) : Prop where
  front : s'.queue.messages =
    (s.handlers g).outbound.unacked.map Prod.snd ++ (s.handlers g).held ++
      (s.handlers g).lane.contents.map (fun m => { m with packetId := none }) ++ s.queue.messages
  order : ((s.handlers g).outbound.unacked.map fun e => e.2.delivery).Sublist (s.handlers g).sends
  queued : ∀ d, d ∈ (s.handlers g).holdings ∨ d ∈ (s.handlers g).outbound.line ∨
      d ∈ s.queue.messages.map Message.delivery →
    ¬(s.handlers g).Awaits d → s'.Queued d
  recorded : ∀ d, (s.handlers g).Awaits d → s'.Recorded d
  emptied : (s'.handlers g).holdings = 0 ∧ (s'.handlers g).outbound.line = []
  history : s'.history = s.history

theorem Inv.queued (h : Inv s) {d : Delivery}
    (hmem : d ∈ s.queue.messages.map Message.delivery) : s.Queued d := by
  have hnd := h.stock_nodup
  unfold State.stock at hnd
  rw [add_assoc] at hnd
  obtain ⟨hqueue, -, hdisjoint⟩ := nodup_add.mp hnd
  refine ⟨count_eq_one_of_mem (coe_nodup.mp hqueue) hmem, fun hrec => ?_⟩
  exact disjoint_left.mp hdisjoint (mem_coe.mpr hmem) (mem_add.mpr (Or.inr hrec))

theorem Inv.recorded (h : Inv s) {id : UInt16} {record : InflightRecord α}
    (hlook : s.records.lookup id = some record) (hph : record.phase = .awaitingPubcomp) :
    s.Recorded record.message.delivery := by
  have hmem : record.message.delivery ∈ s.records.deliveries := by
    rw [Records.deliveries_erase hlook]
    exact mem_cons_self _ _
  have hnd := h.stock_nodup
  unfold State.stock at hnd
  have hrecs := (nodup_add.mp hnd).2.1
  refine ⟨fun hqueue => (h.queued hqueue).2 hmem,
    count_eq_one_of_mem hrecs hmem, id, record, hlook, rfl, hph⟩

/-- What is in flight and does not wait for PUBCOMP is handed back. -/
theorem Sound.mem_unsent {epoch : Nat} {h : Handler α} (hs : Sound registered epoch records g h)
    {d : Delivery} (hmem : d ∈ h.outbound.line) (hawaits : ¬h.Awaits d) :
    d ∈ h.outbound.unacked.map fun e => e.2.delivery := by
  obtain ⟨id, hid, hmap⟩ := mem_filterMap.mp hmem
  obtain ⟨m, hlook, rfl⟩ := Option.map_eq_some_iff.mp hmap
  have hload : h.loaded := by
    rw [← not_eq_false]
    intro hl
    rw [(hs.fresh hl).1.order] at hid
    cases hid
  have htrk := hs.tracked hload
  rw [htrk.unacked_deliveries]
  exact htrk.mem_unackedLine hlook fun hin => hawaits ⟨id, m, hlook, rfl, hin⟩

theorem Sound.unacked_sublist {epoch : Nat}
    {h : Handler α} (hs : Sound registered epoch records g h) :
    (h.outbound.unacked.map fun e => e.2.delivery).Sublist h.sends := by
  cases hload : h.loaded with
  | true =>
    rw [(hs.tracked hload).unacked_deliveries]
    exact hs.sends
  | false =>
    unfold unacked
    rw [(hs.fresh hload).1.order]
    exact nil_sublist _

theorem Inv.handedBack [Publishable α] (h : Inv s) {exit : Exit} (hph : (s g).phase = .closing exit)
    (hperm : (s g).lane.permits = ∅) (hregl : Regular s (.requeue g)) :
    ∃ s', act s (.requeue g) = some s' ∧ HandedBack s g s' := by
  have hs := h.sound g
  have hact : ∃ s', s.requeue g = some s' ∧
      s'.queue = (s.queue.requeueFrontInEpoch (s g).unsent (s g).epoch).1 ∧
      s'.records = s.records.without ((s g).outbound.unacked.map Prod.fst) ∧
      s'.history = s.history ∧ (s' g).holdings = 0 ∧
      (s' g).outbound.line = [] := by
    unfold State.requeue
    dsimp only
    rw [hph]
    dsimp only
    rw [if_neg (by simp [hperm])]
    refine ⟨_, rfl, rfl, rfl, rfl, ?_, ?_⟩
    · simp [State.setHandler, Handler.holdings, Phase.pending]
    · simp [State.setHandler, emptied, line, lineOf]
  obtain ⟨s', hreq, hqueue, hrecs, hhistory, hhldg, hline⟩ := hact
  have hinv := h.requeue hregl hreq
  have hepoch := hs.epoch (by rw [hph]; rfl)
  have hmsgs : s'.queue.messages = (s g).unsent ++ s.queue.messages := by
    rw [hqueue]
    exact ClientQueue.messages_requeueFrontInEpoch hepoch.symm hregl
  refine ⟨s', hreq, hmsgs, hs.unacked_sublist, fun d hd hawaits => ?_,
    fun d hawaits => ?_, ⟨hhldg, hline⟩, hhistory⟩
  · apply hinv.queued
    rw [hmsgs, map_append, Handler.unsent_deliveries]
    simp only [mem_append]
    rcases hd with hheld | hinfl | hqueued
    · -- a closing connection has no batch
      simp only [Handler.holdings, hph, Phase.pending, append_nil, map_append,
        mem_coe, mem_append] at hheld
      tauto
    · exact Or.inl (Or.inl (Or.inl (hs.mem_unsent hinfl hawaits)))
    · exact Or.inr hqueued
  · obtain ⟨id, m, hlook, rfl, hin⟩ := hawaits
    have htrk := hs.tracked (h.loaded_of_lookup hlook)
    have hkept := htrk.lookup_requeued hlook hin
    rw [← hrecs] at hkept
    exact hinv.recorded hkept rfl

/-- In every regular run, each message that has entered a lane or the queue is finished, or
has been discarded as too large, or is in exactly one place; and a connection that has
closed its lane, once the reserved places are used, hands back all it owns. -/
theorem handOff_conserves [Publishable α] {s₀ s : State α} (hinitial : Initial s₀)
    (hrun : Run Regular s₀ s) :
    s.history.accepted.Nodup ∧
      s.history.accepted = s.history.finished + s.history.discarded + s.stock ∧
      ∀ g exit, (s.handlers g).phase = .closing exit → (s.handlers g).lane.permits = ∅ →
        Regular s (.requeue g) → ∃ s', act s (.requeue g) = some s' ∧ HandedBack s g s' := by
  have hinv := Run.inv (fun _ _ hregular => hregular) hinitial hrun
  exact ⟨hinv.nodup, hinv.ledger, fun g exit hphase hpermits hregular =>
    hinv.handedBack hphase hpermits hregular⟩

/-- In every regular run at most one connection has the window of the session, also while it is
taken over; while none has, what is stored waits for PUBCOMP; and the queue counts the displaced
connections that have not handed back. -/
theorem window_has_one_owner [Publishable α] {s₀ s : State α} (hinitial : Initial s₀)
    (hrun : Run Regular s₀ s) :
    (∀ g k, (s.handlers g).loaded → (s.handlers k).loaded → g = k) ∧
    ((∀ g, (s.handlers g).loaded = false) →
      ∀ id record, s.records.lookup id = some record → record.phase = .awaitingPubcomp) ∧
    s.queue.handoffs = ∑ g ∈ Finset.range s.nextGeneration, (s.handlers g).notice.toNat := by
  have hinv := Run.inv (fun _ _ hregular => hregular) hinitial hrun
  exact ⟨hinv.single, hinv.parked, hinv.notices⟩

end

/-! ## Runs on messages of which only the size matters -/

/-- The size of a PUBLISH when encoded. -/
structure Payload where
  size : Nat
  deriving DecidableEq, Repr

instance : Publishable Payload where
  entryBytes payload := payload.size
  expiresAt _ := none
  recomputeExpiry payload := payload
  encodedSize payload := some payload.size

/-- Every step of a run passes a check in the state it is taken in. -/
def checked [Publishable α] (check : State α → Action α → Bool) (s : State α) :
    List (Action α) → Bool
  | [] => true
  | a :: actions => check s a && (act s a).all fun s' => checked check s' actions

theorem Run.acts [Publishable α] {condition : State α → Action α → Prop}
    {check : State α → Action α → Bool} (hcheck : ∀ s a, check s a → condition s a)
    {s₀ s s' : State α} {actions : List (Action α)} (hrun : Run condition s₀ s)
    (hchk : checked check s actions) (hacts : acts s actions = some s') :
    Run condition s₀ s' := by
  induction actions generalizing s with
  | nil =>
    cases hacts
    exact hrun
  | cons a actions ih =>
    obtain ⟨t, hstep, hrest⟩ := Option.bind_eq_some_iff.mp
      (show (act s a).bind (fun t => Delivery.acts t actions) = some s' from hacts)
    rw [checked, hstep, and_eq_true] at hchk
    exact ih (hrun.step (hcheck s a hchk.1) hstep) hchk.2 hrest

/-- A check for the runs below: a connection binds before anything is recorded, and the
identifier its counter stands at is free. -/
def plainly (s : State Payload) : Action Payload → Bool
  | .bind _ waived sorted _ =>
    !waived && s.queue.handoffs == 0 && sorted.isEmpty && s.records.entries.card == 0
  | .receive g _ | .next g _ | .sendNext g _ =>
    let o := (s.handlers g).outbound
    o.nextPacketId != 0 && !o.inUse o.nextPacketId
  | .take _ now => s.queue.entries.all fun entry => !entry.isExpired now
  | .mark g now =>
    match (s.handlers g).phase with
    | .taking entries =>
      entries.all fun entry => (ClientQueue.readEntry (fun _ => none) now entry).isSome
    | _ => true
  | .requeue g => (s.handlers g).unsent.isEmpty || s.queue.HasRoom (s.handlers g).unsent
  | .finish g =>
    (s.handlers g).lane.contents.isEmpty && decide ((s.handlers g).lane.permits = ∅)
  | .proceed .. | .push _ | .puback .. => false
  | _ => true

theorem regular_of_plainly (s : State Payload) (a : Action Payload) (h : plainly s a) :
    Regular s a := by
  cases a with
  | bind g _ _ _ =>
    simp only [plainly, and_eq_true, not_eq_true', beq_iff_eq, List.isEmpty_iff, card_eq_zero] at h
    obtain ⟨⟨⟨hwaived, hoffs⟩, rfl⟩, hents⟩ := h
    have hrecs : s.records = ∅ := Finmap.ext hents
    exact ⟨hwaived, hoffs, hrecs ▸ Table.lists_empty⟩
  | receive g written | next g written | sendNext g written =>
    simp only [plainly, and_eq_true, bne_iff_ne, not_eq_true'] at h
    first
    | exact ⟨⟨_, h⟩, fun _ _ => rfl⟩
    | exact fun _ => ⟨⟨_, h⟩, fun _ _ => rfl⟩
  | take g now => simpa [plainly, Regular] using h
  | mark g now =>
    intro _ hph
    simpa [plainly, hph] using h
  | requeue g =>
    rw [plainly, or_eq_true, List.isEmpty_iff, decide_eq_true_iff] at h
    exact h
  | finish g =>
    rw [plainly, and_eq_true, List.isEmpty_iff, decide_eq_true_iff] at h
    exact fun _ _ => h
  | proceed g cut | push p | puback g id => cases h
  | _ => trivial

/-- A router puts a message of the publisher into the lane of the connection. -/
def toLane (p size : Nat) : List (Action Payload) :=
  [.plan p ⟨size⟩ false, .readFlag p, .readFlag p, .readFlag p, .readFlag p, .trySend p false]

/-- A connection that takes packets of up to `maxPacketSize` bytes. -/
def arriving (g : Nat) (maxPacketSize : Option Nat) : List (Action Payload) :=
  [.expect 4 4 4 maxPacketSize, .register g, .connected g]

/-- The messages of the queue, of the records and of a lane. -/
def observe (g : Nat) (s : State Payload) : List Delivery × Multiset Delivery × List Delivery :=
  (s.queue.messages.map Message.delivery, s.records.deliveries,
    (s.handlers g).lane.contents.map Message.delivery)

/-- Two messages are in the lane of a connection that has just bound. -/
def laneRun : List (Action Payload) := .turn 1 :: toLane 0 8 ++ toLane 0 9

/-- A second connection displaces the first, which closes its lane. -/
def displacedRun : List (Action Payload) :=
  arriving 2 none ++ [.endBatch 1, .turn 1, .takenOver 1, .closeLane 1]

/-- The first connection has sent one of two messages when it is displaced. -/
theorem handOff_conserves_takeOver :
    ∃ s s' : State Payload, Run Regular {} s ∧ act s (.requeue 1) = some s' ∧
      HandedBack s 1 s' ∧ observe 1 s = ([], {⟨0, 0⟩}, [⟨0, 1⟩]) ∧
      observe 1 s' = ([⟨0, 0⟩, ⟨0, 1⟩], 0, []) := by
  have hrun := Run.acts regular_of_plainly .start (by decide) (show acts ({} : State Payload)
    (arriving 1 none ++ .bind 1 false [] none :: laneRun ++ .receive 1 true :: displacedRun) =
      some _ from rfl)
  obtain ⟨-, -, hhandsBack⟩ := handOff_conserves
    ⟨rfl, rfl, rfl, rfl, fun _ => rfl, fun _ => rfl, rfl⟩ hrun
  obtain ⟨s', hact, hhanded⟩ := hhandsBack 1 .takenOver rfl rfl (.inr (by decide))
  obtain rfl := Option.some.inj hact
  exact ⟨_, _, hrun, rfl, hhanded, by decide, by decide⟩

/-- The first connection still has the window when the second has displaced it. -/
theorem window_has_one_owner_takeOver : ∃ s : State Payload, Run Regular {} s ∧
    s.registered = some 2 ∧ (s.handlers 1).loaded ∧ ¬ (s.handlers 2).loaded := by
  have hrun := Run.acts regular_of_plainly .start (by decide) (show acts ({} : State Payload)
    (arriving 1 none ++ .bind 1 false [] none :: laneRun ++ arriving 2 none) = some _ from rfl)
  obtain ⟨hone, -⟩ := window_has_one_owner
    ⟨rfl, rfl, rfl, rfl, fun _ => rfl, fun _ => rfl, rfl⟩ hrun
  exact ⟨_, hrun, rfl, rfl, fun h => absurd (hone 1 2 rfl h) (by decide)⟩

/-- A PUBLISH of ten bytes for a client that takes packets of up to five. -/
def oversizeRun : List (Action Payload) :=
  arriving 1 (some 5) ++ [.bind 1 false [] none, .turn 1] ++ toLane 0 10

/-- The message is in the lane, and it is discarded there: when the connection has ended it is
neither in the queue nor recorded, and no acknowledgement has finished it. -/
theorem oversize_not_handed_back :
    (acts {} oversizeRun).map (observe 1) = some ([], 0, [⟨0, 0⟩]) ∧
      (acts {} (oversizeRun ++
        [.receive 1 true, .endBatch 1, .turn 1, .close 1, .closeLane 1, .requeue 1])).map
          (fun s => (observe 1 s, s.history.finished)) = some (([], 0, []), 0) := by
  decide

end MqttLib.Broker.Delivery
