/-
MqttLib.Broker.Window

The outbound window of a connection.  Someone who watches the packets of a connection notes
the identifier of every QoS 1 or 2 PUBLISH that is sent, and strikes it out at a PUBACK, a
PUBCOMP or a PUBREC with an error; what is left never exceeds the window, whatever the
client acknowledges, as long as there is an identifier to give out.
-/

import MqttLib.Broker.HandOff

namespace MqttLib.Broker.Delivery

open Foundation Storage Function Outbound Handler Finmap Finset
open MqttLib.Broker.Ownership (Exit Release)

variable {α : Type*}

/-! ## Watching the connections -/

/-- A PUBLISH has been sent on the connection. -/
def Publishes (s s' : State α) (g : Nat) : Prop :=
  (s.handlers g).sends.length < (s'.handlers g).sends.length

instance (s s' : State α) (g : Nat) : Decidable (Publishes s s' g) :=
  inferInstanceAs (Decidable (_ < _))

/-- The notes after a step; there are none about a new connection. -/
def watch (s : State α) (a : Action α) (s' : State α) (notes : Nat → List UInt16) :
    Nat → List UInt16 :=
  match a with
  | .expect .. => update notes s.nextGeneration []
  | .puback g id | .pubcomp g id | .pubrec g id true _ =>
    update notes g ((notes g).erase id)
  | .receive g _ | .next g _ | .sendNext g _ =>
    if Publishes s s' g then
      update notes g (notes g ++ (s'.handlers g).outbound.order.getLast?.toList)
    else notes
  | _ => notes

/-- Runs whose steps meet a condition, with the notes taken along the way. -/
inductive Watched [Publishable α] (condition : State α → Action α → Prop) (s₀ : State α) :
    State α → (Nat → List UInt16) → Prop where
  | start : Watched condition s₀ s₀ fun _ => []
  | step {s s' : State α} {a : Action α} {notes : Nat → List UInt16}
      (run : Watched condition s₀ s notes) (met : condition s a) (enabled : act s a = some s') :
      Watched condition s₀ s' (watch s a s' notes)

/-- `outbound_window`: what the client takes and what the configuration allows, but not 0. -/
def outboundWindow (receiveMaximum maxOutboundInflight : Nat) : Nat :=
  max (min receiveMaximum maxOutboundInflight) 1

/-- Every connection is set up with the Receive Maximum of its own CONNECT. -/
def Configured (receiveMaximum : Nat → Nat) (maxOutboundInflight : Nat) (s : State α) :
    Action α → Prop
  | .expect _ window _ _ => window = min (receiveMaximum s.nextGeneration) maxOutboundInflight
  | _ => True

/-- Where a PUBLISH may be sent, there is an identifier that is not in use. -/
def Supplied (s : State α) : Action α → Prop
  | .receive g _ | .next g _ | .sendNext g _ =>
    ∃ id, id ≠ 0 ∧ (s.handlers g).outbound.inUse id = false
  | _ => True

/-! ## The invariant -/

/-- How many messages the connection may send before it looks at the window again. -/
def Phase.room : Phase α → Nat
  | .selecting _ windowOpen => windowOpen.toNat
  | .checked limit => limit
  | .taking entries => entries.length
  | .sending pending | .sent pending => pending.length
  | _ => 0

/-- Before the loop. -/
def Phase.early : Phase α → Bool
  | .idle | .expecting | .connecting | .starting => true
  | _ => false

/-- What holds of one connection, whose window is within the limit, and of the notes about
it. -/
structure Gate (limit : Nat) (h : Handler α) (notes : List UInt16) : Prop where
  window : h.window ≤ limit
  room : h.phase.room ≤ h.free
  next : h.outbound.nextPacketId ≠ 0
  early : h.phase.early = true → notes = []
  nodup : notes.Nodup
  count : notes.length ≤ h.window
  inflight : h.phase.working = true → ∀ id ∈ notes, (h.outbound.inflight.lookup id).isSome

section

variable {s s' : State α} {g : Nat} {notes : Nat → List UInt16} {limit : Nat → Nat}

variable {b room : Nat} {h h' : Handler α} {l : List UInt16} {written : Bool} {id : UInt16}
  {inflight : Table UInt16 (Message α)} {receiveMaximum : Nat → Nat}

open State

theorem gate_default (hpos : 1 ≤ b) : Gate b ({} : Handler α) [] where
  window := hpos
  room := Nat.zero_le _
  next := by
    show (1 : UInt16) ≠ 0
    decide
  early _ := rfl
  nodup := List.nodup_nil
  count := Nat.zero_le _
  inflight _ _ hid := by cases hid

/-- Only the phase, the window and its size matter. -/
theorem Gate.congr (hgate : Gate b h l) (hph : h'.phase = h.phase)
    (hout : h'.outbound = h.outbound) (hwin : h'.window = h.window) : Gate b h' l := by
  refine ⟨hwin ▸ hgate.window, ?_, hout ▸ hgate.next, hph ▸ hgate.early, hgate.nodup,
    hwin ▸ hgate.count, ?_⟩
  · unfold free
    rw [hph, hout, hwin]
    exact hgate.room
  · rw [hph, hout]
    exact hgate.inflight

/-- The connection moves on without sending. -/
theorem Gate.move (hgate : Gate b h l) (hroom : h'.phase.room ≤ h.free)
    (hwork : h'.phase.working → h.phase.working ∨ h.phase.early)
    (hearly : h'.phase.early → h.phase.early) (hout : h'.outbound = h.outbound)
    (hwin : h'.window = h.window) : Gate b h' l := by
  refine ⟨hwin ▸ hgate.window, ?_, hout ▸ hgate.next, fun hp => hgate.early (hearly hp),
    hgate.nodup, hwin ▸ hgate.count, fun hw id hid => ?_⟩
  · unfold free
    rw [hout, hwin]
    exact hroom
  · rw [hout]
    rcases hwork hw with hold | hold
    · exact hgate.inflight hold id hid
    · rw [hgate.early hold] at hid
      cases hid

/-- The connection sends nothing more for now, and notes are at most struck out. -/
theorem Gate.still (hgate : Gate b h l) {l' : List UInt16} (hsub : l'.Sublist l)
    (hroom : h'.phase.room = 0) (hlate : h'.phase.early = false) (hwin : h'.window = h.window)
    (hnext : h'.outbound.nextPacketId ≠ 0)
    (hin : h'.phase.working → ∀ id ∈ l', (h'.outbound.inflight.lookup id).isSome) :
    Gate b h' l' where
  window := hwin ▸ hgate.window
  room := by
    rw [hroom]
    exact Nat.zero_le _
  next := hnext
  early hp := by
    rw [hlate] at hp
    cases hp
  nodup := hgate.nodup.sublist hsub
  count := hwin ▸ hsub.length_le.trans hgate.count
  inflight := hin

/-- The gates of all connections. -/
def Gates (limit : Nat → Nat) (handlers : Nat → Handler α) (notes : Nat → List UInt16) : Prop :=
  ∀ k, Gate (limit k) (handlers k) (notes k)

/-- One connection changes, and the notes about it. -/
theorem Gates.change (hgates : Gates limit s.handlers notes) (g : Nat) (hg : Gate (limit g) h' l) :
    Gates limit (update s.handlers g h') (update notes g l) := by
  intro k
  by_cases hk : k = g
  · subst hk
    rw [update_self, update_self]
    exact hg
  · rw [update_of_ne hk, update_of_ne hk]
    exact hgates k

/-- One connection changes, and the notes stay as they are. -/
theorem Gates.set (hgates : Gates limit s.handlers notes) (hg : Gate (limit g) h' (notes g)) :
    Gates limit (update s.handlers g h') notes := by
  have hupd := hgates.change g hg
  rwa [update_eq_self] at hupd

/-- A connection goes on in its loop. -/
theorem Gates.work (hgates : Gates limit s.handlers notes) (hwork : (s g).phase.working)
    (hroom : h'.phase.room ≤ (s g).free) (hlate : h'.phase.early = false)
    (hout : h'.outbound = (s g).outbound) (hwin : h'.window = (s g).window) :
    Gates limit (update s.handlers g h') notes :=
  hgates.set ((hgates g).move hroom (fun _ => .inl hwork) (by simp [hlate]) hout hwin)

/-! ## Sending -/

theorem sendPublish_cases [Publishable α] {o : Outbound α} (hnext : o.nextPacketId ≠ 0)
    (hfree : ∃ id, id ≠ 0 ∧ o.inUse id = false) (records : Records α) (m : Message α) :
    ∃ next, next ≠ 0 ∧
      ((∃ result, result ≠ .sent ∧
          o.sendPublish records m = (result, { o with nextPacketId := next }, records)) ∨
        ∃ id publish records', id ≠ 0 ∧ o.inflight.lookup id = none ∧
          o.sendPublish records m =
            (.sent,
              { o with
                nextPacketId := next
                order := o.order.filter (· ≠ id) ++ [id]
                inflight := o.inflight.insert id publish },
              records')) := by
  obtain ⟨id, next, htake, hunused, hnext'⟩ := takePacketId_spec hnext hfree m
  have hid := takePacketId_ne_zero hnext m
  rw [htake] at hid
  refine ⟨next, hnext', ?_⟩
  unfold sendPublish
  rw [htake]
  cases hsize : Publishable.encodedSize m.content with
  | none => exact .inl ⟨.failed, by simp, rfl⟩
  | some _ =>
    dsimp only
    split
    · exact .inl ⟨.discarded, by simp, rfl⟩
    · exact .inr ⟨id, _, _, hid, lookup_of_inUse hunused, rfl⟩

/-- The connection a message is sent on, for as long as it is in the loop: the message is in
flight under a new identifier, or only the counter has moved. -/
structure Sends (h h' : Handler α) (room : Nat) : Prop where
  room : h'.phase.room ≤ room
  late : h'.phase.early = false
  window : h'.window = h.window
  outcome : (h'.sends = h.sends ∧
      ∃ next, next ≠ 0 ∧ h'.outbound = { h.outbound with nextPacketId := next }) ∨
    ∃ id publish next, id ≠ 0 ∧ next ≠ 0 ∧ h.outbound.inflight.lookup id = none ∧
      h'.sends.length = h.sends.length + 1 ∧
      h'.outbound =
        { h.outbound with
          nextPacketId := next
          order := h.outbound.order.filter (· ≠ id) ++ [id]
          inflight := h.outbound.inflight.insert id publish }

theorem transmit_sends [Publishable α] {m : Message α} {contents held held' : List (Message α)}
    {phase : Phase α} (hnext : (s g).outbound.nextPacketId ≠ 0)
    (hfree : ∃ id, id ≠ 0 ∧ (s g).outbound.inUse id = false) (hroom : phase.room ≤ room)
    (hlate : phase.early = false) :
    ∃ h', (s.transmit g m written ((s g).without contents held phase)
        ((s g).without contents held' (.leaving .closed))).handlers =
        update s.handlers g h' ∧
      Sends (s g) h' room := by
  obtain ⟨next, hnext', hcases⟩ := sendPublish_cases hnext hfree s.records m
  unfold transmit
  rcases hcases with ⟨result, hresult, hsend⟩ | ⟨id, publish, _, hid, hnone, hsend⟩
  · rw [hsend]
    cases result with
    | failed =>
      exact ⟨_, rfl, ⟨Nat.zero_le _, rfl, rfl, .inl ⟨rfl, next, hnext', rfl⟩⟩⟩
    | discarded => exact ⟨_, rfl, ⟨hroom, hlate, rfl, .inl ⟨rfl, next, hnext', rfl⟩⟩⟩
    | sent => exact absurd rfl hresult
  · rw [hsend]
    cases written with
    | true =>
      exact ⟨_, rfl, ⟨hroom, hlate, rfl, .inr ⟨id, publish, next, hid, hnext', hnone,
        List.length_append, rfl⟩⟩⟩
    | false =>
      exact ⟨_, rfl, ⟨Nat.zero_le _, rfl, rfl, .inr ⟨id, publish, next, hid, hnext', hnone,
        List.length_append, rfl⟩⟩⟩

theorem card_entries_insert (hnone : inflight.lookup id = none) (m : Message α) :
    (inflight.insert id m).entries.card = inflight.entries.card + 1 := by
  rw [entries_insert_of_notMem (lookup_eq_none.mp hnone), Multiset.card_cons]

theorem length_le_card (hnd : l.Nodup)
    (hin : ∀ id ∈ l, (inflight.lookup id).isSome) : l.length ≤ inflight.entries.card := by
  have hsubset : l.toFinset ⊆ inflight.keys := by
    intro id hid
    rw [mem_keys, ← lookup_isSome]
    exact hin id (List.mem_toFinset.mp hid)
  have hcard : inflight.keys.card = inflight.entries.card := Multiset.card_map _ _
  rw [← hcard, ← List.toFinset_card_of_nodup hnd]
  exact card_le_card hsubset

/-- What is noted of a connection that may have sent a message. -/
def noted (h h' : Handler α) (l : List UInt16) : List UInt16 :=
  if h.sends.length < h'.sends.length then l ++ h'.outbound.order.getLast?.toList else l

theorem Gate.sends (hgate : Gate b h l) (hwork : h.phase.working)
    (hroom : room + 1 ≤ h.free) (hsends : Sends h h' room) : Gate b h' (noted h h' l) := by
  have hlate : h'.phase.early → ∀ l' : List UInt16, l' = [] := fun hp => by
    rw [hsends.late] at hp
    cases hp
  have hin := hgate.inflight hwork
  have hwin : h'.window ≤ b := hsends.window ▸ hgate.window
  unfold noted
  rcases hsends.outcome with ⟨hsame, next, hnext, hout⟩ |
    ⟨id, publish, next, hid, hnext, hnone, hgrown, hout⟩
  · rw [if_neg (by rw [hsame]; exact lt_irrefl _)]
    have hfree : h'.free = h.free := by
      unfold free
      rw [hsends.window, hout]
    refine ⟨hwin, ?_, ?_, fun hp => hlate hp _, hgate.nodup, hsends.window ▸ hgate.count, ?_⟩
    · have := hsends.room
      omega
    · rw [hout]
      exact hnext
    · rw [hout]
      exact fun _ => hin
  · have hlast : h'.outbound.order.getLast?.toList = [id] := by
      rw [hout]
      simp
    rw [if_pos (by omega), hlast]
    have hcard := card_entries_insert hnone publish
    have hfree : h'.free + 1 = h.free := by
      unfold free at hroom ⊢
      rw [hsends.window, hout]
      dsimp only
      omega
    have hnew : id ∉ l := by
      intro hmem
      have hsome := hin id hmem
      rw [hnone] at hsome
      cases hsome
    refine ⟨hwin, ?_, ?_, fun hp => hlate hp _, ?_, ?_, ?_⟩
    · have := hsends.room
      omega
    · rw [hout]
      exact hnext
    · rw [List.nodup_append]
      refine ⟨hgate.nodup, List.nodup_singleton id, ?_⟩
      intro a ha b hb heq
      rw [List.mem_singleton.mp hb] at heq
      exact hnew (heq ▸ ha)
    · -- the identifiers noted so far are all in flight
      have hlen := length_le_card hgate.nodup hin
      rw [List.length_append, hsends.window]
      unfold free at hroom
      simp only [List.length_singleton]
      omega
    · intro _ id' hid'
      rw [hout]
      by_cases heq : id' = id
      · rw [heq, lookup_insert]
        rfl
      · rw [lookup_insert_of_ne _ heq]
        rcases List.mem_append.mp hid' with hold | hnew'
        · exact hin id' hold
        · exact absurd (List.mem_singleton.mp hnew') heq

/-- A connection has sent a message, or tried to. -/
theorem gates_sends (hgates : Gates limit s.handlers notes) (hwork : (s g).phase.working)
    (hroom : room + 1 ≤ (s g).free) (hhs : s'.handlers = update s.handlers g h')
    (hsends : Sends (s g) h' room) : Gates limit s'.handlers
      (if Publishes s s' g then
        update notes g (notes g ++ (s' g).outbound.order.getLast?.toList)
      else notes) := by
  have hself : s'.handlers g = h' := by rw [hhs, update_self]
  have hupd := hgates.change g ((hgates g).sends hwork hroom hsends)
  have hiff : Publishes s s' g ↔ (s g).sends.length < h'.sends.length := by
    unfold Publishes
    rw [hself]
  unfold noted at hupd
  rw [← hhs, ← hself] at hupd
  by_cases hgrown : Publishes s s' g
  · rw [if_pos hgrown]
    rwa [hself, if_pos (hiff.mp hgrown), ← hself] at hupd
  · rw [if_neg hgrown]
    rwa [hself, if_neg fun hlt => hgrown (hiff.mpr hlt), update_eq_self] at hupd

/-- A connection sends a message, or tries to, while there is room for it in the window. -/
def SendsFrom (s : State α) (g : Nat) (s' : State α) : Prop :=
  ∃ room, (s.handlers g).phase.working = true ∧ room + 1 ≤ (s.handlers g).free ∧
    ∃ h', s'.handlers = update s.handlers g h' ∧ Sends (s.handlers g) h' room

section

variable [Publishable α] (hgate : Gate b (s.handlers g) l)
  (hfree : ∃ id, id ≠ 0 ∧ (s.handlers g).outbound.inUse id = false)
include hgate hfree

theorem sendLane_sends {left : Nat} (hsend : s.sendLane g written left = some s') :
    ∃ h', s'.handlers = update s.handlers g h' ∧ Sends (s g) h' 0 := by
  unfold sendLane at hsend
  dsimp only at hsend
  split at hsend
  · cases hsend
  · cases hsend
    exact transmit_sends hgate.next hfree (Nat.le_refl 0) rfl

theorem sendNext_cases (hsend : s.sendNext g written = some s') : SendsFrom s g s' := by
  unfold sendNext at hsend
  dsimp only at hsend
  split at hsend
  · rename_i m rest hph
    have hwork : (s g).phase.working := by rw [hph]; rfl
    have hroom : rest.length + 1 ≤ (s g).free := by
      have hgateRoom := hgate.room
      rw [hph] at hgateRoom
      exact hgateRoom
    refine ⟨rest.length, hwork, hroom, ?_⟩
    split at hsend
    · cases hsend
      exact ⟨_, rfl, Nat.zero_le _, rfl, rfl, .inl ⟨rfl, _, hgate.next, rfl⟩⟩
    · cases hsend
      exact transmit_sends hgate.next hfree (Nat.le_refl _) rfl
  · cases hsend

theorem receive_sends (hact : s.receive g written = some s') : SendsFrom s g s' := by
  dsimp only [receive] at hact
  split at hact
  · rename_i hph
    have hroom := hgate.room
    rw [hph] at hroom
    exact ⟨0, by rw [hph]; rfl, hroom, sendLane_sends hgate hfree hact⟩
  · cases hact

theorem next_sends (hact : s.next g written = some s') : SendsFrom s g s' := by
  dsimp only [next] at hact
  split at hact
  · rename_i hph
    split at hact
    · cases hact
    · rename_i hopen
      simp only [Bool.or_eq_true, beq_iff_eq, not_or] at hopen
      exact ⟨0, by rw [hph]; rfl, Nat.pos_of_ne_zero hopen.2, sendLane_sends hgate hfree hact⟩
  · cases hact

omit hfree in
theorem sender_sends {a : Action α} (hsender : a.sender = some g) (hsupplied : Supplied s a)
    (hact : act s a = some s') : SendsFrom s g s' := by
  cases a with
  | receive _ written =>
    cases hsender
    exact receive_sends hgate hsupplied hact
  | next _ written =>
    cases hsender
    exact next_sends hgate hsupplied hact
  | sendNext _ written =>
    cases hsender
    exact sendNext_cases hgate hsupplied hact
  | _ => cases hsender

end

/-! ## Acknowledgements -/

/-- An acknowledgement that ends an exchange, if there is one under this identifier. -/
theorem Gate.settle (hgate : Gate b h l) (hwork : h.phase.working)
    (hroom : h'.phase.room = 0) (hlate : h'.phase.early = false) (hwin : h'.window = h.window)
    (hnext : h'.outbound.nextPacketId = h.outbound.nextPacketId)
    (hinfl : ∀ id', id' ≠ id → h'.outbound.inflight.lookup id' = h.outbound.inflight.lookup id') :
    Gate b h' (l.erase id) := by
  refine hgate.still List.erase_sublist hroom hlate hwin (hnext ▸ hgate.next) fun _ id' hid' => ?_
  obtain ⟨hne, hmem⟩ := (hgate.nodup.mem_erase_iff).mp hid'
  rw [hinfl id' hne]
  exact hgate.inflight hwork id' hmem

theorem complete_outbound (o : Outbound α) (records : Records α) (id : UInt16) :
    (o.complete records id).2.1.nextPacketId = o.nextPacketId ∧
      ∀ id', id' ≠ id → (o.complete records id).2.1.inflight.lookup id' =
        o.inflight.lookup id' := by
  unfold complete
  split
  · exact ⟨rfl, fun _ _ => rfl⟩
  · exact ⟨rfl, fun id' hne => lookup_erase_ne hne⟩

theorem handlePuback_outbound (o : Outbound α) (records : Records α) (id : UInt16) :
    (o.handlePuback records id).2.1.nextPacketId = o.nextPacketId ∧
      ∀ id', id' ≠ id →
        (o.handlePuback records id).2.1.inflight.lookup id' = o.inflight.lookup id' := by
  unfold handlePuback
  split
  · exact ⟨rfl, fun _ _ => rfl⟩
  · exact ⟨rfl, fun id' hne => lookup_erase_ne hne⟩

/-- A PUBREC without error leaves the message in flight. -/
theorem handlePubrec_outbound (o : Outbound α) (records : Records α) (id : UInt16) :
    (o.handlePubrec records id false).2.1.nextPacketId = o.nextPacketId ∧
      (o.handlePubrec records id false).2.1.inflight = o.inflight := by
  unfold handlePubrec
  rw [if_neg (by decide)]
  split <;> exact ⟨rfl, rfl⟩

theorem gates_settle (hgates : Gates limit s.handlers notes) {delivering windowOpen : Bool}
    (hph : (s g).phase = .selecting delivering windowOpen) (written : Bool)
    {result : Option (Message α) × Outbound α × Records α}
    (hresult : result.2.1.nextPacketId = (s g).outbound.nextPacketId ∧
      ∀ id', id' ≠ id →
        result.2.1.inflight.lookup id' = (s g).outbound.inflight.lookup id') :
    Gates limit (s.settled g written result).handlers (update notes g ((notes g).erase id)) := by
  obtain ⟨_, outbound, _⟩ := result
  have hsettl : Gate (limit g) { s g with
      outbound
      phase := if written then .top else .leaving .closed } ((notes g).erase id) := by
    refine (hgates g).settle (by rw [hph]; rfl) ?_ ?_ rfl hresult.1 hresult.2
    · cases written <;> rfl
    · cases written <;> rfl
  exact hgates.change g hsettl

/-! ## Loading -/

/-- Loading records takes nothing out of the window. -/
theorem foldl_load_outbound (l : List (UInt16 × InflightRecord α))
    (loaded : List (Message α) × Outbound α) :
    (l.foldl load loaded).2.nextPacketId = loaded.2.nextPacketId ∧
      ∀ id, (loaded.2.inflight.lookup id).isSome →
        ((l.foldl load loaded).2.inflight.lookup id).isSome := by
  induction l generalizing loaded with
  | nil => exact ⟨rfl, fun _ h => h⟩
  | cons record l ih =>
    have hload : (load loaded record).2.nextPacketId = loaded.2.nextPacketId ∧
        ∀ id, (loaded.2.inflight.lookup id).isSome →
          ((load loaded record).2.inflight.lookup id).isSome := by
      obtain ⟨_, o⟩ := loaded
      unfold load
      dsimp only
      split
      · exact ⟨rfl, fun _ h => h⟩
      · refine ⟨rfl, fun id h => ?_⟩
        by_cases hid : id = record.1
        · rw [hid, lookup_insert]
          rfl
        · rw [lookup_insert_of_ne _ hid]
          exact h
      · exact ⟨rfl, fun _ h => h⟩
    obtain ⟨hnext, hin⟩ := ih (load loaded record)
    rw [List.foldl_cons]
    exact ⟨hnext.trans hload.1, fun id h => hin id (hload.2 id h)⟩

/-- A connection that enters the loop or goes round in it with a window that has not lost
anything. -/
theorem Gate.load (hgate : Gate b h l) (hph : h.phase.working ∨ h.phase.early)
    (hroom : h'.phase.room = 0) (hlate : h'.phase.early = false) (hwin : h'.window = h.window)
    (hnext : h'.outbound.nextPacketId ≠ 0) (hin : ∀ id, (h.outbound.inflight.lookup id).isSome →
      (h'.outbound.inflight.lookup id).isSome) : Gate b h' l := by
  refine hgate.still (.refl l) hroom hlate hwin hnext fun _ id hid => ?_
  rcases hph with hwork | hearly
  · exact hin id (hgate.inflight hwork id hid)
  · rw [hgate.early hearly] at hid
    cases hid

theorem gates_bind [Queueable α] (hgates : Gates limit s.handlers notes) {waived : Bool}
    {sorted : List (UInt16 × InflightRecord α)} {unwritten : Option Nat}
    (hbind : s.bind g waived sorted unwritten = some s') :
    Gates limit s'.handlers notes := by
  have hgate := hgates g
  unfold State.bind at hbind
  dsimp only at hbind
  split at hbind
  · cases hbind
  rename_i hrdy
  have hph : (s g).phase.working ∨ (s g).phase.early := by
    rw [Bool.not_eq_true, Bool.not_eq_false'] at hrdy
    unfold mayBind at hrdy
    split at hrdy
    · rename_i hp
      exact .inr (by rw [hp]; rfl)
    · rename_i hp
      exact .inl (by rw [hp]; rfl)
    · cases hrdy
  split at hbind
  · cases hbind
    refine hgates.set ?_
    exact hgate.load hph rfl rfl rfl hgate.next fun _ h => h
  · split at hbind
    · rename_i looked
      cases hbind
      obtain ⟨hnext, hin⟩ := foldl_load_outbound (sorted.take looked) ([], (s g).outbound)
      refine hgates.set ?_
      refine hgate.load hph rfl rfl rfl ?_ hin
      rw [hnext]
      exact hgate.next
    · cases hbind
      obtain ⟨hnext, hin⟩ := foldl_load_outbound sorted ([], (s g).outbound)
      refine hgates.set ?_
      refine hgate.load hph rfl rfl rfl ?_ hin
      have hload : (sorted.foldl load ([], (s g).outbound)).2.nextPacketId ≠
          0 := by
        rw [hnext]
        exact hgate.next
      exact firstFree_getD_ne_zero _ _ hload hload

/-! ## Other steps -/

/-- Out of the loop, the window is not used any more. -/
theorem Gate.quit (hgate : Gate b h l)
    (hroom : h'.phase.room = 0) (hwork : h'.phase.working = false)
    (hlate : h'.phase.early = false) (hwin : h'.window = h.window)
    (hnext : h'.outbound.nextPacketId = h.outbound.nextPacketId) : Gate b h' l := by
  refine hgate.still (.refl l) hroom hlate hwin (hnext ▸ hgate.next) fun hw => ?_
  rw [hwork] at hw
  cases hw

section

variable (hgates : Gates limit s.handlers notes) {now : SystemTime}
include hgates

theorem gates_answered {queue : ClientQueue (Message α)}
    {h' : Handler α} (hg : Gate (limit g) h' (notes g)) :
    Gates limit (answered { s with queue } g h').handlers notes := by
  unfold answered
  split
  · refine hgates.set ?_
    exact hg.congr rfl rfl rfl
  · exact hgates.set hg

theorem gates_register (hregs : s.register g = some s') : Gates limit s'.handlers notes := by
  unfold register at hregs
  dsimp only at hregs
  split at hregs
  · rename_i hph
    have hnew : ∀ {predecessor : Bool} {epoch : Nat},
        Gate (limit g) { s g with phase := .connecting, predecessor, epoch } (notes g) :=
      (hgates g).move (Nat.zero_le _) (fun hw => by cases hw) (fun _ => by rw [hph]; rfl) rfl rfl
    cases hregs
    cases hreg : s.registered with
    | none => exact hgates.set hnew
    | some old =>
      have hdisp : Gates limit (s.setHandler old { s.handlers old with notice := true }).handlers
          notes := by
        refine hgates.set ?_
        exact (hgates old).congr rfl rfl rfl
      exact hdisp.set hnew
  · cases hregs

theorem gates_enterLane (p : Nat) (m : Message α) (permits : Finset Nat) :
    Gates limit (s.enterLane p g m permits).handlers notes := by
  refine hgates.set ?_
  exact (hgates g).congr rfl rfl rfl

/-- What a connection does in its loop without sending, and on its way in and out. -/
theorem gates_drain (hdrain : s.drain g = some s') : Gates limit s'.handlers notes := by
  unfold drain at hdrain
  dsimp only at hdrain
  split at hdrain
  · rename_i hph
    have hwork : (s g).phase.working := by rw [hph]; rfl
    split at hdrain <;> cases hdrain
    · exact hgates.work hwork (Nat.zero_le _) rfl rfl rfl
    · exact hgates.work hwork (Nat.min_le_left _ _) rfl rfl rfl
  · cases hdrain

theorem gates_take (htake : s.take g now = some s') : Gates limit s'.handlers notes := by
  unfold take at htake
  dsimp only at htake
  split at htake
  · rename_i limit hph
    cases htake
    refine hgates.work (by rw [hph]; rfl) ?_ rfl rfl rfl
    have hroom := (hgates g).room
    rw [hph] at hroom
    show (ClientQueue.takeLoop now limit s.queue.entries).1.length ≤ _
    rw [(ClientQueue.takeLoop_spec now limit s.queue.entries).1]
    exact (List.length_take_le _ _).trans hroom
  · cases htake

theorem gates_mark [Queueable α] (hmark : s.mark g now = some s') :
    Gates limit s'.handlers notes := by
  unfold mark at hmark
  dsimp only at hmark
  split at hmark
  · rename_i hph
    cases hmark
    refine hgates.work (by rw [hph]; rfl) ?_ rfl rfl rfl
    have hroom := (hgates g).room
    rw [hph] at hroom
    exact (List.length_filterMap_le _ _).trans hroom
  · cases hmark

theorem gates_proceed [Queueable α] {cut : Bool} (hproc : s.proceed g cut = some s') :
    Gates limit s'.handlers notes := by
  unfold proceed at hproc
  dsimp only at hproc
  split at hproc
  · rename_i hph
    have hwork : (s g).phase.working := by rw [hph]; rfl
    split at hproc <;> cases hproc
    · exact hgates.work hwork (Nat.zero_le _) rfl rfl rfl
    · refine hgates.work hwork ?_ rfl rfl rfl
      have hroom := (hgates g).room
      rw [hph] at hroom
      exact hroom
  · cases hproc

theorem gates_turn (hturn : s.turn g = some s') : Gates limit s'.handlers notes := by
  unfold turn at hturn
  dsimp only at hturn
  split at hturn
  · rename_i hph
    cases hturn
    refine hgates.work (by rw [hph]; rfl) ?_ rfl rfl rfl
    -- the lane is open only if there is room in the window
    show Bool.toNat _ ≤ _
    cases hopen : decide ((s g).free > 0) with
    | false =>
      rw [Bool.and_false]
      exact Nat.zero_le _
    | true => exact (Bool.toNat_le _).trans (of_decide_eq_true hopen)
  · cases hturn

theorem gates_finish (hfin : s.finish g = some s') : Gates limit s'.handlers notes := by
  have hgate := hgates g
  unfold finish at hfin
  dsimp only at hfin
  split at hfin
  · cases hfin
    refine hgates.set ?_
    exact hgate.quit rfl rfl rfl rfl rfl
  · cases hfin
    refine gates_answered hgates ?_
    exact hgate.quit rfl rfl rfl rfl rfl
  · cases hfin
    refine gates_answered (g := g) hgates ?_
    exact hgate.quit rfl rfl rfl rfl rfl
  · cases hfin

theorem gates_finishDrain (hfin : s.finishDrain g = some s') : Gates limit s'.handlers notes := by
  unfold finishDrain at hfin
  dsimp only at hfin
  split at hfin
  · rename_i hph
    cases hfin
    exact hgates.work (by rw [hph]; rfl) (Nat.zero_le _) rfl rfl rfl
  · cases hfin
    exact hgates.set ((hgates g).quit rfl rfl rfl rfl rfl)
  · cases hfin

theorem gates_requeue [Queueable α] (hreq : s.requeue g = some s') :
    Gates limit s'.handlers notes := by
  unfold requeue at hreq
  dsimp only at hreq
  split at hreq
  · split at hreq
    · cases hreq
    · cases hreq
      exact hgates.set ((hgates g).quit rfl rfl rfl rfl rfl)
  · cases hreq

theorem gates_release (hrel : s.release g = some s') : Gates limit s'.handlers notes := by
  obtain ⟨_, -, rfl⟩ := Option.map_eq_some_iff.mp hrel
  split <;> exact hgates.set ((hgates g).quit rfl rfl rfl rfl rfl)

/-! ## Routers -/

theorem gates_route [Publishable α] {a : Action α} {p : Nat} (hrouter : a.router = some p)
    (h : act s a = some s') :
    Gates limit s'.handlers notes := by
  cases a with
  | plan p _ _ =>
    dsimp only [act, plan] at h
    split at h
    · split at h <;> cases h <;> exact hgates
    · cases h
  | readFlag p =>
    dsimp only [act, readFlag] at h
    split at h
    · split at h
      · cases h
        exact hgates
      · split at h <;> cases h <;> exact hgates
    · cases h
  | trySend p _ =>
    dsimp only [act, trySend] at h
    split at h
    · split at h
      · cases h
        exact hgates
      · split at h
        · cases h
          exact gates_enterLane hgates _ _ _
        · split at h <;> cases h <;> exact hgates
    · cases h
  | reserve p =>
    dsimp only [act, reserve] at h
    split at h
    · split at h
      · cases h
        exact hgates
      · split at h
        · cases h
          refine hgates.set ?_
          exact (hgates _).congr rfl rfl rfl
        · cases h
    · cases h
  | timeout p =>
    dsimp only [act, timeout] at h
    split at h
    · cases h
      exact hgates
    · cases h
  | sendPermit p =>
    dsimp only [act, sendPermit] at h
    split at h
    · cases h
      exact gates_enterLane hgates _ _ _
    · cases h
  | _ => cases hrouter

end

/-! ## Runs -/

/-- Every step keeps the gates, as long as there is an identifier for what is sent. -/
theorem gates_step [Publishable α] {limit : Nat} {a : Action α}
    (hgates : Gates (fun k => outboundWindow (receiveMaximum k) limit) s.handlers notes)
    (hconfigured : Configured receiveMaximum limit s a) (hsupplied : Supplied s a)
    (hact : act s a = some s') :
    Gates (fun k => outboundWindow (receiveMaximum k) limit) s'.handlers
      (watch s a s' notes) := by
  cases a with
  | expect _ window _ _ =>
    cases hact
    refine hgates.change s.nextGeneration ?_
    refine ⟨?_, Nat.zero_le _, (by decide : (1 : UInt16) ≠ 0), fun _ => rfl, List.nodup_nil,
      Nat.zero_le _, fun hw => by cases hw⟩
    show max window 1 ≤ _
    rw [show window = _ from hconfigured]
    exact Nat.le_refl _
  | register g => exact gates_register hgates hact
  | connected g =>
    dsimp only [act, connected] at hact
    split at hact
    · rename_i hph
      have hearly : (s g).phase.early := by rw [hph]; rfl
      cases hact
      refine hgates.set ?_
      refine (hgates g).move ?_ (fun _ => .inr hearly) (fun _ => hearly) rfl rfl
      show Phase.room (if _ then _ else _) ≤ _
      split <;> exact Nat.zero_le _
    · cases hact
  | abandon g | closeLane g =>
    dsimp only [act] at hact
    split at hact
    · cases hact
      exact hgates.set ((hgates g).quit rfl rfl rfl rfl rfl)
    · cases hact
  | bind g _ _ _ => exact gates_bind hgates hact
  | turn g => exact gates_turn hgates hact
  | receive g written | next g written | sendNext g written =>
    obtain ⟨room, hwork, hroom, h', hhs, hsends⟩ := sender_sends (hgates g) rfl hsupplied hact
    exact gates_sends hgates hwork hroom hhs hsends
  | endBatch g =>
    dsimp only [act, endBatch] at hact
    split at hact
    · rename_i hph
      cases hact
      exact hgates.work (by rw [hph]; rfl) (Nat.zero_le _) rfl rfl rfl
    · cases hact
  | drain g => exact gates_drain hgates hact
  | take g now => exact gates_take hgates hact
  | mark g now => exact gates_mark hgates hact
  | proceed g _ => exact gates_proceed hgates hact
  | finishDrain g => exact gates_finishDrain hgates hact
  | puback g id =>
    dsimp only [act] at hact
    obtain ⟨delivering, windowOpen, hph, rfl⟩ := inLoop_cases hact
    exact gates_settle hgates hph true (handlePuback_outbound _ _ _)
  | pubrec g id error written =>
    dsimp only [act] at hact
    obtain ⟨delivering, windowOpen, hph, rfl⟩ := inLoop_cases hact
    cases error with
    | true => exact gates_settle hgates hph true (complete_outbound _ _ _)
    | false =>
      obtain ⟨hnext, hsame⟩ := handlePubrec_outbound (s g).outbound s.records id
      refine hgates.set ?_
      refine (hgates g).load (.inl (by rw [hph]; rfl)) ?_ ?_ rfl ?_ fun id' hid' => ?_
      · cases written <;> rfl
      · cases written <;> rfl
      · show ((s g).outbound.handlePubrec s.records id false).2.1.nextPacketId ≠ 0
        rw [hnext]
        exact (hgates g).next
      · show (((s g).outbound.handlePubrec s.records id false).2.1.inflight.lookup id').isSome
        rw [hsame]
        exact hid'
  | pubcomp g id =>
    dsimp only [act] at hact
    obtain ⟨delivering, windowOpen, hph, rfl⟩ := inLoop_cases hact
    exact gates_settle hgates hph true (complete_outbound _ _ _)
  | inbound g _ =>
    dsimp only [act] at hact
    obtain ⟨delivering, windowOpen, hph, rfl⟩ := inLoop_cases hact
    refine hgates.set ?_
    exact (hgates g).load (.inl (by rw [hph]; rfl)) rfl rfl rfl (hgates g).next fun _ h => h
  | close g =>
    dsimp only [act] at hact
    obtain ⟨delivering, windowOpen, -, rfl⟩ := inLoop_cases hact
    exact hgates.set ((hgates g).quit rfl rfl rfl rfl rfl)
  | takenOver g =>
    dsimp only [act] at hact
    split at hact
    · obtain ⟨delivering, windowOpen, -, rfl⟩ := inLoop_cases hact
      exact hgates.set ((hgates g).quit rfl rfl rfl rfl rfl)
    · cases hact
  | requeue g => exact gates_requeue hgates hact
  | endHandoff g =>
    dsimp only [act, endHandoff] at hact
    split at hact
    · cases hact
      refine gates_answered (g := g) hgates ?_
      exact (hgates g).quit rfl rfl rfl rfl rfl
    · cases hact
  | release g => exact gates_release hgates hact
  | finish g => exact gates_finish hgates hact
  | plan _ _ _ | readFlag _ | trySend _ _ | reserve _ | timeout _ | sendPermit _ =>
    exact gates_route hgates rfl hact
  | push p =>
    dsimp only [act, push] at hact
    split at hact
    · split at hact <;> cases hact <;> exact hgates
    · cases hact

theorem Watched.gates [Publishable α] {s₀ : State α} {limit : Nat}
    (hstart : ∀ g, s₀.handlers g = {})
    (hrun : Watched (fun s a => Configured receiveMaximum limit s a ∧ Supplied s a) s₀ s notes)
    (k : Nat) : Gate (outboundWindow (receiveMaximum k) limit) (s k) (notes k) := by
  induction hrun generalizing k with
  | start =>
    rw [hstart k]
    exact gate_default (Nat.le_max_right _ _)
  | step _ met enabled ih => exact gates_step ih met.1 met.2 enabled k

/-! ## The window is respected -/

/-- Whatever is delivered and acknowledged, in whatever order: the PUBLISH packets sent on a
connection and not finished yet have different identifiers, and are no more than its
window; so they are no more than the client's Receive Maximum, unless that is 0.  A
further one is only sent while fewer than the window are in flight, under an identifier
that is not 0 and that no unfinished message has. -/
theorem window_respected [Publishable α] {s₀ s : State α} {notes : Nat → List UInt16}
    {receiveMaximum : Nat → Nat} {maxOutboundInflight : Nat} (hstart : ∀ g, s₀.handlers g = {})
    (hrun : Watched (fun s a => Configured receiveMaximum maxOutboundInflight s a ∧ Supplied s a)
      s₀ s notes) (g : Nat) :
    (notes g).Nodup ∧
      (notes g).length ≤ outboundWindow (receiveMaximum g) maxOutboundInflight ∧
      (1 ≤ receiveMaximum g → (notes g).length ≤ receiveMaximum g) ∧
      ∀ (a : Action α) (s' : State α), a.sender = some g → Supplied s a → act s a = some s' →
        Publishes s s' g →
          (s.handlers g).outbound.inflight.entries.card <
            outboundWindow (receiveMaximum g) maxOutboundInflight ∧
          ∃ id, (s'.handlers g).outbound.order.getLast? = some id ∧ id ≠ 0 ∧
            (s.handlers g).outbound.inflight.lookup id = none ∧ id ∉ notes g := by
  have hgate := hrun.gates hstart g
  have hcount := hgate.count.trans hgate.window
  refine ⟨hgate.nodup, hcount, fun hpos => ?_, ?_⟩
  · unfold outboundWindow at hcount
    omega
  intro a s' hsender hsupplied hact hpublishes
  obtain ⟨_, hworking, hroom, h', hhandlers, hsends⟩ :=
    sender_sends hgate hsender hsupplied hact
  have hself : s'.handlers g = h' := by rw [hhandlers, update_self]
  have hwindow := hgate.window
  unfold free at hroom
  unfold Publishes at hpublishes
  rw [hself] at hpublishes ⊢
  rcases hsends.outcome with ⟨hsame, -⟩ | ⟨id, _, _, hid, -, hnone, -, houtbound⟩
  · rw [hsame] at hpublishes
    exact absurd hpublishes (lt_irrefl _)
  · refine ⟨by omega, id, by rw [houtbound]; simp, hid, hnone, fun hmem => ?_⟩
    have hsome := hgate.inflight hworking id hmem
    rw [hnone] at hsome
    cases hsome

end

/-! ## Watching a list of steps -/

def watching [Publishable α] (start : State α × (Nat → List UInt16)) (actions : List (Action α)) :
    Option (State α × (Nat → List UInt16)) :=
  actions.foldlM (fun (s, notes) a => (act s a).map fun s' => (s', watch s a s' notes)) start

theorem Watched.watching [Publishable α] {condition : State α → Action α → Prop}
    {s₀ s s' : State α} {notes notes' : Nat → List UInt16} {actions : List (Action α)}
    (hrun : Watched condition s₀ s notes) (hmet : ∀ a ∈ actions, ∀ t, condition t a)
    (hwatching : Delivery.watching (s, notes) actions = some (s', notes')) :
    Watched condition s₀ s' notes' := by
  induction actions generalizing s notes with
  | nil =>
    cases hwatching
    exact hrun
  | cons a actions ih =>
    obtain ⟨⟨t, _⟩, hstep, hrest⟩ := Option.bind_eq_some_iff.mp
      (show ((act s a).map fun t => (t, watch s a t notes)).bind
        (fun start => Delivery.watching start actions) = some (s', notes') from hwatching)
    obtain ⟨_, henabled, heq⟩ := Option.map_eq_some_iff.mp hstep
    cases heq
    refine ih (hrun.step (hmet a List.mem_cons_self s) henabled) ?_ hrest
    exact fun b hb => hmet b (List.mem_cons_of_mem a hb)

/-- A connection has bound, and two messages are in its lane. -/
def boundRun : List (Action Payload) := arriving 1 none ++ .bind 1 false [] none :: laneRun

/-- The two messages go out under the identifiers 1 and 2 to a client that takes four. -/
theorem window_respected_lane :
    ∃ (s s' : State Payload) (notes : Nat → List UInt16),
      Watched (fun s a => Configured (fun _ => 4) 16 s a ∧ Supplied s a) {} s notes ∧
        act s (.next 1 true) = some s' ∧ Publishes s s' 1 ∧ notes 1 = [1] ∧
        (s'.handlers 1).outbound.order.getLast? = some 2 ∧ (notes 1).length ≤ 4 ∧
        (2 : UInt16) ∉ notes 1 := by
  have hstart : Watched (α := Payload)
      (fun s a => Configured (fun _ => 4) 16 s a ∧ Supplied s a) {} {} _ := .start
  have hrun := hstart.watching
      (by simp [boundRun, arriving, laneRun, toLane, Configured, Supplied])
      (show watching _ boundRun = some (_, _) from rfl)
  have hrun := hrun.step (a := .receive 1 true) ⟨trivial, 1, by decide, rfl⟩ rfl
  obtain ⟨-, -, hcount, hstep⟩ := window_respected (fun _ => rfl) hrun 1
  obtain ⟨-, id, hid, -, -, hnew⟩ := hstep (.next 1 true) _ rfl ⟨2, by decide, rfl⟩ rfl (by decide)
  obtain rfl : 2 = id := Option.some.inj hid
  exact ⟨_, _, _, hrun, rfl, by decide, rfl, rfl, hcount (by decide), hnew⟩

/-! ## No identifier left -/

/-- With every identifier in use, the message goes out under the one the counter stands at. -/
theorem receive_exhausted [Publishable α] {s : State α} {g size : Nat} {delivering : Bool}
    {m : Message α} {rest : List (Message α)} {next : UInt16}
    (hph : (s g).phase = .selecting delivering true) (hcont : (s g).lane.contents = m :: rest)
    (hnone : m.packetId = none) (hsize : Publishable.encodedSize m.content = some size)
    (hmax : (s g).outbound.maxPacketSize = none) (hall : ∀ id, id ≠ 0 → (s g).outbound.inUse id)
    (hnext : (s g).outbound.nextPacketId = next) (hne : next ≠ 0) :
    ∃ s', act s (.receive g true) = some s' ∧ Publishes s s' g ∧
      (s' g).outbound.order.getLast? = some next := by
  have hfresh : (s g).outbound.reusable m = false := by
    unfold reusable
    rw [hnone]
    rfl
  have htake : (s g).outbound.takePacketId m =
      (next, { (s g).outbound with nextPacketId := advance next }) := by
    unfold takePacketId
    rw [hfresh, hnext, nextFreePacketId_exhausted hall hne]
    rfl
  have hsend : ∃ records', (s g).outbound.sendPublish s.records m =
      (.sent,
        { (s g).outbound with
          nextPacketId := advance next
          order := (s g).outbound.order.filter (· ≠ next) ++ [next]
          inflight := (s g).outbound.inflight.insert next
            { m with packetId := some next } }, records') := by
    unfold sendPublish
    rw [htake]
    simp only [hsize, hmax]
    exact ⟨_, rfl⟩
  obtain ⟨records', hsend⟩ := hsend
  have hact : ∃ s' h', act s (.receive g true) = some s' ∧
      s'.handlers = update s.handlers g h' ∧
      h'.sends = (s g).sends ++ [m.delivery] ∧
      h'.outbound.order = (s g).outbound.order.filter (· ≠ next) ++ [next] := by
    dsimp only [act, State.receive]
    rw [hph]
    dsimp only [State.sendLane]
    rw [hcont]
    dsimp only [State.transmit]
    rw [hsend]
    exact ⟨_, _, rfl, rfl, rfl, rfl⟩
  obtain ⟨s', h', hact, hhs, hsends, horder⟩ := hact
  have hself : s'.handlers g = h' := by rw [hhs, update_self]
  refine ⟨s', hact, ?_, ?_⟩
  · unfold Publishes
    rw [hself, hsends]
    simp
  · rw [hself, horder]
    simp

/-- The identifiers a client may use for its own publishes. -/
def everyId : Finset UInt16 := (range 65535).image fun n => UInt16.ofNat (n + 1)

theorem mem_everyId {id : UInt16} (hid : id ≠ 0) : id ∈ everyId := by
  have hlt := id.toNat_lt
  have hpos : id.toNat ≠ 0 := fun h => hid (UInt16.toNat_inj.mp h)
  refine mem_image.mpr ⟨id.toNat - 1, mem_range.mpr (by omega), ?_⟩
  rw [Nat.sub_add_cancel (Nat.one_le_iff_ne_zero.mpr hpos), UInt16.ofNat_toNat]

/-- The client gets a message under the identifier 1, connects again without having answered,
gets it once more under the same identifier, and has 65535 QoS 2 publishes of its own
pending when the next message is in the lane. -/
def exhaustedRun : List (Action Payload) :=
  arriving 1 none ++ [.bind 1 false [] none, .turn 1] ++ toLane 0 8 ++
    [.receive 1 true, .endBatch 1, .turn 1, .close 1, .closeLane 1, .requeue 1, .release 1,
      .finish 1] ++
    arriving 2 none ++ [.bind 2 false [] none, .turn 2, .drain 2, .take 2 0, .mark 2 0,
      .sendNext 2 true, .proceed 2 false, .finishDrain 2] ++
    toLane 0 9 ++ [.turn 2, .inbound 2 everyId, .turn 2]

/-- That message goes out under the identifier 1 as well, which the first one still has. -/
theorem exhausted_id_reused :
    ∃ (s s' : State Payload) (notes : Nat → List UInt16),
      Watched (Configured (fun _ => 4) 16) {} s notes ∧ act s (.receive 2 true) = some s' ∧
        Publishes s s' 2 ∧ notes 2 = [1] ∧
        ((s.handlers 2).outbound.inflight.lookup 1).map Message.delivery = some ⟨0, 0⟩ ∧
        (s'.handlers 2).outbound.order.getLast? = some 1 ∧
        ¬ (watch s (.receive 2 true) s' notes 2).Nodup := by
  obtain ⟨s, notes, h, hphase, hcontents, hmax, hinbound, hnext, hinflight, hnotes⟩ : ∃ s notes,
      watching (({} : State Payload), fun _ => []) exhaustedRun = some (s, notes) ∧
      (s.handlers 2).phase = .selecting true true ∧
      (s.handlers 2).lane.contents = [⟨⟨0, 1⟩, ⟨9⟩, none, false⟩] ∧
      (s.handlers 2).outbound.maxPacketSize = none ∧
      (s.handlers 2).outbound.inbound = everyId ∧ (s.handlers 2).outbound.nextPacketId = 1 ∧
      ((s.handlers 2).outbound.inflight.lookup 1).map Message.delivery = some ⟨0, 0⟩ ∧
      notes 2 = [1] := ⟨_, _, rfl, rfl, rfl, rfl, rfl, rfl, rfl, rfl⟩
  have hstart : Watched (α := Payload) (Configured (fun _ => 4) 16) {} {} _ := .start
  have hrun := hstart.watching
    (by simp [exhaustedRun, arriving, toLane, Configured]) h
  have hall : ∀ id, id ≠ 0 → (s.handlers 2).outbound.inUse id := by
    intro id hid
    unfold inUse
    rw [hinbound, decide_eq_true (mem_everyId hid), Bool.or_true]
  obtain ⟨s', hact, hpublishes, hlast⟩ :=
    receive_exhausted hphase hcontents rfl rfl hmax hall hnext (by decide)
  refine ⟨s, s', notes, hrun, hact, hpublishes, hnotes, hinflight, hlast, ?_⟩
  show ¬ ((if _ then _ else _ : Nat → List UInt16) 2).Nodup
  rw [if_pos hpublishes, update_self, hnotes, hlast]
  decide

end MqttLib.Broker.Delivery
