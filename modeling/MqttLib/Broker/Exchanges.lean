/-
MqttLib.Broker.Exchanges

The packet identifiers of outbound exchanges across the connections of one session
(`send_publish`, `requeue_unsent`, `load_persisted_inflight`).  Someone who watches all the
connections notes every exchange at its first PUBLISH, with its identifier, and strikes it
out when it is finished.  A noted message goes out again under the identifier of its
exchange, as a duplicate, and nothing else is sent under that identifier, as long as the
client does not use it for a QoS 2 publish of its own when the message is sent again, and
no message without an identifier overtakes one that has one.
-/

import MqttLib.Broker.Window

namespace MqttLib.Broker.Delivery

open Foundation Storage Function Handler Outbound ClientQueue Multiset List Finmap
open MqttLib.Broker.Ownership (Exit Release)

variable {α : Type*}

/-! ## Watching the exchanges -/

/-- An exchange that has begun: the message, its identifier, and whether its PUBREC has been
answered. -/
structure Exchange where
  delivery : Delivery
  packetId : UInt16
  released : Bool
  deriving DecidableEq

/-- The message sent last, under its identifier. -/
def latest (o : Outbound α) : Option Exchange :=
  o.order.getLast?.bind fun id =>
    (o.inflight.lookup id).map fun m => ⟨m.delivery, id, false⟩

/-- The exchange in flight under the identifier is finished. -/
def strike (o : Outbound α) (id : UInt16) (notes : List Exchange) : List Exchange :=
  match o.inflight.lookup id with
  | none => notes
  | some m => notes.filter fun e => ¬(e.delivery = m.delivery ∧ e.packetId = id)

/-- Its PUBREC has arrived. -/
def markReleased (o : Outbound α) (id : UInt16) (notes : List Exchange) : List Exchange :=
  match o.inflight.lookup id with
  | none => notes
  | some m => notes.map fun e =>
      if e.delivery = m.delivery ∧ e.packetId = id then { e with released := true } else e

/-- The exchange of a PUBLISH that has been sent. -/
def noteSent (s s' : State α) (g : Nat) (notes : List Exchange) : List Exchange :=
  if Publishes s s' g then
    match latest (s'.handlers g).outbound with
    | some e => notes.insert e
    | none => notes
  else notes

/-- The notes after a step.  A PUBACK finishes no exchange of QoS 2. -/
def trace (exactlyOnce : α → Bool) (s : State α) (a : Action α) (s' : State α)
    (notes : List Exchange) : List Exchange :=
  match a with
  | .receive g _ | .next g _ | .sendNext g _ => noteSent s s' g notes
  | .puback g id =>
    if ((s.handlers g).outbound.inflight.lookup id).any fun m => exactlyOnce m.content then notes
    else strike (s.handlers g).outbound id notes
  | .pubcomp g id | .pubrec g id true _ => strike (s.handlers g).outbound id notes
  | .pubrec g id false _ => markReleased (s.handlers g).outbound id notes
  | _ => notes

/-- Runs whose steps meet a condition, with the exchanges noted along the way. -/
inductive Traced [Publishable α] (exactlyOnce : α → Bool)
    (condition : State α → Action α → Prop) (s₀ : State α) : State α → List Exchange → Prop where
  | start : Traced exactlyOnce condition s₀ s₀ []
  | step {s s' : State α} {a : Action α} {notes : List Exchange}
      (run : Traced exactlyOnce condition s₀ s notes) (met : condition s a)
      (enabled : act s a = some s') :
      Traced exactlyOnce condition s₀ s' (trace exactlyOnce s a s' notes)

/-! ## Steps that keep the identifiers -/

/-- What a connection holds besides its window. -/
def Handler.waiting (h : Handler α) : List (Message α) :=
  h.lane.contents ++ h.held ++ h.phase.pending

/-- The messages that are not in flight. -/
def State.atRest (s : State α) : List (Message α) :=
  s.queue.messages ++ (List.range s.nextGeneration).flatMap fun g => (s.handlers g).waiting

/-- A message with an identifier finds it free of the client's own publishes, and is not too
large for the client; one without an identifier has nothing with an identifier to
overtake. -/
def Undisturbed [Publishable α] (s : State α) (g : Nat) (next : Option (Message α)) : Prop :=
  ∀ m ∈ next,
    (∀ id ∈ m.packetId, id ∉ (s.handlers g).outbound.inbound ∧
      ∀ size ∈ Publishable.encodedSize m.content,
        ∀ max ∈ (s.handlers g).outbound.maxPacketSize, size ≤ max) ∧
    (m.packetId = none → ∀ waiting ∈ s.atRest, waiting.packetId = none)

/-- Regular steps that leave the identifiers alone; a PUBACK answers no QoS 2 message. -/
def Stable [Publishable α] (exactlyOnce : α → Bool) (s : State α) (a : Action α) : Prop :=
  Regular s a ∧
    match a with
    | .receive g _ | .next g _ => Undisturbed s g (s.handlers g).lane.contents.head?
    | .sendNext g _ =>
      (s.handlers g).beingDisplaced s.queue = false →
        Undisturbed s g (s.handlers g).phase.pending.head?
    | .puback g id =>
      ∀ m ∈ (s.handlers g).outbound.inflight.lookup id, exactlyOnce m.content = false
    | _ => True

/-! ## Messages and notes -/

/-- What the notes are about: which message, under which identifier, sent before or not. -/
structure Label where
  delivery : Delivery
  packetId : Option UInt16
  dup : Bool
  deriving DecidableEq

def label (m : Message α) : Label := ⟨m.delivery, m.packetId, m.dup⟩

/-- The notes are in step with the messages that wait and those that are stored: a message
has an identifier exactly if it has been noted with it, and what is noted is either
waiting, as a duplicate, or stored under its identifier. -/
structure Kept (waits : Label → Prop) (stored : UInt16 → Option (Delivery × Bool))
    (notes : List Exchange) : Prop where
  fresh : ∀ l, waits l → l.packetId = none → ∀ e ∈ notes, e.delivery ≠ l.delivery
  labelled : ∀ l id, waits l → l.packetId = some id →
    l.dup = true ∧ ⟨l.delivery, id, false⟩ ∈ notes
  recorded : ∀ id d released, stored id = some (d, released) → ⟨d, id, released⟩ ∈ notes
  located : ∀ e ∈ notes,
    (e.released = false ∧ waits ⟨e.delivery, some e.packetId, true⟩) ∨
      stored e.packetId = some (e.delivery, e.released)
  nonzero : ∀ e ∈ notes, e.packetId ≠ 0
  byDelivery : ∀ e ∈ notes, ∀ e' ∈ notes, e.delivery = e'.delivery → e = e'
  byPacketId : ∀ e ∈ notes, ∀ e' ∈ notes, e.packetId = e'.packetId → e = e'

namespace Kept

variable {waits waits' : Label → Prop} {stored stored' : UInt16 → Option (Delivery × Bool)}
  {notes : List Exchange}

theorem nil {waits : Label → Prop} (hwaits : ∀ l, ¬ waits l) : Kept waits (fun _ => none) [] where
  fresh l hl := absurd hl (hwaits l)
  labelled l _ hl := absurd hl (hwaits l)
  recorded _ _ _ h := by cases h
  located _ he := by cases he
  nonzero _ he := by cases he
  byDelivery _ he := by cases he
  byPacketId _ he := by cases he

section

variable (h : Kept waits stored notes)

include h

/-- A message moves about. -/
theorem congr (hwaits : ∀ l, waits' l ↔ waits l) (hsto : ∀ id, stored' id = stored id) :
    Kept waits' stored' notes := by
  have hw : waits' = waits := funext fun l => propext (hwaits l)
  have hs : stored' = stored := funext hsto
  rw [hw, hs]
  exact h

/-- A new message arrives. -/
theorem accept {l : Label} (hnone : l.packetId = none) (hnew : ∀ e ∈ notes, e.delivery ≠ l.delivery)
    (hwaits : ∀ k, waits' k ↔ waits k ∨ k = l) : Kept waits' stored notes where
  fresh k hk hid e he := by
    rcases (hwaits k).mp hk with hold | rfl
    · exact h.fresh k hold hid e he
    · exact hnew e he
  labelled k id hk hid := by
    rcases (hwaits k).mp hk with hold | rfl
    · exact h.labelled k id hold hid
    · rw [hnone] at hid
      cases hid
  recorded := h.recorded
  located e he := (h.located e he).imp_left fun hw => ⟨hw.1, (hwaits _).mpr (.inl hw.2)⟩
  nonzero := h.nonzero
  byDelivery := h.byDelivery
  byPacketId := h.byPacketId

variable {l : Label} {id : UInt16} {released : Bool}

/-- A message that has never been sent is dropped. -/
theorem discard (hl : waits l) (hnone : l.packetId = none)
    (hwaits : ∀ k, waits' k ↔ waits k ∧ k.delivery ≠ l.delivery) : Kept waits' stored notes where
  fresh k hk := h.fresh k ((hwaits k).mp hk).1
  labelled k id hk := h.labelled k id ((hwaits k).mp hk).1
  recorded := h.recorded
  located e he := (h.located e he).imp_left fun hw =>
    ⟨hw.1, (hwaits _).mpr ⟨hw.2, h.fresh l hl hnone e he⟩⟩
  nonzero := h.nonzero
  byDelivery := h.byDelivery
  byPacketId := h.byPacketId

/-- A message goes out for the first time: its exchange is new, and so is the identifier. -/
theorem sendFirst (hl : waits l) (hnone : l.packetId = none) (hid : id ≠ 0)
    (hunused : ∀ e ∈ notes, e.packetId ≠ id)
    (hwaits : ∀ k, waits' k ↔ waits k ∧ k.delivery ≠ l.delivery)
    (hsto : ∀ id', stored' id' = if id' = id then some (l.delivery, false) else stored id') :
    Kept waits' stored' (notes.insert ⟨l.delivery, id, false⟩) := by
  have hnew : ∀ e ∈ notes, e.delivery ≠ l.delivery := h.fresh l hl hnone
  refine ⟨?_, ?_, ?_, ?_, ?_, ?_, ?_⟩
  · intro k hk hkid e he
    obtain ⟨hold, hne⟩ := (hwaits k).mp hk
    rcases mem_insert_iff.mp he with rfl | he
    · exact hne.symm
    · exact h.fresh k hold hkid e he
  · intro k id' hk hkid
    obtain ⟨hdup, hmem⟩ := h.labelled k id' ((hwaits k).mp hk).1 hkid
    exact ⟨hdup, mem_insert_of_mem hmem⟩
  · intro id' d released hlook
    rw [hsto] at hlook
    split at hlook
    · rename_i heq
      cases hlook
      rw [heq]
      exact mem_insert_self
    · exact mem_insert_of_mem (h.recorded id' d released hlook)
  · intro e he
    rcases mem_insert_iff.mp he with rfl | he
    · right
      rw [hsto, if_pos rfl]
    · rcases h.located e he with ⟨hreld, hw⟩ | hlook
      · exact .inl ⟨hreld, (hwaits _).mpr ⟨hw, hnew e he⟩⟩
      · right
        rw [hsto, if_neg (hunused e he)]
        exact hlook
  · intro e he
    rcases mem_insert_iff.mp he with rfl | he
    · exact hid
    · exact h.nonzero e he
  · intro e he e' he' heq
    rcases mem_insert_iff.mp he with rfl | he <;>
      rcases mem_insert_iff.mp he' with rfl | he'
    · rfl
    · exact absurd heq.symm (hnew e' he')
    · exact absurd heq (hnew e he)
    · exact h.byDelivery e he e' he' heq
  · intro e he e' he' heq
    rcases mem_insert_iff.mp he with rfl | he <;>
      rcases mem_insert_iff.mp he' with rfl | he'
    · rfl
    · exact absurd heq.symm (hunused e' he')
    · exact absurd heq (hunused e he)
    · exact h.byPacketId e he e' he' heq

/-- A message goes out again under the identifier it has. -/
theorem sendAgain (hl : waits l) (hlid : l.packetId = some id)
    (hwaits : ∀ k, waits' k ↔ waits k ∧ k.delivery ≠ l.delivery)
    (hsto : ∀ id', stored' id' = if id' = id then some (l.delivery, false) else stored id') :
    Kept waits' stored' (notes.insert ⟨l.delivery, id, false⟩) := by
  obtain ⟨-, hnoted⟩ := h.labelled l id hl hlid
  rw [insert_of_mem hnoted]
  refine ⟨fun k hk => h.fresh k ((hwaits k).mp hk).1,
    fun k id' hk => h.labelled k id' ((hwaits k).mp hk).1, ?_, ?_, h.nonzero, h.byDelivery,
    h.byPacketId⟩
  · intro id' d released hlook
    rw [hsto] at hlook
    split at hlook
    · rename_i heq
      cases hlook
      rw [heq]
      exact hnoted
    · exact h.recorded id' d released hlook
  · intro e he
    by_cases hid : e.packetId = id
    · -- the exchange of this identifier is the one that is sent
      have hsame := h.byPacketId e he _ hnoted hid
      right
      rw [hsto, if_pos hid, hsame]
    · rcases h.located e he with ⟨hreld, hw⟩ | hlook
      · refine .inl ⟨hreld, (hwaits _).mpr ⟨hw, fun hd => hid ?_⟩⟩
        rw [h.byDelivery e he _ hnoted hd]
      · right
        rw [hsto, if_neg hid]
        exact hlook

/-- The exchange of a stored message is finished. -/
theorem finish {d : Delivery} (hlook : stored id = some (d, released))
    (hwaits : ∀ l, waits l → l.delivery ≠ d)
    (hsto : ∀ id', stored' id' = if id' = id then none else stored id') :
    Kept waits stored' (notes.filter fun e => ¬(e.delivery = d ∧ e.packetId = id)) := by
  have hnoted := h.recorded id d released hlook
  have hmem : ∀ e, e ∈ notes.filter (fun e => ¬(e.delivery = d ∧ e.packetId = id)) ↔
      e ∈ notes ∧ e.packetId ≠ id := by
    intro e
    rw [mem_filter, decide_eq_true_iff]
    refine and_congr_right fun he => not_congr ⟨fun hboth => hboth.2, fun hid => ⟨?_, hid⟩⟩
    rw [h.byPacketId e he _ hnoted hid]
  refine ⟨fun l hl hid e he => h.fresh l hl hid e ((hmem e).mp he).1, ?_, ?_, ?_,
    fun e he => h.nonzero e ((hmem e).mp he).1,
    fun e he e' he' => h.byDelivery e ((hmem e).mp he).1 e' ((hmem e').mp he').1,
    fun e he e' he' => h.byPacketId e ((hmem e).mp he).1 e' ((hmem e').mp he').1⟩
  · intro l id' hl hid
    obtain ⟨hdup, hin⟩ := h.labelled l id' hl hid
    refine ⟨hdup, (hmem _).mpr ⟨hin, fun heq => hwaits l hl ?_⟩⟩
    exact congrArg Exchange.delivery (h.byPacketId _ hin _ hnoted heq)
  · intro id' d' released' hlook'
    rw [hsto] at hlook'
    split at hlook'
    · cases hlook'
    · rename_i hne
      exact (hmem _).mpr ⟨h.recorded id' d' released' hlook', hne⟩
  · intro e he
    obtain ⟨hin, hne⟩ := (hmem e).mp he
    rw [hsto, if_neg hne]
    exact h.located e hin

/-- The PUBREC of a stored message arrives. -/
theorem release {d : Delivery} (hlook : stored id = some (d, released))
    (hwaits : ∀ l, waits l → l.delivery ≠ d)
    (hsto : ∀ id', stored' id' = if id' = id then some (d, true) else stored id')
    {notes' : List Exchange} (hnotes : notes' = notes.map fun e =>
      if e.delivery = d ∧ e.packetId = id then { e with released := true } else e) :
    Kept waits stored' notes' := by
  have hnoted := h.recorded id d released hlook
  -- the notes keep the message and the identifier
  have hmem : ∀ e ∈ notes', ∃ e₀ ∈ notes, e.delivery = e₀.delivery ∧ e.packetId = e₀.packetId ∧
        e = if e₀.packetId = id then ⟨d, id, true⟩ else e₀ := by
    intro e he
    obtain ⟨e₀, he₀, rfl⟩ := mem_map.mp (hnotes ▸ he)
    refine ⟨e₀, he₀, ?_⟩
    by_cases hid : e₀.packetId = id
    · have hsame := h.byPacketId e₀ he₀ _ hnoted hid
      rw [if_pos hid, hsame]
      simp
    · rw [if_neg hid, if_neg fun hboth => hid hboth.2]
      exact ⟨rfl, rfl, rfl⟩
  have hback : ∀ e₀ ∈ notes, e₀.packetId ≠ id → e₀ ∈ notes' := by
    intro e₀ he₀ hne
    refine hnotes ▸ mem_map.mpr ⟨e₀, he₀, ?_⟩
    rw [if_neg fun hboth => hne hboth.2]
  have heq : ∀ e ∈ notes', ∀ e' ∈ notes', e.packetId = e'.packetId → e = e' := by
    intro e he e' he' hid
    obtain ⟨e₀, he₀, -, hid₀, hval⟩ := hmem e he
    obtain ⟨e₁, he₁, -, hid₁, hval'⟩ := hmem e' he'
    have hsame := h.byPacketId e₀ he₀ e₁ he₁ (by rw [← hid₀, ← hid₁, hid])
    rw [hval, hval', hsame]
  refine ⟨?_, ?_, ?_, ?_, ?_, ?_, heq⟩
  · intro l hl hid e he
    obtain ⟨e₀, he₀, hd, -, -⟩ := hmem e he
    rw [hd]
    exact h.fresh l hl hid e₀ he₀
  · intro l id' hl hid
    obtain ⟨hdup, hin⟩ := h.labelled l id' hl hid
    refine ⟨hdup, hback _ hin fun hid' => hwaits l hl ?_⟩
    exact congrArg Exchange.delivery (h.byPacketId _ hin _ hnoted hid')
  · intro id' d' released' hlook'
    rw [hsto] at hlook'
    split at hlook'
    · rename_i hid
      cases hlook'
      exact hnotes ▸ mem_map.mpr ⟨_, hnoted, by simp [hid]⟩
    · rename_i hne
      exact hback _ (h.recorded id' d' released' hlook') hne
  · intro e he
    obtain ⟨e₀, he₀, -, hid, hval⟩ := hmem e he
    by_cases hid₀ : e₀.packetId = id
    · right
      rw [hsto, if_pos (hid.trans hid₀), hval, if_pos hid₀]
    · rw [if_neg hid₀] at hval
      subst hval
      rw [hsto, if_neg hid₀]
      exact h.located e he₀
  · intro e he
    obtain ⟨e₀, he₀, -, hid, -⟩ := hmem e he
    rw [hid]
    exact h.nonzero e₀ he₀
  · intro e he e' he' hd
    obtain ⟨e₀, he₀, hd₀, hid₀, -⟩ := hmem e he
    obtain ⟨e₁, he₁, hd₁, hid₁, -⟩ := hmem e' he'
    have hsame := h.byDelivery e₀ he₀ e₁ he₁ (by rw [← hd₀, ← hd₁, hd])
    exact heq e he e' he' (by rw [hid₀, hid₁, hsame])

/-- Stored messages whose PUBREC has not arrived go back among those that wait, as
duplicates under their identifiers. -/
theorem handBack (back : UInt16 → Prop) (hback : ∀ id, back id → ∃ d, stored id = some (d, false))
    (hwaits : ∀ l, waits' l ↔ waits l ∨
      ∃ id, back id ∧ stored id = some (l.delivery, false) ∧ l.packetId = some id ∧ l.dup)
    (hgone : ∀ id, back id → stored' id = none)
    (hsto : ∀ id, ¬ back id → stored' id = stored id) : Kept waits' stored' notes where
  fresh l hl hid := by
    rcases (hwaits l).mp hl with hold | ⟨id, -, -, hlid, -⟩
    · exact h.fresh l hold hid
    · rw [hid] at hlid
      cases hlid
  labelled l id hl hid := by
    rcases (hwaits l).mp hl with hold | ⟨_, -, hlook, hlid, hdup⟩
    · exact h.labelled l id hold hid
    · rw [hid] at hlid
      cases hlid
      exact ⟨hdup, h.recorded id l.delivery false hlook⟩
  recorded id d released hlook := by
    by_cases hb : back id
    · rw [hgone id hb] at hlook
      cases hlook
    · rw [hsto id hb] at hlook
      exact h.recorded id d released hlook
  located e he := by
    rcases h.located e he with ⟨hreld, hw⟩ | hlook
    · exact .inl ⟨hreld, (hwaits _).mpr (.inl hw)⟩
    · by_cases hb : back e.packetId
      · obtain ⟨d, hd⟩ := hback e.packetId hb
        rw [hlook] at hd
        obtain ⟨-, hreld⟩ := Prod.mk.inj (Option.some.inj hd)
        rw [hreld] at hlook
        exact .inl ⟨hreld, (hwaits _).mpr (.inr ⟨e.packetId, hb, hlook, rfl, rfl⟩)⟩
      · right
        rw [hsto _ hb]
        exact hlook
  nonzero := h.nonzero
  byDelivery := h.byDelivery
  byPacketId := h.byPacketId

end

end Kept

/-! ## The invariant -/

/-- A message with this label waits. -/
def State.Waits (s : State α) (l : Label) : Prop := l ∈ s.atRest.map label

/-- What is stored under an identifier: the message, and whether it waits for PUBCOMP. -/
def State.stored (s : State α) (id : UInt16) : Option (Delivery × Bool) :=
  (s.records.lookup id).map fun record =>
    (record.message.delivery, decide (record.phase = .awaitingPubcomp))

/-- The notes are kept, and what has not been sent from a lane or by a router has no
identifier yet. -/
structure Tagged (s : State α) (notes : List Exchange) : Prop where
  kept : Kept s.Waits s.stored notes
  lanes : ∀ g, ∀ m ∈ (s.handlers g).lane.contents, m.packetId = none
  staged : ∀ p, ∀ m ∈ (s.publishers p).stage.message, m.packetId = none

section

variable {s s' : State α} {g : Nat} {notes : List Exchange}

/-- A message with this label is with another connection. -/
def State.Elsewhere (s : State α) (g : Nat) (l : Label) : Prop :=
  ∃ k < s.nextGeneration, k ≠ g ∧ l ∈ (s.handlers k).waiting.map label

theorem waits_iff (hg : g < s.nextGeneration) (l : Label) :
    s.Waits l ↔ (l ∈ s.queue.messages.map label ∨ l ∈ (s g).waiting.map label) ∨
      s.Elsewhere g l := by
  unfold State.Waits State.atRest
  rw [map_append, mem_append, map_flatMap, mem_flatMap, or_assoc]
  refine or_congr_right ⟨?_, ?_⟩
  · rintro ⟨k, hk, hl⟩
    by_cases hkg : k = g
    · exact .inl (hkg ▸ hl)
    · exact .inr ⟨k, List.mem_range.mp hk, hkg, hl⟩
  · rintro (hl | ⟨k, hk, -, hl⟩)
    · exact ⟨g, List.mem_range.mpr hg, hl⟩
    · exact ⟨k, List.mem_range.mpr hk, hl⟩

variable {h' : Handler α} {l : Label} {id : UInt16} {record : InflightRecord α} {p : Nat}
  {m : Message α} {phase : Phase α} {queue : ClientQueue (Message α)}
  {written delivering windowOpen waived : Bool} {contents held : List (Message α)}
  {sorted : List (UInt16 × InflightRecord α)} {a : Action α}

/-- Only the queue and one connection have changed. -/
theorem waits_congr (s' : State α) (hg : g < s.nextGeneration)
    (hhs : s'.handlers = update s.handlers g h')
    (hnext : s'.nextGeneration = s.nextGeneration) (l : Label) :
    s'.Waits l ↔ (l ∈ s'.queue.messages.map label ∨ l ∈ h'.waiting.map label) ∨
      s.Elsewhere g l := by
  rw [waits_iff (hnext.symm ▸ hg), hhs, update_self]
  unfold State.Elsewhere
  rw [hhs, hnext]
  refine or_congr_right
    (exists_congr fun k => and_congr_right fun _ => and_congr_right fun hk => ?_)
  rw [update_of_ne hk]

/-- What waits is on its way, apart from the records. -/
theorem State.Waits.mem (hl : s.Waits l) :
    l.delivery ∈ ((s.queue.messages.map Message.delivery : List Delivery) : Multiset Delivery) +
      ∑ g ∈ Finset.range s.nextGeneration, (s g).holdings := by
  unfold State.Waits State.atRest at hl
  obtain ⟨m, hm, rfl⟩ := mem_map.mp hl
  rcases mem_append.mp hm with hqueue | hheld
  · exact mem_add.mpr (.inl (mem_coe.mpr (List.mem_map_of_mem hqueue)))
  · obtain ⟨g, hg, hmem⟩ := List.mem_flatMap.mp hheld
    refine mem_add.mpr (.inr (mem_sum.mpr ⟨g, ?_, ?_⟩))
    · exact Finset.mem_range.mpr (List.mem_range.mp hg)
    · exact mem_coe.mpr (List.mem_map_of_mem hmem)

theorem mem_deliveries_of_lookup (hlook : s.records.lookup id = some record) :
    record.message.delivery ∈ s.records.deliveries := by
  rw [Records.deliveries_erase hlook]
  exact mem_cons_self _ _

/-- What is stored does not wait. -/
theorem Inv.waits_of_stored (h : Inv s) (hl : s.Waits l) {d : Delivery}
    (hd : d ∈ s.records.deliveries) : l.delivery ≠ d := by
  have hnd := h.stock_nodup
  unfold State.stock at hnd
  rintro rfl
  exact disjoint_left.mp (nodup_add.mp hnd).2.2 hl.mem hd

/-- What is discarded does not wait. -/
theorem Inv.waits_of_discarded (h : Inv s) (hl : s.Waits l) {d : Delivery}
    (hd : d ∈ s.history.discarded) : l.delivery ≠ d := by
  have hnd := h.nodup
  rw [h.ledger] at hnd
  rintro rfl
  refine disjoint_left.mp (nodup_add.mp hnd).2.2 (mem_add.mpr (.inr hd)) ?_
  unfold State.stock
  exact mem_add.mpr (.inl hl.mem)

/-- Every exchange is of an accepted message. -/
theorem Tagged.accepted (h : Tagged s notes) (hinv : Inv s) {e : Exchange} (he : e ∈ notes) :
    e.delivery ∈ s.history.accepted := by
  rw [hinv.ledger]
  refine mem_add.mpr (.inr ?_)
  unfold State.stock
  rcases h.kept.located e he with ⟨-, hw⟩ | hsto
  · exact mem_add.mpr (.inl hw.mem)
  · obtain ⟨_, hlook, heq⟩ := Option.map_eq_some_iff.mp hsto
    obtain ⟨hd, -⟩ := Prod.mk.inj heq
    rw [← hd]
    exact mem_add.mpr (.inr (mem_deliveries_of_lookup hlook))

/-- A router's message is in no exchange yet. -/
theorem Tagged.unknown (h : Tagged s notes) (hinv : Inv s)
    (hm : m.delivery = ⟨p, (s.publishers p).next⟩) :
    ∀ e ∈ notes, e.delivery ≠ (label m).delivery := by
  intro e he heq
  have hlt := hinv.numbered e.delivery (h.accepted hinv he)
  have hd : e.delivery = ⟨p, (s.publishers p).next⟩ := heq.trans hm
  rw [hd] at hlt
  exact lt_irrefl _ hlt

theorem Initial.tagged (h : Initial s) : Tagged s [] where
  kept := by
    have hmsgs : s.queue.messages = [] := by
      rw [messages, h.entries]
      rfl
    have hsto : s.stored = fun _ => none := by
      funext id
      unfold State.stored
      rw [h.records]
      rfl
    rw [hsto]
    refine Kept.nil fun l hl => ?_
    unfold State.Waits State.atRest at hl
    simp [hmsgs, h.handlers, waiting, Phase.pending] at hl
  lanes g m hm := by
    rw [h.handlers g] at hm
    cases hm
  staged p m hm := by
    rw [h.publishers p] at hm
    cases hm

/-- One connection changes and the queue with it, and the same messages wait. -/
theorem Tagged.replace (h : Tagged s notes) {h' : Handler α} (hg : g < s.nextGeneration)
    (hhs : s'.handlers = update s.handlers g h')
    (hnext : s'.nextGeneration = s.nextGeneration) (hrecs : s'.records = s.records)
    (hpubs : s'.publishers = s.publishers) (hlane : ∀ m ∈ h'.lane.contents, m ∈ (s g).lane.contents)
    (hwaits : ∀ l, l ∈ s'.queue.messages.map label ∨ l ∈ h'.waiting.map label ↔
      l ∈ s.queue.messages.map label ∨ l ∈ (s g).waiting.map label) :
    Tagged s' notes where
  kept := by
    refine h.kept.congr (fun l => ?_) (fun id => ?_)
    · rw [waits_congr s' hg hhs hnext, waits_iff hg, hwaits]
    · unfold State.stored
      rw [hrecs]
  lanes := forall_update hhs (fun m hm => h.lanes g m (hlane m hm)) fun k _ => h.lanes k
  staged p m hm := by
    rw [hpubs] at hm
    exact h.staged p m hm

/-- A connection goes on with all that it has. -/
theorem Tagged.still (h : Tagged s notes) (hg : g < s.nextGeneration)
    (hhs : s'.handlers = update s.handlers g h')
    (hnext : s'.nextGeneration = s.nextGeneration) (hrecs : s'.records = s.records)
    (hpubs : s'.publishers = s.publishers) (hents : s'.queue.entries = s.queue.entries)
    (hlane : h'.lane.contents = (s g).lane.contents) (hheld : h'.held = (s g).held)
    (hpend : h'.phase.pending = (s g).phase.pending) : Tagged s' notes := by
  have hmsgs : s'.queue.messages = s.queue.messages := by
    unfold messages
    rw [hents]
  have hsame : h'.waiting = (s g).waiting := by
    unfold waiting
    rw [hlane, hheld, hpend]
  refine h.replace hg hhs hnext hrecs hpubs (fun m hm => hlane ▸ hm) fun l => ?_
  rw [hmsgs, hsame]

/-! ## Steps of one connection -/

theorem Tagged.expect (h : Tagged s notes) (capacity window drainBatch : Nat)
    (maxPacketSize : Option Nat) :
    Tagged (s.expect capacity window drainBatch maxPacketSize) notes := by
  have hborn : ∀ k < s.nextGeneration,
      (s.expect capacity window drainBatch maxPacketSize).handlers k = s k :=
    fun k hk => update_of_ne (by omega) _ _
  have hnew : ((s.expect capacity window drainBatch maxPacketSize).handlers
      s.nextGeneration).waiting = [] := by
    show (update s.handlers s.nextGeneration _ s.nextGeneration).waiting = []
    rw [update_self]
    rfl
  refine ⟨h.kept.congr (fun l => ?_) fun _ => rfl, ?_, h.staged⟩
  · unfold State.Waits
    have hsame : (s.expect capacity window drainBatch maxPacketSize).atRest = s.atRest := by
      show s.queue.messages ++ (List.range (s.nextGeneration + 1)).flatMap _ = _
      rw [List.range_succ, List.flatMap_append, List.flatMap_singleton, hnew, List.append_nil]
      refine congrArg (s.queue.messages ++ ·) (List.flatMap_congr fun k hk => ?_)
      rw [hborn k (List.mem_range.mp hk)]
    rw [hsame]
  · show ∀ k, ∀ m ∈ (update s.handlers s.nextGeneration _ k).lane.contents, m.packetId = none
    exact forall_update rfl nofun fun k _ => h.lanes k

section

variable (hs : Tagged s notes) (hinv : Inv s)
include hs hinv

theorem Tagged.register (hregs : s.register g = some s') : Tagged s' notes := by
  obtain ⟨t, _, hdisp, -, hphase, rfl⟩ := hinv.register_cases hregs
  obtain ⟨hinv', hs'⟩ : Inv t ∧ Tagged t notes := by
    rcases hdisp with rfl | ⟨_, hreg, rfl⟩
    · exact ⟨hinv, hs⟩
    · have hold := hinv.born_of_registered hreg
      exact ⟨hinv.displace hreg, hs.still hold rfl rfl rfl rfl rfl rfl rfl rfl⟩
  exact hs'.still (hinv'.born (by simp [hphase])) rfl rfl rfl rfl rfl rfl rfl (by rw [hphase]; rfl)

/-- The connection goes on with the batch it has. -/
theorem Tagged.stays (hstays : Stays s g s') : Tagged s' notes := by
  obtain ⟨⟨_, phase, hbusy, -, -, -, hents, -, -⟩, hpend⟩ := hstays
  refine hs.still (hinv.born hbusy) rfl rfl rfl rfl hents rfl rfl ?_
  rw [← hpend]
  show _ = (update s.handlers g { s g with phase } g).phase.pending
  rw [update_self]

theorem Tagged.release (hrel : s.release g = some s') : Tagged s' notes := by
  rcases release_cases hrel with hstays | ⟨_, -, hpend, hbusy, -, -, rfl⟩
  · exact hs.stays hinv hstays
  · exact hs.still (hinv.born hbusy) rfl rfl rfl rfl rfl rfl rfl (by rw [hpend]; rfl)

/-- The guard of the notice is dropped, or there is none. -/
theorem Tagged.answered (hents : queue.entries = s.queue.entries)
    (hbusy : (s g).phase ≠ .idle) (hlane : h'.lane.contents = (s g).lane.contents)
    (hheld : h'.held = (s g).held) (hpend : h'.phase.pending = (s g).phase.pending) :
    Tagged (State.answered { s with queue } g h') notes := by
  unfold State.answered
  split <;> exact hs.still (hinv.born hbusy) rfl rfl rfl rfl hents hlane hheld hpend

theorem Tagged.endHandoff (hend : s.endHandoff g = some s') : Tagged s' notes := by
  unfold State.endHandoff at hend
  dsimp only at hend
  split at hend
  · rename_i hphase
    cases hend
    exact hs.answered hinv rfl (by simp [hphase]) rfl rfl (by rw [hphase]; rfl)
  · cases hend

theorem Tagged.finish [Publishable α] (hregl : Regular s (.finish g))
    (hfin : s.finish g = some s') : Tagged s' notes := by
  unfold State.finish at hfin
  dsimp only at hfin
  split at hfin
  · rename_i release hphase
    cases hfin
    exact hs.still (hinv.born (by simp [hphase])) rfl rfl rfl rfl rfl rfl rfl (by rw [hphase]; rfl)
  · rename_i release hphase
    cases hfin
    exact hs.answered hinv rfl (by simp [hphase]) rfl rfl (by rw [hphase]; rfl)
  · rename_i release hphase
    cases hfin
    refine hs.answered hinv rfl (by simp [hphase]) ?_ rfl (by rw [hphase]; rfl)
    rw [(hregl release hphase).1]
  · cases hfin

end

/-! ## Batches -/

/-- Messages move between the queue and the batch of a connection. -/
theorem Tagged.rebatch (h : Tagged s notes) (hg : g < s.nextGeneration)
    (hwaits : ∀ l, l ∈ queue.messages.map label ∨ l ∈ phase.pending.map label ↔
      l ∈ s.queue.messages.map label ∨ l ∈ (s g).phase.pending.map label) :
    Tagged (State.setHandler { s with queue } g { s g with phase }) notes := by
  refine h.replace hg rfl rfl rfl rfl (fun m hm => hm) fun l => ?_
  have hl := hwaits l
  simp only [State.setHandler, waiting, map_append, mem_append]
  tauto

section

variable (hs : Tagged s notes) (hinv : Inv s) {now : SystemTime}
include hs hinv

theorem Tagged.take [Publishable α] (hregl : Regular s (.take g now))
    (htake : s.take g now = some s') : Tagged s' notes := by
  obtain ⟨_, _, _, hphase, hsplit, -, -, rfl⟩ := take_cases hregl htake
  refine hs.rebatch (hinv.born (by simp [hphase])) fun l => ?_
  rw [hsplit, hphase]
  simp only [Phase.pending, map_append, mem_append, map_nil, not_mem_nil, or_false]
  exact or_comm

theorem Tagged.mark [Publishable α] (hregl : Regular s (.mark g now))
    (hmark : s.mark g now = some s') : Tagged s' notes := by
  unfold State.mark at hmark
  dsimp only at hmark
  split at hmark
  · rename_i entries hphase
    cases hmark
    obtain ⟨hents, -, -⟩ := settleTake_markDraining s.queue entries
      (entries.filterMap (readEntry (fun _ => none) now))
    refine hs.rebatch (hinv.born (by simp [hphase])) fun l => ?_
    -- the contents may have another expiry, the labels are the same
    have hlabels := map_readEntry (f := label) (fun _ => rfl) (hregl entries hphase)
    unfold messages
    rw [hents, hphase]
    simp only [Phase.pending, hlabels]
  · cases hmark

theorem Tagged.proceed [Publishable α] {cut : Bool} (hregl : Regular s (.proceed g cut))
    (hproc : s.proceed g cut = some s') : Tagged s' notes := by
  rcases hinv.proceed_cases hregl hproc with
    hstays | ⟨rest, queue, hphase, hmsgs, -, -, rfl⟩
  · exact hs.stays hinv hstays
  · refine hs.rebatch (hinv.born (by simp [hphase])) fun l => ?_
    rw [hmsgs, hphase]
    simp only [Phase.pending, map_append, mem_append, map_nil, not_mem_nil, or_false]
    exact or_comm

/-- A displaced connection keeps the rest of its batch for the hand-off. -/
theorem Tagged.hold {rest : List (Message α)} (hphase : (s g).phase = .sending (m :: rest)) :
    Tagged (s.setHandler g
      { s g with phase := .top, held := (s g).held ++ m :: rest }) notes := by
  refine hs.replace (hinv.born (by simp [hphase])) rfl rfl rfl rfl (fun m hm => hm) fun l => ?_
  simp [State.setHandler, waiting, hphase, Phase.pending]

end

/-! ## Sending -/

/-- The identifier a message has is taken again if it is free. -/
theorem takePacketId_of_packetId {o : Outbound α} (hm : m.packetId = some id) (hid : id ≠ 0)
    (hunused : o.inUse id = false) : o.takePacketId m = (id, o) := by
  have hreus : o.reusable m := by
    unfold reusable
    rw [hm, Option.any_some, hunused, bne_iff_ne.mpr hid]
    rfl
  unfold takePacketId
  rw [if_pos hreus, hm]
  rfl

/-- A message has left the lane or the batch of a connection, which has the rest of both. -/
structure Leaves (s s' : State α) (g : Nat) (contents held : List (Message α)) (h' : Handler α) :
    Prop where
  handlers : s'.handlers = Function.update s.handlers g h'
  generation : s'.nextGeneration = s.nextGeneration
  queue : s'.queue = s.queue
  publishers : s'.publishers = s.publishers
  lane : h'.lane.contents = contents
  waiting : ∀ m, m ∈ h'.waiting ↔ m ∈ contents ++ held

/-- `send_publish` discards the message, or sends it under an identifier that no message in
flight has: its own, if that is not in use. -/
theorem transmit_cases [Publishable α] {held' : List (Message α)}
    (hnext : (s g).outbound.nextPacketId ≠ 0)
    (hsendb : Sendable (s g) (some m)) (hheld : held' = held ++ phase.pending)
    (hs' : s' = s.transmit g m written ((s g).without contents held phase)
      ((s g).without contents held' (.leaving .closed))) :
    ∃ h', Leaves s s' g contents held' h' ∧
      ((s'.records = s.records ∧ h'.sends = (s g).sends ∧
          m.delivery ∈ s'.history.discarded ∧
          ∃ size ∈ Publishable.encodedSize m.content,
            ∃ max ∈ (s g).outbound.maxPacketSize, max < size) ∨
        ∃ id, id ≠ 0 ∧ (s g).outbound.inUse id = false ∧
          (∀ i, m.packetId = some i → i ≠ 0 → (s g).outbound.inUse i = false → id = i) ∧
          s'.records = s.records.insert id ⟨{ m with packetId := some id }, .awaitingPubrec⟩ ∧
          h'.sends.length = (s g).sends.length + 1 ∧
          h'.outbound.order.getLast? = some id ∧
          h'.outbound.inflight.lookup id = some { m with packetId := some id }) := by
  obtain ⟨id, next, htake, hunused, -⟩ := takePacketId_spec hnext hsendb.1 m
  have hid := takePacketId_ne_zero hnext m
  rw [htake] at hid
  obtain ⟨size, hsize⟩ := Option.isSome_iff_exists.mp (hsendb.2 m rfl)
  have hown : ∀ i, m.packetId = some i → i ≠ 0 →
      (s g).outbound.inUse i = false → id = i := by
    intro i hm hi hfree
    have hown := takePacketId_of_packetId hm hi hfree
    rw [htake] at hown
    exact congrArg Prod.fst hown
  have honward : ∀ m', m' ∈ ((s g).without contents held phase).waiting ↔
      m' ∈ contents ++ held' := by
    intro m'
    show m' ∈ contents ++ held ++ phase.pending ↔ _
    rw [hheld, append_assoc]
  have hstopped : ∀ m', m' ∈ ((s g).without contents held' (.leaving .closed)).waiting ↔
      m' ∈ contents ++ held' := by
    intro m'
    show m' ∈ contents ++ held' ++ [] ↔ _
    rw [append_nil]
  unfold State.transmit at hs'
  by_cases hlarge : (s g).outbound.maxPacketSize.any fun max => size > max
  · have hsend : (s g).outbound.sendPublish s.records m =
        (.discarded, { (s g).outbound with nextPacketId := next }, s.records) := by
      unfold sendPublish
      rw [htake, hsize]
      exact if_pos hlarge
    rw [hsend] at hs'
    subst hs'
    have hlimit : ∃ max ∈ (s g).outbound.maxPacketSize, max < size := by
      cases hmax : (s g).outbound.maxPacketSize with
      | none => simp [hmax] at hlarge
      | some max => exact ⟨max, rfl, by simpa [hmax] using hlarge⟩
    exact ⟨_, ⟨rfl, rfl, rfl, rfl, rfl, honward⟩,
      .inl ⟨rfl, rfl, mem_cons_self _ _, size, hsize, hlimit⟩⟩
  · have hsend : (s g).outbound.sendPublish s.records m =
        (.sent,
          { (s g).outbound with
            nextPacketId := next
            order := (s g).outbound.order.filter (· ≠ id) ++ [id]
            inflight := (s g).outbound.inflight.insert id { m with packetId := some id } },
          s.records.insert id ⟨{ m with packetId := some id }, .awaitingPubrec⟩) := by
      unfold sendPublish
      rw [htake, hsize]
      exact if_neg hlarge
    rw [hsend] at hs'
    cases written with
    | true =>
      subst hs'
      exact ⟨_, ⟨rfl, rfl, rfl, rfl, rfl, honward⟩, .inr ⟨id, hid, hunused, hown, rfl,
        length_append, getLast?_concat, lookup_insert _⟩⟩
    | false =>
      subst hs'
      exact ⟨_, ⟨rfl, rfl, rfl, rfl, rfl, hstopped⟩, .inr ⟨id, hid, hunused, hown, rfl,
        length_append, getLast?_concat, lookup_insert _⟩⟩

/-- The PUBLISH sent last keeps to the notes: if its message is in an exchange that has not
been answered, it is a duplicate under the identifier of that exchange, and no other
exchange has the identifier. -/
def Faithful (o : Outbound α) (notes : List Exchange) : Prop :=
  ∃ id m, o.order.getLast? = some id ∧ o.inflight.lookup id = some m ∧
    (∀ e ∈ notes, e.delivery = m.delivery →
      e.packetId = id ∧ e.released = false ∧ m.dup = true) ∧
    ∀ e ∈ notes, e.packetId = id → e.delivery = m.delivery

theorem stored_insert {records : Records α} (hrecs : s'.records = records.insert id record)
    (id' : UInt16) :
    s'.stored id' =
      if id' = id then some (record.message.delivery, decide (record.phase = .awaitingPubcomp))
      else (records.lookup id').map fun record =>
        (record.message.delivery, decide (record.phase = .awaitingPubcomp)) := by
  unfold State.stored
  rw [hrecs]
  by_cases hid : id' = id
  · rw [if_pos hid, hid, lookup_insert]
    rfl
  · rw [if_neg hid, lookup_insert_of_ne _ hid]

theorem stored_of_lookup (hlook : s.records.lookup id = some record) :
    s.stored id =
      some (record.message.delivery, decide (record.phase = .awaitingPubcomp)) := by
  unfold State.stored
  rw [hlook]
  rfl

/-- The one message that is sent stops waiting. -/
theorem Leaves.waits (hleaves : Leaves s s' g contents held h') (hg : g < s.nextGeneration)
    (hsplit : ∀ m', m' ∈ (s g).waiting ↔ m' = m ∨ m' ∈ contents ++ held)
    (hgone : ∀ l, s'.Waits l → l.delivery ≠ m.delivery) (l : Label) :
    s'.Waits l ↔ s.Waits l ∧ l.delivery ≠ (label m).delivery := by
  have hpre : l ∈ (s g).waiting.map label ↔ l = label m ∨ l ∈ h'.waiting.map label := by
    simp only [List.mem_map, hsplit, hleaves.waiting]
    constructor
    · rintro ⟨m', rfl | hm', rfl⟩
      · exact .inl rfl
      · exact .inr ⟨m', hm', rfl⟩
    · rintro (rfl | ⟨m', hm', rfl⟩)
      · exact ⟨m, .inl rfl, rfl⟩
      · exact ⟨m', .inr hm', rfl⟩
  have hafter := waits_congr s' hg hleaves.handlers hleaves.generation l
  rw [hleaves.queue] at hafter
  rw [waits_iff hg, hpre]
  constructor
  · intro hl
    refine ⟨?_, hgone l hl⟩
    have := hafter.mp hl
    tauto
  · rintro ⟨hl, hne⟩
    refine hafter.mpr ?_
    have hoth : l ≠ label m := fun heq => hne (congrArg Label.delivery heq)
    tauto

theorem Leaves.tagged (hleaves : Leaves s s' g contents held h') (h : Tagged s notes)
    (hcont : ∀ m ∈ contents, m ∈ (s g).lane.contents) {notes' : List Exchange}
    (hkept : Kept s'.Waits s'.stored notes') : Tagged s' notes' where
  kept := hkept
  lanes := by
    refine forall_update hleaves.handlers (fun m hm => ?_) fun k _ => h.lanes k
    rw [hleaves.lane] at hm
    exact h.lanes g m (hcont m hm)
  staged p m hm := by
    rw [hleaves.publishers] at hm
    exact h.staged p m hm

/-- The identifier of a message that waits is not in flight. -/
theorem Tagged.lookup_none (h : Tagged s notes) (hinv : Inv s)
    (htrk : (s g).outbound.Tracked s.records) (hl : s.Waits l)
    (hid : l.packetId = some id) : (s g).outbound.inflight.lookup id = none := by
  obtain ⟨-, hnoted⟩ := h.kept.labelled l id hl hid
  by_contra hsome
  obtain ⟨m, hm⟩ := Option.ne_none_iff_exists'.mp hsome
  have hlook := htrk.recorded id m hm
  have hsame := h.kept.byPacketId _ (h.kept.recorded _ _ _ (stored_of_lookup hlook)) _ hnoted rfl
  exact hinv.waits_of_stored hl (mem_deliveries_of_lookup hlook)
    (congrArg Exchange.delivery hsame).symm

/-- An identifier that is not in flight is in no exchange, if nothing waits with one. -/
theorem Tagged.unused (h : Tagged s notes) (hcov : (s g).outbound.Covers s.records)
    (hnone : (s g).outbound.inflight.lookup id = none)
    (hwaits : ∀ waiting ∈ s.atRest, waiting.packetId = none) : ∀ e ∈ notes, e.packetId ≠ id := by
  rintro e he rfl
  rcases h.kept.located e he with ⟨-, hw⟩ | hsto
  · obtain ⟨m, hm, heq⟩ := mem_map.mp hw
    have hid : m.packetId = some e.packetId := congrArg Label.packetId heq
    rw [hwaits m hm] at hid
    cases hid
  · obtain ⟨_, hlook, -⟩ := Option.map_eq_some_iff.mp hsto
    have hsome := hcov e.packetId (by rw [hlook]; rfl)
    rw [hnone] at hsome
    cases hsome

/-- What waits with the connection is the message, and what is left. -/
theorem Picks.mem_waiting [Publishable α] (h : Picks s a g m contents phase)
    (m' : Message α) : m' ∈ (s g).waiting ↔
      m' = m ∨ m' ∈ contents ++ ((s g).held ++ phase.pending) := by
  unfold waiting
  rcases h.next with ⟨-, hlane, hnone, hnone'⟩ | ⟨-, -, hlane, hbatch⟩
  · rw [hlane, hnone, hnone', append_nil, append_nil, cons_append, List.mem_cons]
  · rw [hlane, hbatch]
    simp only [mem_append, List.mem_cons]
    tauto

theorem Picks.mem_lane [Publishable α] (h : Picks s a g m contents phase) :
    ∀ m' ∈ contents, m' ∈ (s g).lane.contents := by
  intro m' hm'
  rcases h.next with ⟨-, hlane, -, -⟩ | ⟨-, -, hlane, -⟩
  · rw [hlane]
    exact List.mem_cons_of_mem _ hm'
  · rwa [hlane]

theorem Picks.undisturbed [Publishable α] {exactlyOnce : α → Bool}
    (h : Picks s a g m contents phase) (hstable : Stable exactlyOnce s a) :
    Undisturbed s g (some m) := by
  rcases h.next with ⟨⟨written, hsender⟩, hlane, -, -⟩ | ⟨⟨written, rfl⟩, hkept, -, hbatch⟩
  · have hhead : Undisturbed s g (s g).lane.contents.head? := by
      rcases hsender with rfl | rfl <;> exact hstable.2
    rwa [hlane] at hhead
  · have hhead := hstable.2 hkept
    rw [hbatch] at hhead
    exact hhead

section

variable (hs : Tagged s notes) (hinv : Inv s) (hinv' : Inv s') {exactlyOnce : α → Bool}
include hs hinv hinv'

theorem Tagged.transmit [Publishable α] {a : Action α}
    (hpicks : Picks s a g m contents phase) (hstable : Stable exactlyOnce s a)
    (hs' : s' = s.transmit g m written ((s g).without contents (s g).held phase)
      ((s g).without contents ((s g).held ++ phase.pending)
        (.leaving .closed))) :
    Tagged s' (noteSent s s' g notes) ∧
      (Publishes s s' g → Faithful (s' g).outbound notes) := by
  have hwork := Phase.working_of_delivering hpicks.delivering
  have hborn : g < s.nextGeneration := hinv.born fun hidle => by
    rw [hidle] at hwork
    cases hwork
  have hload := hinv.loaded_of_delivering hpicks.delivering
  have htrk := (hinv.sound g).tracked hload
  have hcov := (hinv.sound g).covers hload hwork
  obtain ⟨hfits, hfirst⟩ := hpicks.undisturbed hstable m rfl
  have hwait : s.Waits (label m) :=
    (waits_iff hborn _).mpr (.inl (.inr (mem_map_of_mem ((hpicks.mem_waiting m).mpr (.inl rfl)))))
  obtain ⟨h', hleaves, hcases⟩ := transmit_cases htrk.next hpicks.sendable rfl hs'
  have hself : s'.handlers g = h' := by rw [hleaves.handlers, update_self]
  rcases hcases with ⟨hrecs, hsends, hdiscarded, size, hsize, max, hmax, hlarge⟩ |
    ⟨id, hid, hunused, hown, hrecs, hsends, hlast, hlook⟩
  · -- only a message that has never been sent is discarded
    have hnone : m.packetId = none := by
      by_contra hsome
      obtain ⟨i, hi⟩ := Option.ne_none_iff_exists'.mp hsome
      have hle := (hfits i hi).2 size hsize max hmax
      omega
    have hsilent : ¬ Publishes s s' g := by
      unfold Publishes
      rw [hself, hsends]
      exact lt_irrefl _
    refine ⟨?_, fun hpub => absurd hpub hsilent⟩
    unfold noteSent
    rw [if_neg hsilent]
    refine hleaves.tagged hs hpicks.mem_lane ?_
    have hwaits := hleaves.waits hborn hpicks.mem_waiting fun l hl =>
      hinv'.waits_of_discarded hl hdiscarded
    have hsto : s'.stored = s.stored := by
      unfold State.stored
      rw [hrecs]
    rw [hsto]
    exact hs.kept.discard hwait hnone hwaits
  · have hpub : Publishes s s' g := by
      unfold Publishes
      rw [hself, hsends]
      exact Nat.lt_succ_self _
    have hlat : latest (s' g).outbound = some ⟨m.delivery, id, false⟩ := by
      unfold latest
      rw [hself, hlast, Option.bind_some, hlook]
      rfl
    have hinserted : s'.records.lookup id =
        some ⟨{ m with packetId := some id }, .awaitingPubrec⟩ := by
      rw [hrecs, lookup_insert]
    have hwaits := hleaves.waits hborn hpicks.mem_waiting fun l hl =>
      hinv'.waits_of_stored hl (mem_deliveries_of_lookup hinserted)
    have hsto := fun id' => stored_insert hrecs id'
    unfold noteSent
    rw [if_pos hpub, hlat, hself]
    cases hm : m.packetId with
    | none =>
      have hnew := hs.unused hcov (lookup_of_inUse hunused) (hfirst hm)
      refine ⟨hleaves.tagged hs hpicks.mem_lane (hs.kept.sendFirst hwait hm hid hnew hwaits hsto),
        fun _ => ⟨id, _, hlast, hlook, fun e he hd => ?_, fun e he heq => ?_⟩⟩
      · exact absurd hd (hs.kept.fresh (label m) hwait hm e he)
      · exact absurd heq (hnew e he)
    | some i =>
      obtain ⟨hdup, hnoted⟩ := hs.kept.labelled (label m) i hwait hm
      have hfree : (s g).outbound.inUse i = false := by
        unfold inUse
        rw [hs.lookup_none hinv htrk hwait hm, decide_eq_false (hfits i hm).1]
        rfl
      have hsame : id = i := hown i hm (hs.kept.nonzero _ hnoted) hfree
      subst hsame
      refine ⟨hleaves.tagged hs hpicks.mem_lane (hs.kept.sendAgain hwait hm hwaits hsto),
        fun _ => ⟨id, _, hlast, hlook, fun e he hd => ?_, fun e he heq => ?_⟩⟩
      · rw [hs.kept.byDelivery e he _ hnoted hd]
        exact ⟨rfl, rfl, hdup⟩
      · rw [hs.kept.byPacketId e he _ hnoted heq]
        rfl

/-- A step that may send keeps the invariant, and what it sends keeps to the notes. -/
theorem Tagged.sends [Publishable α] {a : Action α}
    (hstable : Stable exactlyOnce s a) (hact : act s a = some s') (hsender : a.sender = some g) :
    Tagged s' (trace exactlyOnce s a s' notes) ∧
      (Publishes s s' g → Faithful (s' g).outbound notes) := by
  have htrace : trace exactlyOnce s a s' notes = noteSent s s' g notes := by
    cases a <;> cases hsender <;> rfl
  rw [htrace]
  rcases send_cases hstable.1 hsender hact with
    ⟨m, rest, hphase, -, rfl⟩ | ⟨m, contents, phase, written, hpicks, hs'⟩
  · have hsilent : ¬ Publishes s (s.setHandler g
        { s g with phase := .top, held := (s g).held ++ m :: rest }) g := by
      simp [Publishes, State.setHandler]
    refine ⟨?_, fun hpub => absurd hpub hsilent⟩
    unfold noteSent
    rw [if_neg hsilent]
    exact hs.hold hinv hphase
  · exact hs.transmit hinv hinv' hpicks hstable hs'

end

/-! ## Acknowledgements -/

section

variable (hs : Tagged s notes) (hinv : Inv s)
  (hphase : (s.handlers g).phase = .selecting delivering windowOpen)
include hs hinv hphase

/-- An acknowledgement, given what it does to the records and the notes. -/
theorem Tagged.settled (written : Bool) {result : Option (Message α) × Outbound α × Records α}
    {notes' : List Exchange} (hkept : Kept s.Waits (s.settled g written result).stored notes') :
    Tagged (s.settled g written result) notes' := by
  have hstill : Tagged { s.settled g written result with records := s.records } notes := by
    refine hs.still (g := g) (hinv.born (by simp [hphase])) rfl rfl rfl rfl rfl rfl rfl ?_
    cases written <;> simp [hphase, Phase.pending]
  refine ⟨hkept.congr (fun l => ?_) fun _ => rfl, hstill.lanes, hstill.staged⟩
  have hborn := hinv.born (g := g) (by simp [hphase])
  have hsame : ({ s g with
      outbound := result.2.1
      phase := if written then .top else .leaving .closed } : Handler α).waiting =
      (s g).waiting := by
    unfold waiting
    rw [hphase]
    cases written <;> rfl
  rw [waits_congr (s.settled g written result) hborn rfl rfl, waits_iff hborn, hsame]
  rfl

theorem Tagged.complete (id : UInt16) :
    Tagged (s.settled g true ((s g).outbound.complete s.records id))
      (strike (s g).outbound id notes) := by
  unfold strike
  cases hlook : (s g).outbound.inflight.lookup id with
  | none =>
    rw [complete_unknown hlook]
    exact hs.settled hinv hphase true hs.kept
  | some m =>
    have hrec := ((hinv.sound g).tracked (hinv.loaded_of_lookup hlook)).recorded id m hlook
    refine hs.settled hinv hphase true ?_
    refine hs.kept.finish (stored_of_lookup hrec)
      (fun l hl => hinv.waits_of_stored hl (mem_deliveries_of_lookup hrec)) fun id' => ?_
    have hrecs : (s.settled g true
        ((s g).outbound.complete s.records id)).records = s.records.erase id := by
      unfold Outbound.complete
      rw [hlook]
      rfl
    unfold State.stored
    rw [hrecs]
    by_cases hid : id' = id
    · rw [if_pos hid, hid, lookup_erase]
      rfl
    · rw [if_neg hid, lookup_erase_ne hid]

theorem Tagged.pubrec (written : Bool) (id : UInt16) :
    Tagged (s.settled g written ((s g).outbound.handlePubrec s.records id false))
      (markReleased (s g).outbound id notes) := by
  unfold markReleased
  cases hlook : (s g).outbound.inflight.lookup id with
  | none =>
    rw [handlePubrec_unknown hlook]
    exact hs.settled hinv hphase written hs.kept
  | some m =>
    have hrec := ((hinv.sound g).tracked (hinv.loaded_of_lookup hlook)).recorded id m hlook
    refine hs.settled hinv hphase written ?_
    refine hs.kept.release (stored_of_lookup hrec)
      (fun l hl => hinv.waits_of_stored hl (mem_deliveries_of_lookup hrec)) (fun id' => ?_) rfl
    have hrecs : (s.settled g written ((s g).outbound.handlePubrec s.records id false)).records =
        s.records.insert id ⟨m, .awaitingPubcomp⟩ := by
      unfold handlePubrec
      rw [hlook]
      rfl
    exact stored_insert hrecs id'

end

/-! ## Handing back and binding -/

theorem Tagged.requeue [Publishable α] (h : Tagged s notes) (hinv : Inv s)
    (hregl : Regular s (.requeue g)) (hreq : s.requeue g = some s') : Tagged s' notes := by
  obtain ⟨_, queue, hphase, -, hmsgs, -, -, hs'⟩ := hinv.requeue_cases hregl hreq
  have hborn := hinv.born (g := g) (by simp [hphase])
  obtain ⟨h', hhs, hwait, hcont⟩ : ∃ h' : Handler α,
      s'.handlers = update s.handlers g h' ∧ h'.waiting = [] ∧ h'.lane.contents = [] := by
    subst hs'
    exact ⟨_, rfl, rfl, rfl⟩
  have hrecs : s'.records = s.records.without ((s g).outbound.unacked.map Prod.fst) := by
    rw [hs']
    rfl
  have hqueue : s'.queue.messages = (s g).unsent ++ s.queue.messages := by
    rw [hs']
    exact hmsgs
  have hsound := hinv.sound g
  -- what is in flight and not answered, with the record it has
  have hunack : ∀ id m, (id, m) ∈ (s g).outbound.unacked →
      m.packetId = some id ∧ m.dup = true ∧ s.stored id = some (m.delivery, false) := by
    intro id m hmem
    cases hload : (s g).loaded with
    | false =>
      rw [hsound.unacked_nil hload] at hmem
      cases hmem
    | true =>
      have htrk := hsound.tracked hload
      obtain ⟨hawait, m₀, hlook, rfl⟩ := htrk.mem_unacked.mp hmem
      refine ⟨rfl, rfl, ?_⟩
      rw [stored_of_lookup (htrk.recorded id m₀ hlook)]
      simp [phaseOf, hawait, Message.again]
  have hback : ∀ l, l ∈ ((s g).outbound.unacked.map Prod.snd).map label ↔
      ∃ id, id ∈ (s g).outbound.unacked.map Prod.fst ∧
        s.stored id = some (l.delivery, false) ∧ l.packetId = some id ∧ l.dup = true := by
    intro l
    rw [List.map_map, List.mem_map]
    constructor
    · rintro ⟨⟨id, m⟩, hmem, rfl⟩
      obtain ⟨hid, hdup, hsto⟩ := hunack id m hmem
      exact ⟨id, mem_map_of_mem hmem, hsto, hid, hdup⟩
    · rintro ⟨_, hin, hsto, hid, hdup⟩
      obtain ⟨⟨id, m⟩, hmem, rfl⟩ := mem_map.mp hin
      obtain ⟨hid', hdup', hsto'⟩ := hunack id m hmem
      rw [hsto] at hsto'
      have hd := (Prod.mk.inj (Option.some.inj hsto')).1
      refine ⟨(id, m), hmem, ?_⟩
      show (⟨m.delivery, m.packetId, m.dup⟩ : Label) = l
      rw [hid', hdup', ← hd, ← hid, ← hdup]
  -- the messages of the lane had no identifier to lose
  have hlane : ((s g).lane.contents.map fun m => { m with packetId := none }).map label =
      (s g).lane.contents.map label := by
    rw [List.map_map]
    refine List.map_congr_left fun m hm => ?_
    show (⟨m.delivery, none, m.dup⟩ : Label) = ⟨m.delivery, m.packetId, m.dup⟩
    rw [h.lanes g m hm]
  refine ⟨?_, ?_, fun p m hm => ?_⟩
  · refine h.kept.handBack (fun id => id ∈ (s g).outbound.unacked.map Prod.fst)
      (fun id hid => ?_) (fun l => ?_) (fun id hid => ?_) fun id hid => ?_
    · obtain ⟨⟨id', m⟩, hmem, rfl⟩ := mem_map.mp hid
      exact ⟨m.delivery, (hunack id' m hmem).2.2⟩
    · have hown : (s g).waiting =
          (s g).lane.contents ++ (s g).held := by
        unfold waiting
        rw [hphase]
        exact append_nil _
      rw [waits_congr s' hborn hhs (by rw [hs']; rfl), ← hback, waits_iff hborn, hqueue,
        hwait, hown]
      unfold unsent
      simp only [map_append, mem_append, hlane, map_nil, not_mem_nil, or_false]
      tauto
    · unfold State.stored
      rw [hrecs, Records.lookup_without, if_pos hid]
      rfl
    · unfold State.stored
      rw [hrecs, Records.lookup_without, if_neg hid]
  · refine forall_update hhs (fun m hm => ?_) fun k _ => h.lanes k
    rw [hcont] at hm
    cases hm
  · rw [hs'] at hm
    exact h.staged p m hm

theorem Tagged.bind [Publishable α] (h : Tagged s notes) (hinv : Inv s) {unwritten : Option Nat}
    (hregl : Regular s (.bind g waived sorted unwritten))
    (hbind : s.bind g waived sorted unwritten = some s') : Tagged s' notes := by
  obtain ⟨hatt, hpend, -, -, _, _, _, hents, -, -, -, -, -, hnew, rfl⟩ :=
    hinv.bind_cases hregl hbind
  have hborn : g < s.nextGeneration := hinv.born fun hidle => by
    rw [hidle] at hatt
    cases hatt
  refine h.still hborn rfl rfl rfl rfl hents rfl rfl ?_
  rw [hpend]
  rcases hnew with ⟨rfl, -⟩ | rfl <;> rfl

/-- While nobody has the session loaded, what waits is in the queue or in a lane. -/
theorem Inv.queued_of_labelled (hinv : Inv s) (h : Tagged s notes)
    (hnone : ∀ k, (s k).loaded = false) (hl : s.Waits l)
    (hid : l.packetId = some id) : l ∈ s.queue.messages.map label := by
  unfold State.Waits State.atRest at hl
  rw [map_append, mem_append] at hl
  refine hl.resolve_right fun hheld => ?_
  obtain ⟨m, hm, rfl⟩ := mem_map.mp hheld
  obtain ⟨k, -, hmem⟩ := mem_flatMap.mp hm
  have hsound := hinv.sound k
  have hpend : (s k).phase.pending = [] := by
    by_contra hne
    have hdeliv : (s k).phase.delivering = true ∧
        (s k).phase.serving = true := by
      cases hphase : (s k).phase <;> rw [hphase] at hne <;>
        first | exact absurd rfl hne | exact ⟨rfl, rfl⟩
    have hload := hnone k
    unfold loaded at hload
    rw [hsound.bound hdeliv.1, hdeliv.2] at hload
    cases hload
  unfold waiting at hmem
  rw [(hsound.fresh (hnone k)).2, hpend, append_nil, append_nil] at hmem
  have hunlabelled : m.packetId = none := h.lanes k m hmem
  have hlabelled : m.packetId = some id := hid
  rw [hunlabelled] at hlabelled
  cases hlabelled

/-! ## Routers -/

section

variable (hs : Tagged s notes)
include hs

theorem Tagged.setStage {stage : Stage α}
    (hstg : ∀ m ∈ stage.message, m.packetId = none) : Tagged (s.setStage p stage) notes := by
  refine ⟨hs.kept.congr (fun _ => Iff.rfl) fun _ => rfl, hs.lanes, ?_⟩
  have hpubs : (s.setStage p stage).publishers =
      update s.publishers p { s.publishers p with stage } := rfl
  exact forall_update hpubs hstg fun p' _ => hs.staged p'

/-- A router is done with its message. -/
theorem staged_routed (p : Nat) :
    ∀ p', ∀ m ∈ ((s.routed p).publishers p').stage.message, m.packetId = none := by
  have hpubs : (s.routed p).publishers =
      update s.publishers p { next := (s.publishers p).next + 1 } := rfl
  exact forall_update hpubs nofun fun p' _ => hs.staged p'

theorem Tagged.enterLane (hinv : Inv s) (hm : m.delivery = ⟨p, (s.publishers p).next⟩)
    (hid : m.packetId = none) (hg : g < s.nextGeneration) (permits : Finset Nat) :
    Tagged (s.enterLane p g m permits) notes := by
  refine ⟨hs.kept.accept (l := label m) hid (hs.unknown hinv hm) fun l => ?_, ?_,
    staged_routed hs p⟩
  · rw [waits_congr (s.enterLane p g m permits) hg rfl rfl, waits_iff hg]
    show (l ∈ s.queue.messages.map label ∨ _) ∨ _ ↔ _
    unfold waiting
    simp only [List.map_append, List.mem_append, List.map_cons, List.map_nil, List.mem_singleton]
    tauto
  · show ∀ k, ∀ m' ∈ (update s.handlers g _ k).lane.contents, m'.packetId = none
    refine forall_update rfl (fun m' hin => ?_) fun k _ => hs.lanes k
    rcases List.mem_append.mp hin with hold | hnew
    · exact hs.lanes g m' hold
    · rw [List.mem_singleton.mp hnew]
      exact hid

theorem Tagged.push [Publishable α] (hinv : Inv s) (hregl : Regular s (.push p))
    (hpush : s.push p = some s') : Tagged s' notes := by
  obtain ⟨m, hstg, hm, hmsgs, rfl⟩ := hinv.push_cases hregl hpush
  refine ⟨hs.kept.accept (l := label m) (hs.staged p m hstg) (hs.unknown hinv hm) fun l => ?_,
    hs.lanes, staged_routed hs p⟩
  unfold State.Waits State.atRest
  show l ∈ List.map label ((s.queue.append m).1.messages ++ _) ↔ _
  rw [hmsgs]
  simp only [List.map_append, List.mem_append, List.map_cons, List.map_nil, List.mem_singleton]
  tauto

theorem Tagged.route (hinv : Inv s) {a : Action α} (hroutes : Routes s a p s') :
    Tagged s' notes := by
  cases hroutes with
  | stage stage _ hmsg =>
    exact hs.setStage fun m hm => (hmsg m hm).elim id (hs.staged p m)
  | reserve k epoch m hstage _ =>
    have hstg := hinv.staged p
    rw [hstage] at hstg
    have hres : Tagged (s.setHandler k
        { s k with
          lane := { (s k).lane with
            permits := insert p (s k).lane.permits } }) notes :=
      hs.still hstg.2.2 rfl rfl rfl rfl rfl rfl rfl rfl
    exact hres.setStage fun m' hm' => hs.staged p m' (by rw [hstage]; exact hm')
  | enter k m permits hentering hnumber hborn _ _ =>
    refine hs.enterLane hinv hnumber (hs.staged p m ?_) hborn permits
    rcases hentering with ⟨-, hstage⟩ | ⟨_, epoch, -, hstage, -⟩
    · rw [hstage]
      rfl
    · rw [hstage]
      rfl

end

/-! ## Runs -/

variable {exactlyOnce : α → Bool}

/-- Every step that leaves the identifiers alone keeps the invariant. -/
theorem Tagged.step [Publishable α] (h : Tagged s notes) (hinv : Inv s)
    (hstable : Stable exactlyOnce s a) (hact : act s a = some s') :
    Tagged s' (trace exactlyOnce s a s' notes) := by
  cases a with
  | expect capacity window drainBatch maxPacketSize =>
    cases hact
    exact h.expect capacity window drainBatch maxPacketSize
  | register k => exact h.register hinv hact
  | connected k | abandon k | turn k | endBatch k | drain k | finishDrain k | close k
  | takenOver k => exact h.stays hinv (hinv.stays rfl hact)
  | bind k _ _ _ => exact h.bind hinv hstable.1 hact
  | receive k written | next k written | sendNext k written =>
    exact (h.sends hinv (hinv.step hstable.1 hact) hstable hact rfl).1
  | take k now => exact h.take hinv hstable.1 hact
  | mark k now => exact h.mark hinv hstable.1 hact
  | proceed k _ => exact h.proceed hinv hstable.1 hact
  | puback k id =>
    dsimp only [act] at hact
    obtain ⟨delivering, windowOpen, hphase, rfl⟩ := inLoop_cases hact
    rw [handlePuback_eq_complete hstable.1]
    -- the PUBACK answers a QoS 1 message, or nothing
    have hanswers : ((s k).outbound.inflight.lookup id).any
        (fun m => exactlyOnce m.content) = false := by
      cases hlook : (s k).outbound.inflight.lookup id with
      | none => rfl
      | some m => exact hstable.2 m hlook
    have hnotes : ∀ t, trace exactlyOnce s (.puback k id) t notes =
        strike (s k).outbound id notes := by
      intro t
      show (if _ then notes else _) = _
      rw [hanswers]
      rfl
    rw [hnotes]
    exact h.complete hinv hphase id
  | pubrec k id error written =>
    dsimp only [act] at hact
    obtain ⟨delivering, windowOpen, hphase, rfl⟩ := inLoop_cases hact
    cases error with
    | true => exact h.complete hinv hphase id
    | false => exact h.pubrec hinv hphase written id
  | pubcomp k id =>
    dsimp only [act] at hact
    obtain ⟨delivering, windowOpen, hphase, rfl⟩ := inLoop_cases hact
    exact h.complete hinv hphase id
  | inbound k _ =>
    dsimp only [act] at hact
    obtain ⟨delivering, windowOpen, hphase, rfl⟩ := inLoop_cases hact
    exact h.still (hinv.born (by simp [hphase])) rfl rfl rfl rfl rfl rfl rfl (by rw [hphase]; rfl)
  | closeLane k =>
    dsimp only [act] at hact
    split at hact
    · rename_i hphase
      cases hact
      exact h.still (hinv.born (by simp [hphase])) rfl rfl rfl rfl rfl rfl rfl (by rw [hphase]; rfl)
    · cases hact
  | requeue k => exact h.requeue hinv hstable.1 hact
  | endHandoff k => exact h.endHandoff hinv hact
  | release k => exact h.release hinv hact
  | finish k => exact h.finish hinv hstable.1 hact
  | plan p content limited | readFlag p | trySend p waits | reserve p | timeout p
  | sendPermit p => exact h.route hinv (hinv.routes rfl hact)
  | push p => exact h.push hinv hstable.1 hact

theorem Traced.run [Publishable α] {condition : State α → Action α → Prop} {s₀ : State α}
    (hrun : Traced exactlyOnce condition s₀ s notes) : Run condition s₀ s := by
  induction hrun with
  | start => exact .start
  | step _ met enabled ih => exact ih.step met enabled

theorem Traced.tagged [Publishable α] {s₀ : State α} (hinit : Initial s₀)
    (hrun : Traced exactlyOnce (Stable exactlyOnce) s₀ s notes) : Inv s ∧ Tagged s notes := by
  refine ⟨Run.inv (fun _ _ hstable => hstable.1) hinit hrun.run, ?_⟩
  induction hrun with
  | start => exact hinit.tagged
  | step run met enabled ih =>
    exact ih.step (Run.inv (fun _ _ hstable => hstable.1) hinit run.run) met enabled

/-- A connection that has bound takes the exchange up: before the PUBREC the message is in the
queue, to go out as a duplicate under the same identifier; after it, the identifier waits
for PUBCOMP again, and PUBREL has been written. -/
def Resumes (s : State α) (g : Nat) (e : Exchange) : Prop :=
  (e.released = false → ∃ m ∈ s.queue.messages,
    m.delivery = e.delivery ∧ m.packetId = some e.packetId ∧ m.dup = true) ∧
  (e.released = true → e.packetId ∈ (s.handlers g).outbound.awaitingPubcomp ∧
    ∃ m ∈ (s.handlers g).outbound.inflight.lookup e.packetId, m.delivery = e.delivery)

/-- With every PUBREL written, the connection enters its loop. -/
theorem bind_top [Publishable α]
    (hbind : s.bind g waived sorted none = some s') : (s' g).phase = .top := by
  obtain ⟨-, hbind⟩ := Option.ite_none_left_eq_some.mp hbind
  split at hbind <;> cases hbind <;> simp [State.setHandler]

theorem Tagged.resumes [Publishable α] (h : Tagged s notes) (hinv : Inv s)
    (hregl : Regular s (.bind g waived sorted none))
    (hbind : s.bind g waived sorted none = some s') {e : Exchange} (he : e ∈ notes) :
    Resumes s' g e := by
  have htop := bind_top hbind
  obtain ⟨hatt, -, hunb, hoffs, queue, outbound, phase, hents, -, -, htrk, -,
    -, hnew, rfl⟩ := hinv.bind_cases hregl hbind
  have hnone := hinv.none_loaded hoffs hatt hunb
  have hself : ((State.setHandler { s with queue } g
      { s g with
        bound := true
        waived := false
        baseline := s.queue.handoffs
        outbound
        phase }).handlers g).outbound = outbound := by simp [State.setHandler]
  have hphase : phase = .top := by simpa [State.setHandler] using htop
  have hcov : outbound.Covers s.records := by
    rcases hnew with ⟨-, hcov⟩ | hleaving
    · exact hcov
    · rw [hphase] at hleaving
      cases hleaving
  unfold Resumes
  rw [hself]
  rcases h.kept.located e he with ⟨hreld, hw⟩ | hsto
  · refine ⟨fun _ => ?_, (fun hr => by rw [hreld] at hr; cases hr)⟩
    obtain ⟨m, hm, heq⟩ := mem_map.mp (hinv.queued_of_labelled h hnone hw rfl)
    refine ⟨m, ?_, congrArg Label.delivery heq, congrArg Label.packetId heq, congrArg Label.dup heq⟩
    show m ∈ queue.messages
    unfold messages
    rw [hents]
    exact hm
  · -- while nobody had the session loaded, the records all waited for PUBCOMP
    obtain ⟨record, hlook, heq⟩ := Option.map_eq_some_iff.mp hsto
    obtain ⟨hd, hreld⟩ := Prod.mk.inj heq
    have hparked := hinv.parked hnone e.packetId record hlook
    rw [decide_eq_true hparked] at hreld
    refine ⟨(fun hr => by rw [← hreld] at hr; cases hr), fun _ => ?_⟩
    obtain ⟨m, hm⟩ := Option.isSome_iff_exists.mp (hcov e.packetId (by rw [hlook]; rfl))
    have hrec := htrk.recorded e.packetId m hm
    rw [hlook] at hrec
    cases hrec
    refine ⟨?_, m, hm, hd⟩
    by_contra hawait
    simp [phaseOf, hawait] at hparked

/-- In every run of the connections of one session whose steps leave the identifiers alone:
an exchange that has begun and is not finished is waiting to go out again as a duplicate
under its identifier, or stored under it; a PUBLISH of its message is a duplicate under
the same identifier; nothing else is sent under that identifier; and a connection that
binds takes all of the exchanges up. -/
theorem packetIds_stable [Publishable α] {s₀ : State α} (hinitial : Initial s₀)
    (hrun : Traced exactlyOnce (Stable exactlyOnce) s₀ s notes) :
    (∀ e ∈ notes,
      (e.released = false ∧ s.Waits ⟨e.delivery, some e.packetId, true⟩) ∨
        s.stored e.packetId = some (e.delivery, e.released)) ∧
    ∀ (a : Action α) (s' : State α), Stable exactlyOnce s a → act s a = some s' →
      (∀ g, a.sender = some g → Publishes s s' g → Faithful (s'.handlers g).outbound notes) ∧
      ∀ g waived sorted, a = .bind g waived sorted none → ∀ e ∈ notes, Resumes s' g e := by
  obtain ⟨hinv, htagged⟩ := hrun.tagged hinitial
  refine ⟨htagged.kept.located, fun a s' hstable hact => ⟨fun g hsender hpublishes => ?_, ?_⟩⟩
  · exact (htagged.sends hinv (hinv.step hstable.1 hact) hstable hact hsender).2 hpublishes
  · rintro g waived sorted rfl e he
    exact htagged.resumes hinv hstable.1 hact he

end

/-! ## A resumed exchange -/

/-- Runs a list of steps, and notes the exchanges. -/
def tracing [Publishable α] (exactlyOnce : α → Bool) (start : State α × List Exchange)
    (actions : List (Action α)) : Option (State α × List Exchange) :=
  actions.foldlM
    (fun (s, notes) a => (act s a).map fun s' => (s', trace exactlyOnce s a s' notes)) start

theorem Traced.tracing [Publishable α] {exactlyOnce : α → Bool}
    {condition : State α → Action α → Prop} {check : State α → Action α → Bool}
    (hcheck : ∀ s a, check s a → condition s a) {s₀ s s' : State α}
    {notes notes' : List Exchange} {actions : List (Action α)}
    (hrun : Traced exactlyOnce condition s₀ s notes) (hchk : checked check s actions)
    (htracing : Delivery.tracing exactlyOnce (s, notes) actions = some (s', notes')) :
    Traced exactlyOnce condition s₀ s' notes' := by
  induction actions generalizing s notes with
  | nil =>
    cases htracing
    exact hrun
  | cons a actions ih =>
    obtain ⟨⟨t, _⟩, hstep, hrest⟩ := Option.bind_eq_some_iff.mp
      (show ((act s a).map fun t => (t, trace exactlyOnce s a t notes)).bind
        (fun start => Delivery.tracing exactlyOnce start actions) = some (s', notes') from htracing)
    obtain ⟨_, henabled, heq⟩ := Option.map_eq_some_iff.mp hstep
    cases heq
    rw [checked, henabled, Bool.and_eq_true] at hchk
    exact ih (hrun.step (hcheck s a hchk.1) henabled) hchk.2 hrest

/-- A check of `Undisturbed` for connections without a limit on the packet size. -/
def undisturbed (s : State Payload) (g : Nat) (next : Option (Message Payload)) : Bool :=
  next.all fun m =>
    match m.packetId with
    | some id => decide (id ∉ (s.handlers g).outbound.inbound) &&
        (s.handlers g).outbound.maxPacketSize.isNone
    | none => s.atRest.all fun waiting => waiting.packetId.isNone

theorem undisturbed_of_check {s : State Payload} {g : Nat} {next : Option (Message Payload)}
    (h : undisturbed s g next) : Undisturbed s g next := by
  rintro m ⟨⟩
  rw [undisturbed, Option.all_some] at h
  cases hid : m.packetId with
  | some id =>
    simp only [hid, Bool.and_eq_true, decide_eq_true_iff, Option.isNone_iff_eq_none] at h
    refine ⟨?_, nofun⟩
    rintro _ ⟨⟩
    exact ⟨h.1, fun _ _ _ hmax => by rw [h.2] at hmax; cases hmax⟩
  | none =>
    simp only [hid, List.all_eq_true, Option.isNone_iff_eq_none] at h
    exact ⟨nofun, fun _ => h⟩

/-- A check for the runs below. -/
def stably (s : State Payload) (a : Action Payload) : Bool :=
  plainly s a &&
    match a with
    | .receive g _ | .next g _ => undisturbed s g (s.handlers g).lane.contents.head?
    | .sendNext g _ => undisturbed s g (s.handlers g).phase.pending.head?
    | _ => true

theorem stable_of_stably (s : State Payload) (a : Action Payload) (h : stably s a) :
    Stable (fun _ => true) s a := by
  obtain ⟨hplainly, hsends⟩ := Bool.and_eq_true_iff.mp h
  refine ⟨regular_of_plainly s a hplainly, ?_⟩
  cases a with
  | receive g written | next g written => exact undisturbed_of_check hsends
  | sendNext g written => exact fun _ => undisturbed_of_check hsends
  | puback g id => cases hplainly
  | _ => trivial

/-- A message is sent to the client under the identifier 1, and the connection ends before it
is answered.  The client has connected again, and the connection has bound. -/
def resumedRun : List (Action Payload) :=
  arriving 1 none ++ [.bind 1 false [] none, .turn 1] ++ toLane 0 8 ++
    [.receive 1 true, .endBatch 1, .turn 1, .close 1, .closeLane 1, .requeue 1, .release 1,
      .finish 1] ++
    arriving 2 none ++ [.bind 2 false [] none, .turn 2]

/-- The message goes out again under the identifier 1, as a duplicate. -/
theorem packetIds_stable_resumed :
    ∃ (s s' : State Payload) (notes : List Exchange),
      Traced (fun _ => true) (Stable fun _ => true) {} s notes ∧
        notes = [⟨⟨0, 0⟩, 1, false⟩] ∧ act s (.sendNext 2 true) = some s' ∧
        Publishes s s' 2 ∧ Faithful (s'.handlers 2).outbound notes ∧
        ((s'.handlers 2).outbound.inflight.lookup 1).map label = some ⟨⟨0, 0⟩, some 1, true⟩ := by
  have hrun := Traced.tracing stable_of_stably .start (by decide)
    (show tracing (fun _ => true) (({} : State Payload), [])
      (resumedRun ++ [.drain 2, .take 2 0, .mark 2 0]) = some (_, _) from rfl)
  obtain ⟨-, hsteps⟩ :=
    packetIds_stable ⟨rfl, rfl, rfl, rfl, fun _ => rfl, fun _ => rfl, rfl⟩ hrun
  obtain ⟨hfaithful, -⟩ := hsteps (.sendNext 2 true) _ (stable_of_stably _ _ (by decide)) rfl
  exact ⟨_, _, _, hrun, rfl, rfl, by decide, hfaithful 2 rfl (by decide), by decide⟩

/-- The client uses the identifier 1 for a QoS 2 publish of its own before the broker sends the
message again: it goes out as a duplicate under the identifier 2. -/
theorem inbound_changes_packetId :
    ∃ (s s' : State Payload) (notes : List Exchange),
      Traced (fun _ => true) Regular {} s notes ∧ notes = [⟨⟨0, 0⟩, 1, false⟩] ∧
        act s (.sendNext 2 true) = some s' ∧ Publishes s s' 2 ∧
        (s'.handlers 2).outbound.order.getLast? = some 2 ∧
        ((s'.handlers 2).outbound.inflight.lookup 2).map label = some ⟨⟨0, 0⟩, some 2, true⟩ ∧
        ¬ Faithful (s'.handlers 2).outbound notes := by
  have hrun := Traced.tracing regular_of_plainly .start (by decide)
    (show tracing (fun _ => true) (({} : State Payload), [])
      (resumedRun ++ [.inbound 2 {1}, .turn 2, .drain 2, .take 2 0, .mark 2 0]) =
        some (_, _) from rfl)
  refine ⟨_, _, _, hrun, rfl, rfl, by decide, by decide, by decide, ?_⟩
  rintro ⟨id, m, hid, hm, hown, -⟩
  obtain rfl := Option.some.inj hid
  obtain rfl := Option.some.inj hm
  exact absurd (hown _ mem_cons_self rfl).1 (by decide)

end MqttLib.Broker.Delivery
