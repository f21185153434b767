/-
MqttLib.Broker.Outbound

What a connection keeps of the QoS 1 and 2 messages it has sent
(`client_handler/publish.rs`, `client_handler/lifecycle.rs`): the packet identifier each
one has taken, the order of the sends, the identifiers whose PUBREC has arrived, and the
records of the same messages in the storage backend.

The conversions between a PUBLISH packet, a queued message and an inflight record keep the
message; only the packet identifier and the DUP flag change on the way.
-/

import MqttLib.Storage.ClientQueue
import MqttLib.Storage.Messages

namespace MqttLib.Broker

open Foundation Storage Function Finmap List Table

/-! ## Messages -/

/-- One delivery of a routed message: the publisher, and how many it has routed before. -/
structure Delivery where
  publisher : Nat
  number : Nat
  deriving DecidableEq

/-- What sending reads of a message: the size of the PUBLISH it encodes to, if it does. -/
class Publishable (α : Type*) extends Queueable α where
  encodedSize : α → Option Nat

/-- A message with QoS 1 or 2 on its way to the client. -/
structure Message (α : Type*) where
  delivery : Delivery
  content : α
  packetId : Option UInt16 := none
  dup : Bool := false
  deriving DecidableEq

variable {α : Type*}

instance [Queueable α] : Queueable (Message α) where
  entryBytes m := Queueable.entryBytes m.content
  expiresAt m := Queueable.expiresAt m.content
  recomputeExpiry m := { m with content := Queueable.recomputeExpiry m.content }

/-- The message goes out again under the same identifier, as a duplicate. -/
def Message.again (m : Message α) (id : UInt16) : Message α :=
  { m with packetId := some id, dup := true }

/-- A record of the storage backend: a message in flight, with its handshake phase. -/
structure InflightRecord (α : Type*) where
  message : Message α
  phase : InflightPhase
  deriving DecidableEq

/-- The outbound records of the client, by packet identifier. -/
abbrev Records (α : Type*) := Table UInt16 (InflightRecord α)

/-! ## Packet identifiers -/

/-- The identifier after this one; 0 is never used. -/
def advance (id : UInt16) : UInt16 := if id = 65535 then 1 else id + 1

/-- `next_free_packet_id`: the first identifier from `current` on that is not in use, and the
counter after it; with all tries used up, the identifier reached. -/
def nextFreePacketId (inUse : UInt16 → Bool) : Nat → UInt16 → UInt16 × UInt16
  | 0, current => (current, advance current)
  | tries + 1, current =>
    if inUse current then nextFreePacketId inUse tries (advance current)
    else (current, advance current)

/-- How far the search still has to go to reach an identifier. -/
def distance (current target : UInt16) : Nat :=
  if current.toNat ≤ target.toNat then target.toNat - current.toNat
  else target.toNat + 65535 - current.toNat

theorem toNat_advance (id : UInt16) :
    (advance id).toNat = if id.toNat = 65535 then 1 else id.toNat + 1 := by
  have hlt := id.toNat_lt
  unfold advance
  by_cases h : id = 65535
  · subst h
    rfl
  · have hne : id.toNat ≠ 65535 := fun heq => h (UInt16.toNat_inj.mp heq)
    rw [if_neg h, if_neg hne, UInt16.toNat_add]
    show (id.toNat + 1) % 2 ^ 16 = id.toNat + 1
    omega

theorem advance_ne_zero {id : UInt16} : advance id ≠ 0 := by
  intro h
  have hnat : (advance id).toNat = 0 := by rw [h]; rfl
  rw [toNat_advance] at hnat
  split at hnat <;> omega

variable {current target : UInt16}

theorem distance_advance (htarget : target ≠ 0) (hne : current ≠ target) :
    distance (advance current) target + 1 = distance current target := by
  have hc := current.toNat_lt
  have ht := target.toNat_lt
  have ht0 : target.toNat ≠ 0 := fun h => htarget (UInt16.toNat_inj.mp h)
  have hct : current.toNat ≠ target.toNat := fun h => hne (UInt16.toNat_inj.mp h)
  unfold distance
  rw [toNat_advance]
  split_ifs <;> omega

theorem distance_self : distance current current = 0 := by simp [distance]

theorem distance_le : distance current target ≤ 65535 := by
  have ht := target.toNat_lt
  unfold distance
  split_ifs <;> omega

theorem nextFreePacketId_snd (inUse : UInt16 → Bool) (tries : Nat) (current : UInt16) :
    (nextFreePacketId inUse tries current).2 =
      advance (nextFreePacketId inUse tries current).1 := by
  induction tries generalizing current with
  | zero => rfl
  | succ tries ih =>
    unfold nextFreePacketId
    split
    · exact ih _
    · rfl

theorem nextFreePacketId_fst_ne_zero (inUse : UInt16 → Bool) (tries : Nat)
    (hcur : current ≠ 0) : (nextFreePacketId inUse tries current).1 ≠ 0 := by
  induction tries generalizing current with
  | zero => exact hcur
  | succ tries ih =>
    unfold nextFreePacketId
    split
    · exact ih advance_ne_zero
    · exact hcur

section

variable {inUse : UInt16 → Bool} (htarget : target ≠ 0) (hfree : inUse target = false)

include hfree

theorem ne_of_inUse (hused : inUse current) : current ≠ target := by
  rintro rfl
  rw [hfree] at hused
  cases hused

include htarget

/-- The search finds a free identifier within the tries it takes to reach one. -/
theorem nextFreePacketId_free {tries : Nat} (htries : distance current target ≤ tries) :
    inUse (nextFreePacketId inUse tries current).1 = false := by
  induction tries generalizing current with
  | zero =>
    by_cases hne : current = target
    · exact hne ▸ hfree
    · have hstep := distance_advance htarget hne
      omega
  | succ tries ih =>
    unfold nextFreePacketId
    split
    · rename_i hused
      have hstep := distance_advance htarget (ne_of_inUse hfree hused)
      exact ih (by omega)
    · rename_i hused
      simpa using hused

/-- The search does not pass a free identifier. -/
theorem distance_nextFreePacketId (current : UInt16) {tries : Nat}
    (htries : distance current target ≤ tries) :
    distance current (nextFreePacketId inUse tries current).1 +
      distance (nextFreePacketId inUse tries current).1 target = distance current target := by
  have hfound := nextFreePacketId_free htarget hfree htries
  induction tries generalizing current with
  | zero => rw [nextFreePacketId, distance_self, Nat.zero_add]
  | succ tries ih =>
    unfold nextFreePacketId at hfound ⊢
    split at hfound
    · rename_i hused
      have hstep := distance_advance htarget (ne_of_inUse hfree hused)
      have hrest := ih _ (by omega) hfound
      have hfirst := distance_advance (nextFreePacketId_fst_ne_zero inUse tries advance_ne_zero)
        (ne_of_inUse hfound hused)
      rw [if_pos hused]
      omega
    · rename_i hused
      rw [if_neg hused, distance_self, Nat.zero_add]

end

/-- The identifiers of allocations one after the other. -/
def allocated (inUse : UInt16 → Bool) (start : UInt16) (n : Nat) : UInt16 :=
  (nextFreePacketId inUse 65535
    ((fun next => (nextFreePacketId inUse 65535 next).2)^[n] start)).1

theorem distance_allocated {inUse : UInt16 → Bool} (htarget : target ≠ 0)
    (hfree : inUse target = false) {start : UInt16} {i n : Nat}
    (hnot : ∀ m < n, allocated inUse start (i + m) ≠ target) :
    distance (allocated inUse start (i + n)) target + n ≤
      distance (allocated inUse start i) target := by
  induction n with
  | zero => exact Nat.le_refl _
  | succ n ih =>
    have hpre := ih fun m hm => hnot m (by omega)
    have hstep := distance_advance htarget (hnot n (by omega))
    have hnext := distance_nextFreePacketId htarget hfree
      (advance (allocated inUse start (i + n))) distance_le
    have hallocated : allocated inUse start (i + (n + 1)) =
        (nextFreePacketId inUse 65535 (advance (allocated inUse start (i + n)))).1 := by
      unfold allocated
      rw [← add_assoc, iterate_succ_apply', nextFreePacketId_snd]
    rw [hallocated]
    omega

/-- The search gives the first free identifier from the start on, and the counter after it; and
allocations one after the other give every free identifier before one again. -/
theorem free_packet_id_search {inUse : UInt16 → Bool} (htarget : target ≠ 0)
    (hfree : inUse target = false) (start : UInt16) :
    inUse (nextFreePacketId inUse 65535 start).1 = false ∧
      distance start (nextFreePacketId inUse 65535 start).1 ≤ distance start target ∧
      (start ≠ 0 → (nextFreePacketId inUse 65535 start).1 ≠ 0) ∧
      (nextFreePacketId inUse 65535 start).2 = advance (nextFreePacketId inUse 65535 start).1 ∧
      ∀ i j, i < j → allocated inUse start i = allocated inUse start j →
        ∃ m, i ≤ m ∧ m < j ∧ allocated inUse start m = target := by
  refine ⟨nextFreePacketId_free htarget hfree distance_le, ?_,
    nextFreePacketId_fst_ne_zero inUse 65535, nextFreePacketId_snd inUse 65535 start, ?_⟩
  · have hbetween := distance_nextFreePacketId htarget hfree start distance_le
    omega
  · intro i j hij hsame
    by_contra hnot
    have hfar := distance_allocated htarget hfree (i := i) (n := j - i) fun m hm hm' =>
      hnot ⟨i + m, by omega, by omega, hm'⟩
    rw [Nat.add_sub_cancel' hij.le, hsame] at hfar
    omega

/-- From the last identifier the search goes on at 1. -/
theorem free_packet_id_search_wraps :
    (nextFreePacketId (· == 65535) 65535 65535).1 ≠ 0 ∧
      (nextFreePacketId (· == 65535) 65535 65535).1 = 1 :=
  have hsearch (inUse : UInt16 → Bool) (hfree : inUse 1 = false) :=
    free_packet_id_search (by decide) hfree 65535
  ⟨(hsearch (· == 65535) (by decide)).2.2.1 (by decide), by decide⟩

theorem toNat_advance_iterate {id : UInt16} (hid : id ≠ 0) (n : Nat) :
    (advance^[n] id).toNat = (id.toNat - 1 + n) % 65535 + 1 := by
  have hlt := id.toNat_lt
  have hpos : id.toNat ≠ 0 := fun h => hid (UInt16.toNat_inj.mp h)
  induction n with
  | zero =>
    show id.toNat = _
    omega
  | succ n ih =>
    rw [iterate_succ_apply', toNat_advance, ih]
    split_ifs <;> omega

theorem nextFreePacketId_of_inUse {inUse : UInt16 → Bool} (hall : ∀ id, id ≠ 0 → inUse id)
    (tries : Nat) (hcur : current ≠ 0) :
    nextFreePacketId inUse tries current =
      (advance^[tries] current, advance (advance^[tries] current)) := by
  induction tries generalizing current with
  | zero => rfl
  | succ tries ih =>
    unfold nextFreePacketId
    rw [if_pos (hall current hcur), ih advance_ne_zero]
    rfl

/-- With every identifier in use, the search comes round to the one it started at. -/
theorem nextFreePacketId_exhausted {inUse : UInt16 → Bool} (hall : ∀ id, id ≠ 0 → inUse id)
    (hcur : current ≠ 0) :
    nextFreePacketId inUse 65535 current = (current, advance current) := by
  have hround : advance^[65535] current = current := by
    refine UInt16.toNat_inj.mp ?_
    have hlt := current.toNat_lt
    have hpos : current.toNat ≠ 0 := fun h => hcur (UInt16.toNat_inj.mp h)
    rw [toNat_advance_iterate hcur]
    omega
  rw [nextFreePacketId_of_inUse hall 65535 hcur, hround]

/-! ## The window -/

/-- The outbound state of a connection.  `inbound` are the identifiers of the client's own
QoS 2 publishes, which are not given out either. -/
structure Outbound (α : Type*) where
  inflight : Table UInt16 (Message α) := ∅
  order : List UInt16 := []
  awaitingPubcomp : Finset UInt16 := ∅
  inbound : Finset UInt16 := ∅
  nextPacketId : UInt16 := 1
  maxPacketSize : Option Nat := none

namespace Outbound

def inUse (o : Outbound α) (id : UInt16) : Bool :=
  (o.inflight.lookup id).isSome || id ∈ o.inbound

def reusable (o : Outbound α) (m : Message α) : Bool :=
  m.packetId.any fun id => id != 0 && !o.inUse id

/-- The identifier a message is sent under: its own if that can be used again. -/
def takePacketId (o : Outbound α) (m : Message α) : UInt16 × Outbound α :=
  if o.reusable m then (m.packetId.getD 0, o)
  else
    let (id, next) := nextFreePacketId o.inUse 65535 o.nextPacketId
    (id, { o with nextPacketId := next })

/-- What `send_publish` has done before the bytes are written. -/
inductive Sent where
  | failed
  | discarded
  | sent
  deriving DecidableEq

/-- `send_publish` up to the write: a PUBLISH the client would not accept is discarded, any
other is recorded as in flight. -/
def sendPublish [Publishable α] (o : Outbound α) (records : Records α) (m : Message α) :
    Sent × Outbound α × Records α :=
  let (id, o) := o.takePacketId m
  match Publishable.encodedSize m.content with
  | none => (.failed, o, records)
  | some size =>
    if o.maxPacketSize.any fun max => size > max then (.discarded, o, records)
    else
      let publish := { m with packetId := some id }
      (.sent,
        { o with
          order := o.order.filter (· ≠ id) ++ [id]
          inflight := o.inflight.insert id publish },
        records.insert id ⟨publish, .awaitingPubrec⟩)

/-- The end of an exchange: the message leaves the window and its record goes. -/
def settle (o : Outbound α) (records : Records α) (id : UInt16) : Outbound α × Records α :=
  ({ o with inflight := o.inflight.erase id, order := o.order.filter (· ≠ id) }, records.erase id)

/-- `handle_puback`: the message whose exchange it ends, if it is known. -/
def handlePuback (o : Outbound α) (records : Records α) (id : UInt16) :
    Option (Message α) × Outbound α × Records α :=
  match o.inflight.lookup id with
  | none => (none, o, records)
  | some m => (some m, o.settle records id)

/-- The end of an exchange that may have been waiting for PUBCOMP. -/
def complete (o : Outbound α) (records : Records α) (id : UInt16) :
    Option (Message α) × Outbound α × Records α :=
  match o.inflight.lookup id with
  | none => (none, o, records)
  | some m =>
    let (o, records) := o.settle records id
    (some m, { o with awaitingPubcomp := o.awaitingPubcomp.erase id }, records)

/-- `handle_pubrec`: an error ends the exchange, anything else is answered with PUBREL. -/
def handlePubrec (o : Outbound α) (records : Records α) (id : UInt16) (error : Bool) :
    Option (Message α) × Outbound α × Records α :=
  if error then o.complete records id
  else
    match o.inflight.lookup id with
    | none => (none, o, records)
    | some m =>
      (none, { o with awaitingPubcomp := insert id o.awaitingPubcomp },
        records.insert id ⟨m, .awaitingPubcomp⟩)

def handlePubcomp (o : Outbound α) (records : Records α) (id : UInt16) :
    Option (Message α) × Outbound α × Records α :=
  o.complete records id

/-- The messages `requeue_unsent` takes out of the window: in the order of the sends, those
that do not wait for PUBCOMP. -/
def takeUnacked (awaiting : Finset UInt16) : List UInt16 → Table UInt16 (Message α) →
    List (UInt16 × Message α)
  | [], _ => []
  | id :: ids, inflight =>
    if id ∈ awaiting then takeUnacked awaiting ids inflight
    else
      match inflight.lookup id with
      | none => takeUnacked awaiting ids inflight
      | some m => (id, m.again id) :: takeUnacked awaiting ids (inflight.erase id)

def unacked (o : Outbound α) : List (UInt16 × Message α) :=
  takeUnacked o.awaitingPubcomp o.order o.inflight

/-- The window after `requeue_unsent`. -/
def emptied (o : Outbound α) : Outbound α :=
  { o with inflight := ∅, order := [], awaitingPubcomp := ∅ }

/-- One record of `load_persisted_inflight`. -/
def load (loaded : List (Message α) × Outbound α) (record : UInt16 × InflightRecord α) :
    List (Message α) × Outbound α :=
  let (requeue, o) := loaded
  match record.2.phase with
  | .awaitingPubrec => (requeue ++ [record.2.message.again record.1], o)
  | .awaitingPubcomp =>
    (requeue,
      { o with
        order := o.order ++ [record.1]
        inflight := o.inflight.insert record.1 record.2.message
        awaitingPubcomp := insert record.1 o.awaitingPubcomp })
  | .awaitingPubrel => (requeue, o)

/-- The loop of `advance_packet_id_past_inflight`. -/
def firstFree (inUse : UInt16 → Bool) : Nat → UInt16 → Option UInt16
  | 0, _ => none
  | tries + 1, candidate =>
    if inUse candidate then firstFree inUse tries (advance candidate) else some candidate

def advancePacketIdPastInflight (o : Outbound α) : Outbound α :=
  { o with nextPacketId := (firstFree o.inUse 65535 o.nextPacketId).getD o.nextPacketId }

/-- `load_persisted_inflight`, with the records in the order in which they are sorted: the
messages to put back at the front of the queue, and the window. -/
def loadPersistedInflight (o : Outbound α) (sorted : List (UInt16 × InflightRecord α)) :
    List (Message α) × Outbound α :=
  let (requeue, o) := sorted.foldl load ([], o)
  (requeue, o.advancePacketIdPastInflight)

end Outbound

/-- The records without those of these identifiers. -/
def Records.without (records : Records α) (ids : List UInt16) : Records α :=
  ids.foldl (fun records id => records.erase id) records

/-- The messages the records keep. -/
def Records.deliveries (records : Records α) : Multiset Delivery :=
  (values records).map fun record => record.message.delivery

theorem Records.lookup_without (records : Records α) (ids : List UInt16) (id : UInt16) :
    (records.without ids).lookup id = if id ∈ ids then none else records.lookup id := by
  induction ids generalizing records with
  | nil => simp [Records.without]
  | cons first ids ih =>
    show (Records.without (erase first records) ids).lookup id = _
    rw [ih]
    by_cases hid : id = first
    · subst hid
      simp
    · simp [hid]

theorem Records.deliveries_insert {records : Records α} {id : UInt16}
    (hnone : records.lookup id = none) (record : InflightRecord α) :
    Records.deliveries (records.insert id record) =
      record.message.delivery ::ₘ records.deliveries := by
  unfold Records.deliveries
  rw [values_insert_of_lookup_none hnone, Multiset.map_cons]

theorem Records.deliveries_erase {records : Records α} {id : UInt16} {record : InflightRecord α}
    (hsome : records.lookup id = some record) :
    records.deliveries = record.message.delivery ::ₘ Records.deliveries (records.erase id) := by
  unfold Records.deliveries
  rw [values_erase_of_lookup hsome, Multiset.map_cons]

/-- Taking out the records of known messages. -/
theorem Records.deliveries_without {records : Records α} {entries : List (UInt16 × Message α)}
    (hnd : (entries.map Prod.fst).Nodup)
    (hsome : ∀ e ∈ entries, ∃ record, records.lookup e.1 = some record ∧
      record.message.delivery = e.2.delivery) :
    records.deliveries =
      (entries.map fun e => e.2.delivery : List Delivery) +
        (records.without (entries.map Prod.fst)).deliveries := by
  induction entries generalizing records with
  | nil => simp [Records.without]
  | cons e entries ih =>
    obtain ⟨hnot, hnd⟩ := nodup_cons.mp hnd
    obtain ⟨record, hlook, hdelivery⟩ := hsome e mem_cons_self
    have hrest : ∀ e' ∈ entries, ∃ record', (records.erase e.1).lookup e'.1 = some record' ∧
        record'.message.delivery = e'.2.delivery := by
      intro e' hmem
      have hne : e'.1 ≠ e.1 := fun heq => hnot (heq ▸ mem_map_of_mem hmem)
      rw [lookup_erase_ne hne]
      exact hsome e' (mem_cons_of_mem e hmem)
    rw [Records.deliveries_erase hlook, ih hnd hrest, hdelivery]
    show e.2.delivery ::ₘ (_ + _) = _
    rw [← Multiset.cons_add]
    rfl

/-! ## The window and its records -/

namespace Outbound

/-- The phase the record of a message in flight has. -/
def phaseOf (o : Outbound α) (id : UInt16) : InflightPhase :=
  if id ∈ o.awaitingPubcomp then .awaitingPubcomp else .awaitingPubrec

/-- The messages in flight under these identifiers. -/
def lineOf (inflight : Table UInt16 (Message α)) (ids : List UInt16) : List Delivery :=
  ids.filterMap fun id => (inflight.lookup id).map Message.delivery

/-- The messages in flight in the order of the sends. -/
def line (o : Outbound α) : List Delivery := lineOf o.inflight o.order

/-- Those of them that do not wait for PUBCOMP. -/
def unackedLine (o : Outbound α) : List Delivery :=
  lineOf o.inflight (o.order.filter (· ∉ o.awaitingPubcomp))

/-- The window is in step with its records: every message in flight has its place in the
order and its record, and every record that does not wait for PUBCOMP is of a message in
flight. -/
structure Tracked (o : Outbound α) (records : Records α) : Prop where
  nodup : o.order.Nodup
  mem_order : ∀ id, id ∈ o.order ↔ (o.inflight.lookup id).isSome
  awaiting : ∀ id ∈ o.awaitingPubcomp, (o.inflight.lookup id).isSome
  recorded : ∀ id m, o.inflight.lookup id = some m → records.lookup id = some ⟨m, o.phaseOf id⟩
  covered : ∀ id record, records.lookup id = some record →
    record.phase = .awaitingPubcomp ∨ (o.inflight.lookup id).isSome
  next : o.nextPacketId ≠ 0

/-- Every record is of a message in flight. -/
def Covers (o : Outbound α) (records : Records α) : Prop :=
  ∀ id, (records.lookup id).isSome → (o.inflight.lookup id).isSome

section

variable {o : Outbound α} {records : Records α} {m : Message α} {id : UInt16}

variable {inflight : Table UInt16 (Message α)} {ids : List UInt16} {record : InflightRecord α}
  {l : List (UInt16 × InflightRecord α)}

theorem lineOf_congr {inflight' : Table UInt16 (Message α)}
    (h : ∀ id ∈ ids, inflight'.lookup id = inflight.lookup id) :
    lineOf inflight' ids = lineOf inflight ids := by
  unfold lineOf
  apply filterMap_congr
  intro id hmem
  rw [h id hmem]

theorem mem_lineOf (hid : id ∈ ids)
    (hlook : inflight.lookup id = some m) : m.delivery ∈ lineOf inflight ids :=
  mem_filterMap.mpr ⟨id, hid, by rw [hlook]; rfl⟩

theorem lineOf_insert (hnotin : id ∉ ids) :
    lineOf (inflight.insert id m) (ids ++ [id]) = lineOf inflight ids ++ [m.delivery] := by
  have hold : lineOf (inflight.insert id m) ids = lineOf inflight ids := by
    apply lineOf_congr
    intro id' hmem
    have hne : id' ≠ id := fun heq => hnotin (heq ▸ hmem)
    exact lookup_insert_of_ne _ hne
  rw [← hold]
  unfold lineOf
  rw [filterMap_append]
  simp

theorem lineOf_erase (hnotin : id ∉ ids) :
    lineOf (inflight.erase id) ids = lineOf inflight ids := by
  apply lineOf_congr
  intro id' hmem
  have hne : id' ≠ id := fun heq => hnotin (heq ▸ hmem)
  exact lookup_erase_ne hne

/-- A free identifier is taken, and only the counter moves. -/
theorem takePacketId_spec (hnext : o.nextPacketId ≠ 0) (hfree : ∃ id, id ≠ 0 ∧ o.inUse id = false)
    (m : Message α) :
    ∃ id next, o.takePacketId m = (id, { o with nextPacketId := next }) ∧
      o.inUse id = false ∧ next ≠ 0 := by
  unfold takePacketId
  split
  · rename_i hreus
    cases hid : m.packetId with
    | none => simp [reusable, hid] at hreus
    | some id =>
      simp only [reusable, hid, Option.any_some, Bool.and_eq_true, Bool.not_eq_true'] at hreus
      exact ⟨id, o.nextPacketId, rfl, hreus.2, hnext⟩
  · obtain ⟨_, htarget, hunused⟩ := hfree
    have hpast := nextFreePacketId_snd o.inUse 65535 o.nextPacketId
    exact ⟨_, (nextFreePacketId o.inUse 65535 o.nextPacketId).2, rfl,
      nextFreePacketId_free htarget hunused distance_le, hpast ▸ advance_ne_zero⟩

theorem takePacketId_ne_zero (hnext : o.nextPacketId ≠ 0) (m : Message α) :
    (o.takePacketId m).1 ≠ 0 := by
  unfold takePacketId
  split
  · rename_i hreus
    cases hid : m.packetId with
    | none => simp [reusable, hid] at hreus
    | some id =>
      simp only [reusable, hid, Option.any_some, Bool.and_eq_true, bne_iff_ne] at hreus
      exact hreus.1
  · exact nextFreePacketId_fst_ne_zero _ _ hnext

theorem Tracked.setNext (h : Tracked o records) {next : UInt16} (hnext : next ≠ 0) :
    Tracked { o with nextPacketId := next } records :=
  ⟨h.nodup, h.mem_order, h.awaiting, h.recorded, h.covered, hnext⟩

theorem Tracked.setInbound (h : Tracked o records) (ids : Finset UInt16) :
    Tracked { o with inbound := ids } records :=
  ⟨h.nodup, h.mem_order, h.awaiting, h.recorded, h.covered, h.next⟩

theorem lookup_of_inUse (hunused : o.inUse id = false) : o.inflight.lookup id = none := by
  simp only [inUse, Bool.or_eq_false_iff] at hunused
  simpa using hunused.1

section

variable (h : Tracked o records)
include h

theorem Tracked.notMem_order (hnone : o.inflight.lookup id = none) : id ∉ o.order := by
  rw [h.mem_order, hnone]
  simp

theorem Tracked.notMem_awaiting (hnone : o.inflight.lookup id = none) : id ∉ o.awaitingPubcomp := by
  intro hmem
  have hsome := h.awaiting id hmem
  rw [hnone] at hsome
  cases hsome

/-- A message enters the window under a free identifier. -/
theorem Tracked.insert (hunused : o.inUse id = false) :
    Tracked { o with order := o.order ++ [id], inflight := o.inflight.insert id m }
      (records.insert id ⟨m, .awaitingPubrec⟩) := by
  have hnone := lookup_of_inUse hunused
  have hnotin := h.notMem_order hnone
  have hnotaw := h.notMem_awaiting hnone
  refine ⟨?_, fun id' => ?_, fun id' hmem => ?_, fun id' m' hlook => ?_,
    fun id' record hlook => ?_, h.next⟩
  · exact List.nodup_append.mpr ⟨h.nodup, List.nodup_singleton id, by
      intro a ha b hb heq
      rw [List.mem_singleton] at hb
      exact hnotin (hb ▸ heq ▸ ha)⟩
  · by_cases hid : id' = id
    · subst hid
      simp
    · simp [hid, h.mem_order]
  · have hne : id' ≠ id := fun heq => hnotaw (heq ▸ hmem)
    simpa [hne] using h.awaiting id' hmem
  · by_cases hid : id' = id
    · subst hid
      have hm : m = m' := by simpa using hlook
      simp [phaseOf, hnotaw, hm]
    · have hold : o.inflight.lookup id' = some m' := by simpa [hid] using hlook
      rw [lookup_insert_of_ne _ hid]
      exact h.recorded id' m' hold
  · by_cases hid : id' = id
    · subst hid
      exact .inr (by simp)
    · have hold : records.lookup id' = some record := by simpa [hid] using hlook
      simpa [hid] using h.covered id' record hold

/-- `send_publish` of a message that encodes, with a free identifier: it is discarded and
nothing is recorded, or it stands at the end of the line and has a record. -/
theorem sendPublish_spec [Publishable α] (hcov : Covers o records)
    (hfree : ∃ id, id ≠ 0 ∧ o.inUse id = false)
    (hencodes : (Publishable.encodedSize m.content).isSome) :
    (∃ o', o.sendPublish records m = (.discarded, o', records) ∧ Tracked o' records ∧
      Covers o' records ∧ o'.line = o.line ∧ o'.unackedLine = o.unackedLine) ∨
    ∃ o' records', o.sendPublish records m = (.sent, o', records') ∧ Tracked o' records' ∧
      Covers o' records' ∧ o'.line = o.line ++ [m.delivery] ∧
      o'.unackedLine = o.unackedLine ++ [m.delivery] ∧
      records'.deliveries = m.delivery ::ₘ records.deliveries := by
  obtain ⟨id, next, htake, hunused, hnext⟩ := takePacketId_spec h.next hfree m
  obtain ⟨_, hsize⟩ := Option.isSome_iff_exists.mp hencodes
  have hnone := lookup_of_inUse hunused
  have hnotin := h.notMem_order hnone
  have hnotaw := h.notMem_awaiting hnone
  have hrec : records.lookup id = none := by
    by_contra hsome
    have hcovered := hcov id (Option.isSome_iff_ne_none.mpr hsome)
    rw [hnone] at hcovered
    cases hcovered
  have hfilt : o.order.filter (· ≠ id) = o.order :=
    filter_eq_self.mpr fun id' hmem =>
      decide_eq_true fun heq : id' = id => hnotin (heq ▸ hmem)
  unfold sendPublish
  rw [htake, hsize]
  dsimp only
  split
  · exact .inl ⟨_, rfl, h.setNext hnext, hcov, rfl, rfl⟩
  · refine .inr ⟨_, _, rfl, ?_, ?_, ?_, ?_, ?_⟩
    · rw [hfilt]
      exact (h.setNext hnext).insert hunused
    · intro id' hsome
      by_cases hid : id' = id
      · subst hid
        simp
      · simpa [hid] using hcov id' (by simpa [hid] using hsome)
    · show lineOf _ (o.order.filter (· ≠ id) ++ [id]) = _
      rw [hfilt]
      exact lineOf_insert hnotin
    · show lineOf _ ((o.order.filter (· ≠ id) ++ [id]).filter (· ∉ o.awaitingPubcomp)) = _
      rw [hfilt, filter_append, filter_cons_of_pos (by simpa using hnotaw)]
      exact lineOf_insert fun hmem => hnotin (mem_filter.mp hmem).1
    · exact Records.deliveries_insert hrec _

/-- What an acknowledgement does to a window and its records; at most one message is finished. -/
structure Settles (o : Outbound α) (records : Records α)
    (result : Option (Message α) × Outbound α × Records α) : Prop where
  tracked : Tracked result.2.1 result.2.2
  covers : Covers o records → Covers result.2.1 result.2.2
  line : result.2.1.line.Sublist o.line
  unacked : result.2.1.unackedLine.Sublist o.unackedLine
  deliveries : records.deliveries =
    ((result.1.map Message.delivery).toList : Multiset Delivery) + result.2.2.deliveries

theorem Tracked.settles_none : Settles o records (none, o, records) :=
  ⟨h, id, .refl _, .refl _, by simp⟩

/-- The end of an exchange: the window loses the message, and its record goes with it. -/
theorem Tracked.settles_complete (id : UInt16) : Settles o records (o.complete records id) := by
  unfold complete
  split
  · exact h.settles_none
  rename_i m hlook
  show Settles o records (some m, { o with
      inflight := o.inflight.erase id
      order := o.order.filter (· ≠ id)
      awaitingPubcomp := o.awaitingPubcomp.erase id }, records.erase id)
  refine ⟨?_, ?_, ?_, ?_, ?_⟩
  · refine ⟨h.nodup.filter _, fun id' => ?_, fun id' hmem => ?_, fun id' m' hlook' => ?_,
      fun id' record hlook' => ?_, h.next⟩
    · by_cases hid : id' = id
      · subst hid
        simp
      · simp [hid, h.mem_order]
    · obtain ⟨hne, hmem⟩ := Finset.mem_erase.mp hmem
      simpa [hne] using h.awaiting id' hmem
    · have hne : id' ≠ id := by
        rintro rfl
        simp at hlook'
      have hold : o.inflight.lookup id' = some m' := by simpa [hne] using hlook'
      rw [lookup_erase_ne hne, h.recorded id' m' hold]
      simp [phaseOf, hne]
    · have hne : id' ≠ id := by
        rintro rfl
        simp at hlook'
      have hold : records.lookup id' = some record := by simpa [hne] using hlook'
      simpa [hne] using h.covered id' record hold
  · intro hcov id' hsome
    have hne : id' ≠ id := by
      rintro rfl
      simp at hsome
    simpa [hne] using hcov id' (by simpa [hne] using hsome)
  · show (lineOf (o.inflight.erase id) (o.order.filter (· ≠ id))).Sublist _
    rw [lineOf_erase (by simp)]
    exact filter_sublist.filterMap _
  · have hsame : (o.order.filter (· ≠ id)).filter (· ∉ o.awaitingPubcomp.erase id) =
        (o.order.filter (· ∉ o.awaitingPubcomp)).filter (· ≠ id) := by
      rw [filter_filter, filter_filter]
      apply filter_congr
      intro id' _
      by_cases hid : id' = id <;> simp [hid]
    show (lineOf (o.inflight.erase id) _).Sublist _
    rw [hsame, lineOf_erase (by simp)]
    exact filter_sublist.filterMap _
  · exact Records.deliveries_erase (h.recorded id m hlook)

end

theorem complete_unknown (hlook : o.inflight.lookup id = none) :
    o.complete records id = (none, o, records) := by
  rw [complete, hlook]

theorem handlePubrec_unknown (hlook : o.inflight.lookup id = none) :
    o.handlePubrec records id false = (none, o, records) := by
  rw [handlePubrec, if_neg (by decide), hlook]

/-- A PUBACK for a message that does not wait for PUBCOMP. -/
theorem handlePuback_eq_complete (hawait : id ∉ o.awaitingPubcomp) :
    o.handlePuback records id = o.complete records id := by
  unfold handlePuback complete
  split
  · rfl
  · simp [settle, Finset.erase_eq_of_notMem hawait]

/-- After a successful PUBREC only the phase has changed. -/
theorem Tracked.settles_handlePubrec (h : Tracked o records) (id : UInt16) :
    Settles o records (o.handlePubrec records id false) := by
  rw [handlePubrec, if_neg (by decide)]
  split
  · exact h.settles_none
  rename_i m hlook
  refine ⟨?_, ?_, .refl _, ?_, ?_⟩
  · refine ⟨h.nodup, h.mem_order, fun id' hmem => ?_, fun id' m' hlook' => ?_,
      fun id' record hlook' => ?_, h.next⟩
    · rcases Finset.mem_insert.mp hmem with rfl | hmem
      · show (o.inflight.lookup id').isSome = true
        rw [hlook]
        rfl
      · exact h.awaiting id' hmem
    · by_cases hid : id' = id
      · subst hid
        have hm : m = m' := Option.some.inj (hlook.symm.trans hlook')
        simp [phaseOf, hm]
      · rw [lookup_insert_of_ne _ hid, h.recorded id' m' hlook']
        simp [phaseOf, hid]
    · by_cases hid : id' = id
      · subst hid
        have hrec : ⟨m, .awaitingPubcomp⟩ = record := by simpa using hlook'
        exact .inl (hrec ▸ rfl)
      · have hold : records.lookup id' = some record := by simpa [hid] using hlook'
        exact h.covered id' record hold
  · intro hcov id' hsome
    by_cases hid : id' = id
    · subst hid
      show (o.inflight.lookup id').isSome = true
      rw [hlook]
      rfl
    · exact hcov id' (by simpa [hid] using hsome)
  · refine Sublist.filterMap _ ?_
    have hfewer : o.order.filter (· ∉ Insert.insert id o.awaitingPubcomp) =
        (o.order.filter (· ∉ o.awaitingPubcomp)).filter (· ≠ id) := by
      rw [filter_filter]
      apply filter_congr
      intro id' _
      simp [not_or]
    show (o.order.filter (· ∉ Insert.insert id o.awaitingPubcomp)).Sublist _
    rw [hfewer]
    exact filter_sublist
  · -- the new record is of the same message
    have hinsert := Records.deliveries_insert (lookup_erase id records) ⟨m, .awaitingPubcomp⟩
    rw [insert_erase] at hinsert
    show _ = 0 + Records.deliveries (records.insert id _)
    rw [hinsert, zero_add, Records.deliveries_erase (h.recorded id m hlook)]

/-! ## What goes back to the queue -/

theorem takeUnacked_eq {awaiting : Finset UInt16} (hnd : ids.Nodup)
    (inflight : Table UInt16 (Message α)) :
    takeUnacked awaiting ids inflight =
      (ids.filter (· ∉ awaiting)).filterMap fun id =>
        (inflight.lookup id).map fun m => (id, m.again id) := by
  induction ids generalizing inflight with
  | nil => rfl
  | cons id ids ih =>
    obtain ⟨hnotin, hnd⟩ := nodup_cons.mp hnd
    unfold takeUnacked
    by_cases hawait : id ∈ awaiting
    · rw [if_pos hawait, filter_cons_of_neg (by simpa using hawait)]
      exact ih hnd inflight
    · rw [if_neg hawait, filter_cons_of_pos (by simpa using hawait), filterMap_cons]
      cases hlook : inflight.lookup id with
      | none => exact ih hnd inflight
      | some m =>
        -- the other identifiers do not see that this one has been taken out
        have hrest := ih hnd (inflight.erase id)
        dsimp only [Option.map_some]
        rw [hrest]
        congr 1
        apply filterMap_congr
        intro id' hmem
        have hne : id' ≠ id := fun heq => hnotin (heq ▸ (mem_filter.mp hmem).1)
        rw [lookup_erase_ne hne]

section

variable (h : Tracked o records)
include h

theorem Tracked.unacked_eq :
    o.unacked = (o.order.filter (· ∉ o.awaitingPubcomp)).filterMap fun id =>
      (o.inflight.lookup id).map fun m => (id, m.again id) :=
  takeUnacked_eq h.nodup o.inflight

theorem Tracked.mem_unacked {m' : Message α} :
    (id, m') ∈ o.unacked ↔
      id ∉ o.awaitingPubcomp ∧ ∃ m, o.inflight.lookup id = some m ∧ m' = m.again id := by
  rw [h.unacked_eq, mem_filterMap]
  constructor
  · rintro ⟨_, hmem, hmap⟩
    obtain ⟨m, hlook, heq⟩ := Option.map_eq_some_iff.mp hmap
    cases heq
    exact ⟨by simpa using (mem_filter.mp hmem).2, m, hlook, rfl⟩
  · rintro ⟨hawait, m, hlook, rfl⟩
    have hmem : id ∈ o.order := by
      rw [h.mem_order, hlook]
      rfl
    refine ⟨id, mem_filter.mpr ⟨hmem, by simpa using hawait⟩, ?_⟩
    rw [hlook]
    rfl

theorem Tracked.unacked_deliveries : o.unacked.map (fun e => e.2.delivery) = o.unackedLine := by
  rw [h.unacked_eq, map_filterMap]
  apply filterMap_congr
  intro id _
  cases o.inflight.lookup id <;> rfl

theorem Tracked.unacked_nodup : (o.unacked.map Prod.fst).Nodup := by
  rw [h.unacked_eq, map_filterMap]
  refine (h.nodup.filter _).filterMap ?_
  intro id _ _ hkey hkey'
  obtain ⟨⟨_, _⟩, hmap, rfl⟩ := Option.map_eq_some_iff.mp hkey
  obtain ⟨_, -, heq⟩ := Option.map_eq_some_iff.mp hmap
  obtain ⟨⟨_, _⟩, hmap', hsame⟩ := Option.map_eq_some_iff.mp hkey'
  obtain ⟨_, -, heq'⟩ := Option.map_eq_some_iff.mp hmap'
  cases heq
  cases heq'
  exact hsame.symm

/-- The records after `requeue_unsent`: what has gone back to the queue has none any more. -/
theorem Tracked.deliveries_requeued :
    records.deliveries =
      (o.unackedLine : Multiset Delivery) +
        (records.without (o.unacked.map Prod.fst)).deliveries := by
  rw [← h.unacked_deliveries]
  apply Records.deliveries_without h.unacked_nodup
  rintro ⟨id, _⟩ hmem
  obtain ⟨-, m, hlook, rfl⟩ := h.mem_unacked.mp hmem
  exact ⟨_, h.recorded id m hlook, rfl⟩

/-- What is left waits for PUBCOMP. -/
theorem Tracked.phase_requeued
    (hlook : (records.without (o.unacked.map Prod.fst)).lookup id = some record) :
    record.phase = .awaitingPubcomp := by
  rw [Records.lookup_without] at hlook
  split at hlook
  · cases hlook
  rename_i hnotin
  rcases h.covered id record hlook with hph | hsome
  · exact hph
  · obtain ⟨m, hm⟩ := Option.isSome_iff_exists.mp hsome
    by_cases hawait : id ∈ o.awaitingPubcomp
    · have hrec := h.recorded id m hm
      rw [hlook] at hrec
      cases hrec
      simp [phaseOf, hawait]
    · exact absurd (mem_map_of_mem (h.mem_unacked.mpr ⟨hawait, m, hm, rfl⟩)) hnotin

/-- A message that waits for PUBCOMP keeps its record. -/
theorem Tracked.lookup_requeued (hlook : o.inflight.lookup id = some m)
    (hawait : id ∈ o.awaitingPubcomp) :
    (records.without (o.unacked.map Prod.fst)).lookup id = some ⟨m, .awaitingPubcomp⟩ := by
  have hnotin : id ∉ o.unacked.map Prod.fst := by
    intro hmem
    obtain ⟨⟨_, _⟩, he, rfl⟩ := mem_map.mp hmem
    exact (h.mem_unacked.mp he).1 hawait
  rw [Records.lookup_without, if_neg hnotin, h.recorded id m hlook]
  simp [phaseOf, hawait]

theorem Tracked.mem_unackedLine (hlook : o.inflight.lookup id = some m)
    (hawait : id ∉ o.awaitingPubcomp) : m.delivery ∈ o.unackedLine := by
  refine mem_lineOf (mem_filter.mpr ⟨?_, by simpa using hawait⟩) hlook
  rw [h.mem_order, hlook]
  rfl

end

/-! ## What a resumed session brings along -/

/-- The window of a connection that has not bound. -/
structure Fresh (o : Outbound α) : Prop where
  inflight : o.inflight = ∅
  order : o.order = []
  awaiting : o.awaitingPubcomp = ∅
  next : o.nextPacketId ≠ 0

/-- Records that wait for PUBCOMP all go into the window. -/
theorem foldl_load (hph : ∀ e ∈ l, e.2.phase = .awaitingPubcomp) (requeue : List (Message α)) :
    l.foldl load (requeue, o) =
      (requeue,
        { o with
          order := o.order ++ l.map Prod.fst
          inflight := l.foldl (fun inflight e => inflight.insert e.1 e.2.message) o.inflight
          awaitingPubcomp := o.awaitingPubcomp ∪ (l.map Prod.fst).toFinset }) := by
  induction l generalizing o with
  | nil => simp
  | cons e l ih =>
    have he := hph e mem_cons_self
    have hload : load (requeue, o) e =
        (requeue,
          { o with
            order := o.order ++ [e.1]
            inflight := o.inflight.insert e.1 e.2.message
            awaitingPubcomp := Insert.insert e.1 o.awaitingPubcomp }) := by
      unfold load
      rw [he]
    rw [foldl_cons, hload, ih fun e' hmem => hph e' (mem_cons_of_mem e hmem)]
    rw [map_cons, toFinset_cons, Finset.union_insert, Finset.insert_union, append_assoc]
    rfl

theorem lookup_foldl_insert (hnd : (l.map Prod.fst).Nodup) (inflight : Table UInt16 (Message α))
    (id : UInt16) (m : Message α) :
    (l.foldl (fun inflight e => inflight.insert e.1 e.2.message) inflight).lookup id = some m ↔
      (∃ record, (id, record) ∈ l ∧ record.message = m) ∨
        (id ∉ l.map Prod.fst ∧ inflight.lookup id = some m) := by
  induction l generalizing inflight with
  | nil => simp
  | cons e l ih =>
    obtain ⟨hnotin, hnd⟩ := nodup_cons.mp hnd
    rw [foldl_cons, ih hnd]
    by_cases hid : id = e.1
    · subst hid
      have hoth : ∀ record, (e.1, record) ∉ l := fun record hmem =>
        hnotin (mem_map.mpr ⟨_, hmem, rfl⟩)
      simp [hoth, hnotin, Prod.ext_iff]
    · simp [hid, Prod.ext_iff]

/-- Loading some of the records, all of which wait for PUBCOMP, into a fresh window. -/
theorem Fresh.load (h : Fresh o) (hnd : (l.map Prod.fst).Nodup)
    (hrecs : ∀ e ∈ l, records.lookup e.1 = some e.2)
    (hph : ∀ id record, records.lookup id = some record → record.phase = .awaitingPubcomp) :
    ∃ o', l.foldl Outbound.load ([], o) = ([], o') ∧ Tracked o' records ∧ o'.unackedLine = [] ∧
      (∀ d ∈ o'.line, d ∈ records.deliveries) ∧
      ((∀ id record, records.lookup id = some record → (id, record) ∈ l) → Covers o' records) := by
  have hwaits : ∀ e ∈ l, e.2.phase = .awaitingPubcomp := fun e hmem =>
    hph e.1 e.2 (hrecs e hmem)
  have hlook := fun id m => lookup_foldl_insert hnd o.inflight id m
  simp only [h.inflight, lookup_empty, reduceCtorEq, and_false, or_false] at hlook
  have hisSome : ∀ id, ((l.foldl (fun inflight e => inflight.insert e.1 e.2.message)
      (∅ : Table UInt16 (Message α))).lookup id).isSome ↔ id ∈ l.map Prod.fst := by
    intro id
    rw [Option.isSome_iff_exists]
    constructor
    · rintro ⟨m, hm⟩
      obtain ⟨record, hmem, -⟩ := (hlook id m).mp hm
      exact mem_map.mpr ⟨_, hmem, rfl⟩
    · intro hmem
      obtain ⟨⟨id', record⟩, he, rfl⟩ := mem_map.mp hmem
      exact ⟨record.message, (hlook id' _).mpr ⟨record, he, rfl⟩⟩
  refine ⟨_, foldl_load hwaits [], ⟨?_, ?_, ?_, ?_, ?_, h.next⟩, ?_, ?_, ?_⟩
  · simpa [h.order] using hnd
  · intro id
    simp only [h.order, h.inflight, nil_append]
    exact (hisSome id).symm
  · intro id hmem
    simp only [h.awaiting, Finset.empty_union, mem_toFinset] at hmem
    simp only [h.inflight]
    exact (hisSome id).mpr hmem
  · intro id m hm
    simp only [h.inflight] at hm
    obtain ⟨record, hmem, rfl⟩ := (hlook id m).mp hm
    have hin : id ∈ l.map Prod.fst := mem_map.mpr ⟨_, hmem, rfl⟩
    rw [hrecs _ hmem]
    simp only [phaseOf, h.awaiting, Finset.empty_union, mem_toFinset, hin, if_true]
    rw [← hwaits _ hmem]
  · exact fun id record hrec => .inl (hph id record hrec)
  · simp only [unackedLine, h.order, h.awaiting, nil_append, Finset.empty_union]
    rw [filter_eq_nil_iff.mpr (by simp)]
    rfl
  · intro d hd
    simp only [line, h.order, h.inflight, nil_append] at hd
    obtain ⟨id, -, hmap⟩ := mem_filterMap.mp hd
    obtain ⟨m, hm, rfl⟩ := Option.map_eq_some_iff.mp hmap
    obtain ⟨record, hmem, rfl⟩ := (hlook id m).mp hm
    exact Multiset.mem_map.mpr ⟨record, mem_values.mpr ⟨id, hrecs _ hmem⟩, rfl⟩
  · intro hall id hsome
    obtain ⟨record, hrec⟩ := Option.isSome_iff_exists.mp hsome
    simp only [h.inflight]
    exact (hisSome id).mpr (mem_map.mpr ⟨_, hall id record hrec, rfl⟩)

theorem firstFree_getD_ne_zero (inUse : UInt16 → Bool) (tries : Nat) {candidate fallback : UInt16}
    (hcandidate : candidate ≠ 0) (hfallback : fallback ≠ 0) :
    (firstFree inUse tries candidate).getD fallback ≠ 0 := by
  induction tries generalizing candidate with
  | zero => exact hfallback
  | succ tries ih =>
    unfold firstFree
    split
    · exact ih advance_ne_zero
    · exact hcandidate

theorem Tracked.advance (h : Tracked o records) : Tracked o.advancePacketIdPastInflight records :=
  h.setNext (firstFree_getD_ne_zero _ _ h.next h.next)

theorem Tracked.emptied (h : Tracked o records) : Fresh o.emptied :=
  ⟨rfl, rfl, rfl, h.next⟩

end

end Outbound

end MqttLib.Broker
