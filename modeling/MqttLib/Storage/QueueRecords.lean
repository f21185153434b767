/-
MqttLib.Storage.QueueRecords

The records of one client's queue on disk beside its entries in memory.  The operations of
the queue (`broker/storage/client_queue.rs`) change the entries under the queue's lock and
hand their records to the write-behind lane, some of them under the lock and the removals
mostly after it; the lane (`broker/storage/write_behind.rs`) is drained in batches.

The state has the removals that are still to be handed over and the log of what the lane was
given, with the batches of the writer task in between.
-/

import MqttLib.Foundation.Reachable
import MqttLib.Storage.ClientQueue
import MqttLib.Storage.WriteBehind

namespace MqttLib.Storage.QueueRecords

open Foundation WriteBehind ClientQueue List

/-! ## The operations -/

structure State where
  queue : ClientQueue QueuedMessage := {}
  /-- Sequence numbers whose `enqueue_delete` is still to come. -/
  late : List Nat := []
  /-- What was given to the lane, and the batches. -/
  log : List Event := []

inductive Action where
  | push (body : QueuedMessage)
  | pushInEpoch (body : QueuedMessage) (epoch : Nat)
  | take (now : SystemTime) (limit : Nat)
  | requeueFront (messages : List QueuedMessage)
  | requeueFrontInEpoch (messages : List QueuedMessage) (epoch : Nat)
  | clear (cutoff : Option Nat)
  | purgeExpired (now : SystemTime)
  /-- An `enqueue_delete` after the lock. -/
  | remove (seq : Nat)
  /-- A batch of the writer task, or something about other records. -/
  | other (e : Event)
  /-- Another queue takes a sequence number. -/
  | number

/-- `purge_expired` up to the end of its lock, with the entries it removes. -/
def purgeExpired (q : ClientQueue QueuedMessage) (now : SystemTime) :
    ClientQueue QueuedMessage × List (QueueEntry QueuedMessage) :=
  let kept := q.entries.filter fun entry => !entry.isExpired now
  (publishCount
    { q with
      entries := kept
      bytes := (kept.map QueueEntry.bytes).sum },
    q.entries.filter fun entry => entry.isExpired now)

def isStore : QueueWrite QueuedMessage → Bool
  | .store _ _ => true
  | .remove _ => false

def seqOf : QueueWrite QueuedMessage → Nat
  | .store seq _ => seq
  | .remove seq => seq

section

variable (clientId : String)

def event : QueueWrite QueuedMessage → Event
  | .store seq body => .storeQueued clientId (UInt64.ofNat seq) body
  | .remove seq => .removeQueued clientId (UInt64.ofNat seq)

/-- The event is not about the client's queue. -/
def isForeign : Event → Bool
  | .storeQueued clientId' _ _ => clientId' != clientId
  | .removeQueued clientId' _ => clientId' != clientId
  | _ => true

/-- The end of a locked section, with what it gave to the lane and what is to be removed. -/
def State.locked (s : State) (queue : ClientQueue QueuedMessage)
    (writes : List (QueueWrite QueuedMessage)) (gone : List (QueueEntry QueuedMessage)) :
    State where
  queue
  late := s.late ++ gone.map QueueEntry.seq
  log := s.log ++ writes.map (event clientId)

theorem State.locked_self (s : State) : s.locked clientId s.queue [] [] = s := by
  simp [State.locked]

variable [Queueable QueuedMessage]

/-- `push`: the record of the new entry is written under the lock, those of the entries it
displaces are removed after it. -/
def State.push (s : State) (body : QueuedMessage) : State :=
  let (queue, evicted, writes) := s.queue.append body
  s.locked clientId queue (writes.filter isStore) (evicted.filter fun old => old.seq != s.queue.seq)

def act (s : State) : Action → Option State
  | .push body => some (s.push clientId body)
  | .pushInEpoch body epoch => if s.queue.epoch = epoch then some (s.push clientId body) else some s
  | .take now limit =>
    let (taken, queue, writes) := s.queue.takeEntries now limit
    some (s.locked clientId (queue.markDraining taken) writes taken)
  | .requeueFront messages =>
    let (queue, _, writes) := s.queue.insertFront messages
    if messages.isEmpty then some s else some (s.locked clientId queue writes [])
  | .requeueFrontInEpoch messages epoch =>
    let (queue, _, writes) := s.queue.requeueFrontInEpoch messages epoch
    some (s.locked clientId queue writes [])
  | .clear cutoff =>
    let (queue, _) := s.queue.clear cutoff
    some (s.locked clientId queue []
      (s.queue.entries.filter fun entry => cutoff.all fun cutoff => entry.seq < cutoff))
  | .purgeExpired now =>
    let (queue, removed) := QueueRecords.purgeExpired s.queue now
    some (s.locked clientId queue [] removed)
  | .remove seq =>
    if seq ∈ s.late then
      some { s with
        late := s.late.erase seq
        log := s.log ++ [.removeQueued clientId (UInt64.ofNat seq)] }
    else none
  | .other e => if isForeign clientId e then some { s with log := s.log ++ [e] } else none
  | .number => some { s with queue := { s.queue with seq := s.queue.seq + 1 } }

end

/-! ## Records and entries -/

section

variable (texts : Texts) (clientId : String) (files : Files)

/-- A record with what the lane has for it, the lane having been opened on the files. -/
def record (s : State) (seq : UInt64) : Cell Bytes :=
  (Cell.fresh (files.queue (clientId, seq))).run (queueOps texts (clientId, seq) s.log)

/-- What the record of an entry should be; the body of an entry found on disk is the file. -/
def text (entry : QueueEntry QueuedMessage) : Option Bytes :=
  (entry.body.map texts.queued).or (files.queue (clientId, UInt64.ofNat entry.seq))

/-- The record of the entry with a sequence number. -/
def content (s : State) (seq : UInt64) : Option Bytes :=
  (s.queue.entries.find? fun entry => entry.seq == seq.toNat).bind (text texts clientId files)

/-- The backend has been opened: the entries are the files, and the next number is above. -/
structure Opened (s : State) : Prop where
  log : s.log = []
  late : s.late = []
  sorted : s.queue.entries.Pairwise fun a b => a.seq < b.seq
  below : ∀ entry ∈ s.queue.entries, entry.seq < s.queue.seq
  bounded : s.queue.seq < UInt64.size
  scanned : ∀ entry ∈ s.queue.entries, entry.body = none
  files : ∀ seq, (files.queue (clientId, seq)).isSome ↔
    ∃ entry ∈ s.queue.entries, entry.seq = seq.toNat

/-- A removal now would not be lost in the lane: no store waits there for a record that is on
disk without the lane knowing it. -/
def lossless (c : Cell Bytes) : Bool :=
  match c.entry with
  | some (some _) => c.known || c.file.isNone
  | _ => true

/-- The number below which a re-queue goes. -/
def base (q : ClientQueue QueuedMessage) : Nat := (q.entries.head?.map QueueEntry.seq).getD q.seq

/-- A removal after the lock finds no entry with its number, no removal is lost in the lane,
and there are sequence numbers left. -/
def timely (s : State) : Action → Bool
  | .remove seq => s.queue.entries.all (fun entry => entry.seq != seq) &&
      lossless (record texts clientId files s (UInt64.ofNat seq))
  | .take _ _ => s.queue.entries.all fun entry =>
      lossless (record texts clientId files s (UInt64.ofNat entry.seq))
  | .requeueFront messages | .requeueFrontInEpoch messages _ =>
    messages.length ≤ base s.queue && s.queue.entries.all fun entry =>
      lossless (record texts clientId files s (UInt64.ofNat entry.seq))
  | .push _ | .pushInEpoch _ _ | .number => s.queue.seq + 1 < UInt64.size
  | _ => true

end

/-! ## What a locked section does to the entries and their records -/

abbrev Entries := List (QueueEntry QueuedMessage)

/-- Every entry of the section's end is an old one or is stored with its body; every old one is
kept, removed under the lock or to be removed after it; and no number is written twice. -/
structure Sectioned (old new : Entries) (writes : List (QueueWrite QueuedMessage))
    (gone : Entries) : Prop where
  kept : ∀ entry ∈ new, entry ∈ old ∨ ∃ body, entry.body = some body ∧
    .store entry.seq body ∈ writes
  left : ∀ entry ∈ old, entry ∈ new ∨ entry ∈ gone ∨ .remove entry.seq ∈ writes
  gone : ∀ entry ∈ gone, entry ∈ old
  stored : ∀ seq body, .store seq body ∈ writes → ∃ entry ∈ new, entry.seq = seq ∧
    entry.body = some body
  fresh : ∀ seq body, .store seq body ∈ writes → ∀ entry ∈ old, entry.seq ≠ seq
  removed : ∀ seq, .remove seq ∈ writes →
    (∃ entry ∈ old, entry.seq = seq) ∧ ∀ entry ∈ new, entry.seq ≠ seq
  nodup : (writes.map seqOf).Nodup

theorem nodup_of_sorted {entries : Entries}
    (hsorted : entries.Pairwise fun a b => a.seq < b.seq) : (entries.map QueueEntry.seq).Nodup := by
  rw [List.Nodup, pairwise_map]
  exact hsorted.imp fun h => Nat.ne_of_lt h

/-- Entries are dropped, and their records removed after the lock. -/
theorem sectioned_filter (entries : Entries) (p : QueueEntry QueuedMessage → Bool) :
    Sectioned entries (entries.filter fun entry => !p entry) [] (entries.filter p) where
  kept entry h := .inl (mem_filter.mp h).1
  left entry h := by
    cases hp : p entry with
    | true => exact .inr (.inl (mem_filter.mpr ⟨h, hp⟩))
    | false => exact .inl (mem_filter.mpr ⟨h, by rw [hp]; rfl⟩)
  gone entry h := (mem_filter.mp h).1
  stored seq body h := absurd h not_mem_nil
  fresh seq body h := absurd h not_mem_nil
  removed seq h := absurd h not_mem_nil
  nodup := nodup_nil

theorem sectioned_take {q : ClientQueue QueuedMessage} (now : SystemTime) (limit : Nat)
    (hnd : (q.entries.map QueueEntry.seq).Nodup) :
    Sectioned q.entries (q.takeEntries now limit).2.1.entries (q.takeEntries now limit).2.2
      (q.takeEntries now limit).1 := by
  obtain ⟨-, -, hperm, -⟩ := takeLoop_spec now limit q.entries
  show Sectioned q.entries (takeLoop now limit q.entries).2.2
    ((takeLoop now limit q.entries).2.1.map fun entry => .remove entry.seq)
    (takeLoop now limit q.entries).1
  generalize takeLoop now limit q.entries = loop at hperm
  obtain ⟨taken, expired, rest⟩ := loop
  have hseqs : ((taken ++ expired ++ rest).map QueueEntry.seq).Nodup :=
    (hperm.map _).nodup_iff.mpr hnd
  have hmem {entry : QueueEntry QueuedMessage} :
      entry ∈ q.entries ↔ entry ∈ taken ∨ entry ∈ expired ∨ entry ∈ rest := by
    rw [← hperm.mem_iff, mem_append, mem_append, or_assoc]
  refine ⟨fun entry h => .inl (hmem.mpr (.inr (.inr h))), fun entry h => ?_,
    fun entry h => hmem.mpr (.inl h), ?_, ?_, ?_, ?_⟩
  · rcases hmem.mp h with htaken | hexpd | hrest
    · exact .inr (.inl htaken)
    · exact .inr (.inr (mem_map.mpr ⟨entry, hexpd, rfl⟩))
    · exact .inl hrest
  iterate 2
    intro seq _ h
    obtain ⟨_, _, heq⟩ := mem_map.mp h
    cases heq
  · intro seq h
    obtain ⟨entry, hent, heq⟩ := mem_map.mp h
    cases heq
    refine ⟨⟨entry, hmem.mpr (.inr (.inl hent)), rfl⟩, fun other hoth hseq => ?_⟩
    rw [map_append, nodup_append] at hseqs
    refine hseqs.2.2 entry.seq ?_ other.seq (mem_map_of_mem hoth) hseq.symm
    exact mem_map_of_mem (mem_append_right _ hent)
  · have hexpd : (expired.map QueueEntry.seq).Nodup := by
      rw [map_append, map_append] at hseqs
      exact (nodup_append.mp (nodup_append.mp hseqs).1).2.1
    rw [map_map]
    exact hexpd

theorem enforceLimits_perm (q : ClientQueue QueuedMessage) (keepFront : Bool) :
    ((q.enforceLimits keepFront).1 ++ (q.enforceLimits keepFront).2.entries).Perm q.entries := by
  have hsplit := shed_append q.limits (if keepFront then q.entries.reverse else q.entries) q.bytes
  cases keepFront with
  | false => exact .of_eq hsplit
  | true =>
    have hreverse := (reverse_perm q.entries).symm.trans (.of_eq hsplit.symm)
    exact ((reverse_perm _).append_left _).trans hreverse.symm

theorem enforceLimits_sublist (q : ClientQueue QueuedMessage) (keepFront : Bool) :
    (q.enforceLimits keepFront).2.entries.Sublist q.entries := by
  cases keepFront with
  | false =>
    have hkept := sublist_append_right (shed q.limits q.entries q.bytes).1
      (shed q.limits q.entries q.bytes).2
    rw [shed_append] at hkept
    exact hkept
  | true =>
    have hkept := (sublist_append_right (shed q.limits q.entries.reverse q.bytes).1
      (shed q.limits q.entries.reverse q.bytes).2).reverse
    rw [shed_append, reverse_reverse] at hkept
    exact hkept

/-- What `insert_front` gives to the lane: the new entries that are not shed themselves are
stored, and the old ones that are shed are removed. -/
def frontWrites (entries : Entries) (messages : List QueuedMessage) (evicted : Entries) :
    List (QueueWrite QueuedMessage) :=
  ((evicted.filter fun old => !entries.any fun entry => entry.seq == old.seq).map
    fun old => .remove old.seq) ++
  (((entries.zip messages).filter fun e => !evicted.any fun old => old.seq == e.1.seq).map
    fun e => .store e.1.seq e.2)

section Front

variable {old entries evicted kept : Entries} {messages : List QueuedMessage}

/-- Entries that split into the shed and the kept ones, with a number each. -/
structure Splits (old entries evicted kept : Entries) : Prop where
  nodup : ((entries ++ old).map QueueEntry.seq).Nodup
  perm : (evicted ++ kept).Perm (entries ++ old)

namespace Splits

variable (h : Splits old entries evicted kept) {e : QueueEntry QueuedMessage}

include h

theorem mem : e ∈ entries ∨ e ∈ old ↔ e ∈ evicted ∨ e ∈ kept := by
  rw [← mem_append, ← mem_append, h.perm.mem_iff]

variable {a b : QueueEntry QueuedMessage}

theorem unique (ha : a ∈ entries ∨ a ∈ old)
    (hb : b ∈ entries ∨ b ∈ old) (hseq : a.seq = b.seq) : a = b :=
  inj_on_of_nodup_map h.nodup (mem_append.mpr ha) (mem_append.mpr hb) hseq

theorem apart (ha : a ∈ entries) (hb : b ∈ old) : a.seq ≠ b.seq := by
  have hnd := h.nodup
  rw [map_append, nodup_append] at hnd
  exact hnd.2.2 _ (mem_map_of_mem ha) _ (mem_map_of_mem hb)

theorem shed_apart (ha : a ∈ evicted) (hb : b ∈ kept) : a.seq ≠ b.seq := by
  have hseqs := (h.perm.map QueueEntry.seq).nodup_iff.mpr h.nodup
  rw [map_append, nodup_append] at hseqs
  exact hseqs.2.2 _ (mem_map_of_mem ha) _ (mem_map_of_mem hb)

/-- The loops compare numbers, which here is comparing entries. -/
theorem not_shed (he : e ∈ entries) : (!evicted.any fun old => old.seq == e.seq) ↔ e ∉ evicted := by
  rw [Bool.not_eq_true', ← Bool.not_eq_true, any_eq_true, not_iff_not]
  constructor
  · rintro ⟨_, hshed, hseq⟩
    exact h.unique (h.mem.mpr (.inl hshed)) (.inl he) (eq_of_beq hseq) ▸ hshed
  · exact fun hshed => ⟨e, hshed, beq_self_eq_true _⟩

theorem not_new {shed : QueueEntry QueuedMessage} (hshed : shed ∈ evicted) :
    (!entries.any fun entry => entry.seq == shed.seq) ↔ shed ∈ old := by
  rw [Bool.not_eq_true', ← Bool.not_eq_true, any_eq_true]
  constructor
  · intro hnone
    refine (h.mem.mpr (.inl hshed)).resolve_left fun he => ?_
    exact hnone ⟨shed, he, beq_self_eq_true _⟩
  · rintro hold ⟨entry, he, hseq⟩
    exact h.apart he hold (eq_of_beq hseq)

theorem remove_mem {seq : Nat} : QueueWrite.remove seq ∈ frontWrites entries messages evicted ↔
    ∃ shed ∈ evicted, shed ∈ old ∧ shed.seq = seq := by
  rw [frontWrites, mem_append, mem_map, mem_map]
  constructor
  · rintro (⟨shed, hmem, heq⟩ | ⟨e, he, heq⟩)
    · obtain ⟨hshed, hnot⟩ := mem_filter.mp hmem
      cases heq
      exact ⟨shed, hshed, (h.not_new hshed).mp hnot, rfl⟩
    · cases heq
  · rintro ⟨shed, hshed, hold, rfl⟩
    exact .inl ⟨shed, mem_filter.mpr ⟨hshed, (h.not_new hshed).mpr hold⟩, rfl⟩

section

variable (hzip : (entries.zip messages).map Prod.fst = entries)
include hzip

theorem store_mem {seq : Nat}
    {body : QueuedMessage} : QueueWrite.store seq body ∈ frontWrites entries messages evicted ↔
    ∃ entry, (entry, body) ∈ entries.zip messages ∧ entry ∉ evicted ∧ entry.seq = seq := by
  have hent {e : QueueEntry QueuedMessage × QueuedMessage} (he : e ∈ entries.zip messages) :
      e.1 ∈ entries := hzip ▸ mem_map_of_mem he
  rw [frontWrites, mem_append, mem_map, mem_map]
  constructor
  · rintro (⟨_, hmem, heq⟩ | ⟨e, he, heq⟩)
    · cases heq
    · obtain ⟨hpair, hnot⟩ := mem_filter.mp he
      cases heq
      exact ⟨e.1, hpair, (h.not_shed (hent hpair)).mp hnot, rfl⟩
  · rintro ⟨entry, hpair, hshed, rfl⟩
    exact .inr ⟨(entry, body), mem_filter.mpr ⟨hpair, (h.not_shed (hent hpair)).mpr hshed⟩, rfl⟩

theorem nodup_writes : ((frontWrites entries messages evicted).map seqOf).Nodup := by
  have hshed : (evicted.map QueueEntry.seq).Nodup := by
    have hseqs := (h.perm.map QueueEntry.seq).nodup_iff.mpr h.nodup
    rw [map_append] at hseqs
    exact (nodup_append.mp hseqs).1
  have hnew : ((entries.zip messages).map fun e => e.1.seq).Nodup := by
    have hseqs := h.nodup
    rw [map_append] at hseqs
    have hents := (nodup_append.mp hseqs).1
    rw [← hzip, map_map] at hents
    exact hents
  rw [frontWrites, map_append, map_map, map_map, nodup_append]
  refine ⟨(filter_sublist.map _).nodup hshed, (filter_sublist.map _).nodup hnew, ?_⟩
  rintro _ ha _ hb rfl
  obtain ⟨_, hmem, hseq⟩ := mem_map.mp ha
  obtain ⟨e, he, heq⟩ := mem_map.mp hb
  obtain ⟨hevicted, hnot⟩ := mem_filter.mp hmem
  have hpair := (mem_filter.mp he).1
  have hent : e.1 ∈ entries := hzip ▸ mem_map_of_mem hpair
  refine h.apart hent ((h.not_new hevicted).mp hnot) ?_
  exact heq.trans hseq.symm

theorem sectioned (hbodies : ∀ pair ∈ entries.zip messages, pair.1.body = some pair.2) :
    Sectioned old kept (frontWrites entries messages evicted) [] where
  kept e he := by
    rcases h.mem.mpr (.inr he) with hnew | hold
    · refine .inr ?_
      rw [← hzip] at hnew
      obtain ⟨⟨entry, body⟩, hpair, rfl⟩ := mem_map.mp hnew
      refine ⟨body, hbodies _ hpair, (h.store_mem hzip).mpr ⟨entry, hpair, fun hshed => ?_, rfl⟩⟩
      exact h.shed_apart hshed he rfl
    · exact .inl hold
  left e he := by
    rcases h.mem.mp (.inr he) with hshed | hkept
    · exact .inr (.inr (h.remove_mem.mpr ⟨e, hshed, he, rfl⟩))
    · exact .inl hkept
  gone e he := absurd he not_mem_nil
  stored seq body hw := by
    obtain ⟨entry, hpair, hshed, hseq⟩ := (h.store_mem hzip).mp hw
    have hent : entry ∈ entries := hzip ▸ mem_map_of_mem hpair
    exact ⟨entry, (h.mem.mp (.inl hent)).resolve_left hshed, hseq, hbodies _ hpair⟩
  fresh seq body hw e he := by
    obtain ⟨entry, hpair, -, rfl⟩ := (h.store_mem hzip).mp hw
    have hent : entry ∈ entries := hzip ▸ mem_map_of_mem hpair
    exact (h.apart hent he).symm
  removed seq hw := by
    obtain ⟨shed, hshed, hold, rfl⟩ := h.remove_mem.mp hw
    exact ⟨⟨shed, hold, rfl⟩, fun e he => (h.shed_apart hshed he).symm⟩
  nodup := h.nodup_writes hzip

end

end Splits

end Front

section

variable [Queueable QueuedMessage]

variable {q : ClientQueue QueuedMessage} {messages : List QueuedMessage}

theorem sectioned_append (body : QueuedMessage) (hnd : (q.entries.map QueueEntry.seq).Nodup)
    (hbelow : ∀ entry ∈ q.entries, entry.seq < q.seq) :
    Sectioned q.entries (q.append body).1.entries ((q.append body).2.2.filter isStore)
      ((q.append body).2.1.filter fun old => old.seq != q.seq) := by
  have hperm := enforceLimits_perm
    { q with
      seq := q.seq + 1
      bytes := q.bytes + (newEntry q.seq body).bytes
      entries := q.entries ++ [newEntry q.seq body] } false
  simp only [append]
  generalize enforceLimits _ false = shed at hperm ⊢
  obtain ⟨evicted, kept⟩ := shed
  dsimp only [publishCount] at hperm ⊢
  set entry := newEntry q.seq body
  have hold {e : QueueEntry QueuedMessage} (he : e ∈ q.entries) : e.seq ≠ q.seq :=
    Nat.ne_of_lt (hbelow e he)
  have hsplits : Splits q.entries [entry] evicted kept.entries := by
    refine ⟨?_, hperm.trans perm_append_comm⟩
    rw [singleton_append, map_cons, nodup_cons, mem_map]
    refine ⟨?_, hnd⟩
    rintro ⟨e, he, hseq⟩
    exact hold he hseq
  have hself : (evicted.any fun old => old.seq == q.seq) ↔ entry ∈ evicted := by
    have hnot := hsplits.not_shed (mem_singleton_self entry)
    rw [Bool.not_eq_true', ← Bool.not_eq_true, not_iff_not] at hnot
    exact hnot
  have hwrites : filter isStore
      ((if (evicted.any fun old => old.seq == q.seq) = true then [] else [.store q.seq body]) ++
        (evicted.filter fun old => old.seq != q.seq).map fun old => .remove old.seq) =
      if (evicted.any fun old => old.seq == q.seq) = true then [] else [.store q.seq body] := by
    rw [filter_append, filter_map]
    split <;> simp [isStore, Function.comp_def]
  rw [hwrites]
  refine ⟨fun e he => ?_, fun e he => ?_, fun e he => ?_, fun seq b h => ?_, fun seq b h => ?_,
    fun seq h => ?_, ?_⟩
  · rcases hsplits.mem.mpr (.inr he) with hnew | hq
    · obtain rfl := mem_singleton.mp hnew
      refine .inr ⟨body, rfl, ?_⟩
      rw [if_neg (fun hshed => hsplits.shed_apart (hself.mp hshed) he rfl)]
      exact mem_singleton_self _
    · exact .inl hq
  · rcases hsplits.mem.mp (.inr he) with hshed | hkept
    · exact .inr (.inl (mem_filter.mpr ⟨hshed, bne_iff_ne.mpr (hold he)⟩))
    · exact .inl hkept
  · obtain ⟨hshed, hne⟩ := mem_filter.mp he
    refine (hsplits.mem.mpr (.inl hshed)).resolve_left fun hnew => bne_iff_ne.mp hne ?_
    rw [mem_singleton.mp hnew]
    rfl
  · split at h
    · exact absurd h not_mem_nil
    · rename_i hshed
      cases mem_singleton.mp h
      have hkept := hsplits.mem.mp (.inl (mem_singleton_self entry))
      exact ⟨entry, hkept.resolve_left fun h => hshed (hself.mpr h), rfl, rfl⟩
  · split at h
    · exact absurd h not_mem_nil
    · cases mem_singleton.mp h
      exact fun e he => hold he
  · split at h
    · exact absurd h not_mem_nil
    · cases mem_singleton.mp h
  · split
    · exact nodup_nil
    · exact nodup_singleton _

/-! ### Entries put back at the front -/

theorem mem_numbered {first : Nat} {entry : QueueEntry QueuedMessage}
    (h : entry ∈ numbered first messages) :
    first ≤ entry.seq ∧ entry.seq < first + messages.length := by
  induction messages generalizing first with
  | nil => exact absurd h not_mem_nil
  | cons _ messages ih =>
    rcases mem_cons.mp h with rfl | h
    · exact ⟨Nat.le_refl first, Nat.lt_add_of_pos_right (Nat.succ_pos _)⟩
    · obtain ⟨hlow, hhigh⟩ := ih h
      rw [length_cons]
      omega

theorem sorted_numbered (first : Nat) (messages : List QueuedMessage) :
    (numbered first messages).Pairwise fun a b => a.seq < b.seq := by
  induction messages generalizing first with
  | nil => exact .nil
  | cons _ messages ih =>
    exact .cons (fun _ h => (mem_numbered h).1) (ih (first + 1))

/-- Each new entry has the body it is paired with. -/
theorem zip_numbered (first : Nat) (messages : List QueuedMessage) :
    ∀ pair ∈ (numbered first messages).zip messages, pair.1.body = some pair.2 := by
  induction messages generalizing first with
  | nil => exact fun pair h => absurd h not_mem_nil
  | cons body messages ih =>
    intro pair h
    rcases mem_cons.mp h with rfl | h
    · rfl
    · exact ih (first + 1) pair h

section

variable (hsorted : q.entries.Pairwise fun a b => a.seq < b.seq)
include hsorted

theorem sorted_inserted (hroom : messages.length ≤ base q) :
    (numbered (base q - messages.length) messages ++ q.entries).Pairwise
      fun a b => a.seq < b.seq := by
  rw [pairwise_append]
  refine ⟨sorted_numbered _ _, hsorted, fun a ha b hb => ?_⟩
  have hlow := (mem_numbered ha).2
  have hbase : base q ≤ b.seq := by
    cases hents : q.entries with
    | nil =>
      rw [hents] at hb
      exact absurd hb not_mem_nil
    | cons head _ =>
      rw [hents] at hb hsorted
      rw [base, hents]
      rcases mem_cons.mp hb with rfl | hb
      · exact Nat.le_refl _
      · exact Nat.le_of_lt (rel_of_pairwise_cons hsorted hb)
  omega

theorem ordered_append (hbelow : ∀ entry ∈ q.entries, entry.seq < q.seq) (body : QueuedMessage) :
    ((q.append body).1.entries.Pairwise fun a b => a.seq < b.seq) ∧
      ∀ entry ∈ (q.append body).1.entries, entry.seq < (q.append body).1.seq := by
  have hsub : (q.append body).1.entries.Sublist (q.entries ++ [newEntry q.seq body]) :=
    enforceLimits_sublist _ false
  refine ⟨List.Pairwise.sublist hsub ?_, fun entry he => ?_⟩
  · refine pairwise_append.mpr ⟨hsorted, pairwise_singleton _ _, fun a ha b hb => ?_⟩
    rw [mem_singleton.mp hb]
    exact hbelow a ha
  · show entry.seq < q.seq + 1
    rcases mem_append.mp (hsub.subset he) with hold | hnew
    · exact Nat.lt_succ_of_lt (hbelow entry hold)
    · rw [mem_singleton.mp hnew]
      exact Nat.lt_succ_self _

/-- The same when messages are put back at the front. -/
theorem ordered_insertFront
    (hbelow : ∀ entry ∈ q.entries, entry.seq < q.seq) (hroom : messages.length ≤ base q) :
    ((q.insertFront messages).1.entries.Pairwise fun a b => a.seq < b.seq) ∧
      ∀ entry ∈ (q.insertFront messages).1.entries, entry.seq < q.seq := by
  have hsub : (q.insertFront messages).1.entries.Sublist
      (numbered (base q - messages.length) messages ++ q.entries) :=
    enforceLimits_sublist _ true
  have hbase : base q ≤ q.seq := by
    unfold base
    cases hhead : q.entries.head? with
    | none => exact Nat.le_refl _
    | some entry => exact Nat.le_of_lt (hbelow entry (mem_of_head? hhead))
  refine ⟨(sorted_inserted hsorted hroom).sublist hsub, fun entry he => ?_⟩
  rcases mem_append.mp (hsub.subset he) with hnew | hold
  · have hlow := (mem_numbered hnew).2
    omega
  · exact hbelow entry hold

theorem sectioned_insertFront (hroom : messages.length ≤ base q) :
    Sectioned q.entries (q.insertFront messages).1.entries (q.insertFront messages).2.2 [] := by
  have hsplits : Splits q.entries (numbered (base q - messages.length) messages)
      _ _ :=
    ⟨nodup_of_sorted (sorted_inserted hsorted hroom), enforceLimits_perm
      { q with
        bytes := q.bytes +
          ((numbered (base q - messages.length) messages).map QueueEntry.bytes).sum
        entries := numbered (base q - messages.length) messages ++ q.entries } true⟩
  exact hsplits.sectioned (map_fst_zip (length_numbered _ _).le) (zip_numbered _ _)

end

end

/-! ## What the lane makes of the writes -/

section

variable {texts : Texts} {clientId : String} {files : Files} {s : State}
  {w : QueueWrite QueuedMessage}

/-- What a write is to the record it is about. -/
def cellOp (texts : Texts) : QueueWrite QueuedMessage → CellOp Bytes
  | .store _ body => .store (texts.queued body)
  | .remove _ => .remove

theorem toNat_ofNat {n : Nat} (h : n < UInt64.size) : (UInt64.ofNat n).toNat = n :=
  UInt64.toNat_ofNat_of_lt h

theorem queueOp_event (hbound : seqOf w < UInt64.size)
    (seq : UInt64) : (event clientId w).queueOp texts (clientId, seq) =
      if seq.toNat = seqOf w then some (cellOp texts w) else none := by
  have hkey {n : Nat} (hn : n < UInt64.size) :
      ((clientId, seq) = (clientId, UInt64.ofNat n)) ↔ seq.toNat = n := by
    rw [Prod.mk.injEq, ← UInt64.toNat_inj, toNat_ofNat hn]
    simp
  cases w with
  | store n body | remove n => exact if_congr (hkey hbound) rfl rfl

variable {seq : UInt64} {writes : List (QueueWrite QueuedMessage)}

theorem queueOps_of_forall_ne
    (hbound : ∀ w ∈ writes, seqOf w < UInt64.size) (hne : ∀ w ∈ writes, seqOf w ≠ seq.toNat) :
    queueOps texts (clientId, seq) (writes.map (event clientId)) = [] := by
  rw [queueOps, filterMap_map, filterMap_eq_nil_iff]
  intro w hw
  show (event clientId w).queueOp texts (clientId, seq) = none
  rw [queueOp_event (hbound w hw), if_neg (hne w hw).symm]

theorem queueOps_of_mem (hnd : (writes.map seqOf).Nodup)
    (hbound : ∀ w ∈ writes, seqOf w < UInt64.size) (hw : w ∈ writes) (hseq : seq.toNat = seqOf w) :
    queueOps texts (clientId, seq) (writes.map (event clientId)) = [cellOp texts w] := by
  induction writes with
  | nil => exact absurd hw not_mem_nil
  | cons v writes ih =>
    rw [map_cons, nodup_cons] at hnd
    rw [map_cons, queueOps, filterMap_cons, queueOp_event (hbound v mem_cons_self)]
    have hrest : ∀ w ∈ writes, seqOf w < UInt64.size := fun w hw =>
      hbound w (mem_cons_of_mem v hw)
    rcases mem_cons.mp hw with rfl | hw
    · rw [if_pos hseq]
      refine congrArg (_ :: ·) (queueOps_of_forall_ne hrest fun v hv heq => hnd.1 ?_)
      rw [← hseq, ← heq]
      exact mem_map_of_mem hv
    · have hne : ¬ seq.toNat = seqOf v := fun heq => hnd.1 (by
        rw [← heq, hseq]
        exact mem_map_of_mem hw)
      rw [if_neg hne]
      exact ih hnd.2 hrest hw

theorem effective_remove {c : Cell Bytes} (h : lossless c) : (c.step .remove).effective = none := by
  obtain ⟨file, known, entry, cleared⟩ := c
  rcases entry with _ | _ | v
  · rfl
  · rfl
  · cases known with
    | true => rfl
    | false =>
      have hfile : file = none := by simpa [lossless] using h
      subst hfile
      cases cleared <;> rfl

theorem record_append (s : State) (events : List Event) (queue : ClientQueue QueuedMessage)
    (late : List Nat) (seq : UInt64) :
    record texts clientId files { queue, late, log := s.log ++ events } seq =
      (record texts clientId files s seq).run (queueOps texts (clientId, seq) events) := by
  simp only [record, queueOps, filterMap_append, Cell.run, foldl_append]

theorem content_of_mem {entry : QueueEntry QueuedMessage}
    (hsorted : s.queue.entries.Pairwise fun a b => a.seq < b.seq) (h : entry ∈ s.queue.entries)
    (hseq : entry.seq = seq.toNat) :
    content texts clientId files s seq = text texts clientId files entry := by
  have hfind : (s.queue.entries.find? fun entry => entry.seq == seq.toNat) = some entry := by
    cases hfound : s.queue.entries.find? fun entry => entry.seq == seq.toNat with
    | none => exact absurd (beq_iff_eq.mpr hseq) (find?_eq_none.mp hfound entry h)
    | some _ =>
      have hsame := find?_some hfound
      rw [inj_on_of_nodup_map (nodup_of_sorted hsorted) (mem_of_find?_eq_some hfound) h
        ((eq_of_beq hsame).trans hseq.symm)]
  rw [content, hfind]
  rfl

theorem content_eq_none (h : ∀ entry ∈ s.queue.entries, entry.seq ≠ seq.toNat) :
    content texts clientId files s seq = none := by
  have hfind : (s.queue.entries.find? fun entry => entry.seq == seq.toNat) = none :=
    find?_eq_none.mpr fun entry hent => by simpa using h entry hent
  rw [content, hfind]
  rfl

end

/-! ## The records follow the entries -/

/-- Every entry has its record in the lane or on disk, and any other record is still to be
removed. -/
structure Sound (texts : Texts) (clientId : String) (files : Files) (s : State) : Prop where
  sorted : s.queue.entries.Pairwise fun a b => a.seq < b.seq
  below : ∀ entry ∈ s.queue.entries, entry.seq < s.queue.seq
  bounded : s.queue.seq < UInt64.size
  lateBounded : ∀ n ∈ s.late, n < UInt64.size
  readable : ∀ entry ∈ s.queue.entries, (text texts clientId files entry).isSome
  agree : ∀ seq, (record texts clientId files s seq).effective =
    content texts clientId files s seq ∨
    (content texts clientId files s seq = none ∧ seq.toNat ∈ s.late)

namespace Sound

variable {texts : Texts} {clientId : String} {files : Files} {s : State}

theorem of_opened (h : Opened clientId files s) : Sound texts clientId files s := by
  have hkey {entry : QueueEntry QueuedMessage} (he : entry ∈ s.queue.entries) :
      (UInt64.ofNat entry.seq).toNat = entry.seq :=
    toNat_ofNat ((h.below entry he).trans h.bounded)
  refine ⟨h.sorted, h.below, h.bounded, fun n hn => ?_, fun entry he => ?_, fun seq => .inl ?_⟩
  · rw [h.late] at hn
    exact absurd hn not_mem_nil
  · rw [text, h.scanned entry he]
    exact (h.files _).mpr ⟨entry, he, (hkey he).symm⟩
  · have hrec : (record texts clientId files s seq).effective = files.queue (clientId, seq) := by
      rw [record, h.log]
      rfl
    rw [hrec]
    by_cases hent : ∃ entry ∈ s.queue.entries, entry.seq = seq.toNat
    · obtain ⟨entry, he, hseq⟩ := hent
      rw [content_of_mem h.sorted he hseq, text, h.scanned entry he, hseq, UInt64.ofNat_toNat]
      rfl
    · rw [content_eq_none fun entry he hseq => hent ⟨entry, he, hseq⟩]
      exact Option.not_isSome_iff_eq_none.mp fun hsome => hent ((h.files seq).mp hsome)

section

variable (hs : Sound texts clientId files s)
include hs

theorem effective_of_mem {entry : QueueEntry QueuedMessage} (he : entry ∈ s.queue.entries)
    {seq : UInt64} (hseq : entry.seq = seq.toNat) :
    (record texts clientId files s seq).effective = text texts clientId files entry := by
  have hctnt : content texts clientId files s seq = text texts clientId files entry :=
    content_of_mem hs.sorted he hseq
  rcases hs.agree seq with heq | ⟨hnone, -⟩
  · exact heq.trans hctnt
  · rw [hctnt] at hnone
    have hsome := hs.readable entry he
    rw [hnone] at hsome
    cases hsome

/-- A locked section keeps the records with the entries. -/
theorem locked {queue : ClientQueue QueuedMessage} {writes : List (QueueWrite QueuedMessage)}
    {gone : Entries} (hsec : Sectioned s.queue.entries queue.entries writes gone)
    (hsorted : queue.entries.Pairwise fun a b => a.seq < b.seq)
    (hbelow : ∀ entry ∈ queue.entries, entry.seq < queue.seq) (hbounded : queue.seq < UInt64.size)
    (hloss : ∀ seq, .remove seq ∈ writes →
      lossless (record texts clientId files s (UInt64.ofNat seq))) :
    Sound texts clientId files (s.locked clientId queue writes gone) := by
  have hent {entry : QueueEntry QueuedMessage} (he : entry ∈ queue.entries) :
      entry.seq < UInt64.size := (hbelow entry he).trans hbounded
  have hbound : ∀ w ∈ writes, seqOf w < UInt64.size := by
    intro w hw
    cases w with
    | store seq body =>
      obtain ⟨entry, he, rfl, -⟩ := hsec.stored seq body hw
      exact hent he
    | remove seq =>
      obtain ⟨⟨entry, he, rfl⟩, -⟩ := hsec.removed seq hw
      exact (hs.below entry he).trans hs.bounded
  refine ⟨hsorted, hbelow, hbounded, fun n hn => ?_, fun entry he => ?_, fun seq => ?_⟩
  · rcases mem_append.mp hn with hlate | hgone
    · exact hs.lateBounded n hlate
    · obtain ⟨entry, he, rfl⟩ := mem_map.mp hgone
      exact (hs.below entry (hsec.gone entry he)).trans hs.bounded
  · rcases hsec.kept entry he with hold | ⟨body, hbody, -⟩
    · exact hs.readable entry hold
    · rw [text, hbody]
      rfl
  have hrec : record texts clientId files (s.locked clientId queue writes gone) seq =
      (record texts clientId files s seq).run
        (queueOps texts (clientId, seq) (writes.map (event clientId))) :=
    record_append s _ _ _ seq
  -- by what the section writes under the number, which is one thing at most
  by_cases hwrite : ∃ w ∈ writes, seqOf w = seq.toNat
  · obtain ⟨w, hw, hseq⟩ := hwrite
    rw [queueOps_of_mem hsec.nodup hbound hw hseq.symm] at hrec
    cases w with
    | store n body =>
      obtain ⟨entry, he, hn, hbody⟩ := hsec.stored n body hw
      refine .inl ?_
      rw [hrec, content_of_mem hsorted he (hn.trans hseq), text, hbody]
      rfl
    | remove n =>
      have hnone : content texts clientId files (s.locked clientId queue writes gone) seq = none :=
        content_eq_none fun entry he heq => (hsec.removed n hw).2 entry he (heq.trans hseq.symm)
      have hless := hloss n hw
      rw [show UInt64.ofNat n = seq by rw [show n = seq.toNat from hseq, UInt64.ofNat_toNat]]
        at hless
      refine .inl ?_
      rw [hrec, hnone]
      exact effective_remove hless
  · have hnever : ∀ w ∈ writes, seqOf w ≠ seq.toNat := fun w hw heq => hwrite ⟨w, hw, heq⟩
    rw [queueOps_of_forall_ne hbound hnever] at hrec
    have hsame : (record texts clientId files (s.locked clientId queue writes gone) seq).effective =
        (record texts clientId files s seq).effective := congrArg Cell.effective hrec
    rw [hsame]
    by_cases hnew : ∃ entry ∈ queue.entries, entry.seq = seq.toNat
    · -- an entry that is not written is an old one
      obtain ⟨entry, he, hseq⟩ := hnew
      have hold : entry ∈ s.queue.entries := by
        rcases hsec.kept entry he with hold | ⟨body, -, hstore⟩
        · exact hold
        · exact absurd hseq (hnever _ hstore)
      exact .inl ((hs.effective_of_mem hold hseq).trans (content_of_mem hsorted he hseq).symm)
    · have hnone : content texts clientId files (s.locked clientId queue writes gone) seq = none :=
        content_eq_none fun entry he heq => hnew ⟨entry, he, heq⟩
      by_cases hpre : ∃ entry ∈ s.queue.entries, entry.seq = seq.toNat
      · obtain ⟨entry, he, hseq⟩ := hpre
        rcases hsec.left entry he with hkept | hgone | hremove
        · exact absurd ⟨entry, hkept, hseq⟩ hnew
        · refine .inr ⟨hnone, mem_append_right _ ?_⟩
          rw [← hseq]
          exact mem_map_of_mem hgone
        · exact absurd hseq (hnever _ hremove)
      · have hemp : content texts clientId files s seq = none :=
          content_eq_none fun entry he heq => hpre ⟨entry, he, heq⟩
        rcases hs.agree seq with heq | ⟨-, hlate⟩
        · exact .inl (by rw [heq, hemp, hnone])
        · exact .inr ⟨hnone, mem_append_left _ hlate⟩

/-- A removal after the lock that finds no entry with its number. -/
theorem remove {n : Nat} (hlate : n ∈ s.late) (hnone : ∀ entry ∈ s.queue.entries, entry.seq ≠ n)
    (hloss : lossless (record texts clientId files s (UInt64.ofNat n))) :
    Sound texts clientId files
      { s with
        late := s.late.erase n
        log := s.log ++ [.removeQueued clientId (UInt64.ofNat n)] } := by
  refine ⟨hs.sorted, hs.below, hs.bounded, fun m hm => hs.lateBounded m (mem_of_mem_erase hm),
    hs.readable, fun seq => ?_⟩
  have hctnt : content texts clientId files
      { s with
        late := s.late.erase n
        log := s.log ++ [.removeQueued clientId (UInt64.ofNat n)] } seq =
      content texts clientId files s seq := rfl
  rw [record_append s, hctnt, queueOps, filterMap_cons, Event.queueOp]
  by_cases hseq : seq = UInt64.ofNat n
  · subst hseq
    rw [if_pos rfl]
    have hemp : content texts clientId files s (UInt64.ofNat n) = none := by
      refine content_eq_none fun entry he => ?_
      rw [toNat_ofNat (hs.lateBounded n hlate)]
      exact hnone entry he
    refine .inl ?_
    rw [hemp]
    exact effective_remove hloss
  · rw [if_neg (fun h => hseq (Prod.mk.inj h).2)]
    rcases hs.agree seq with heq | ⟨hemp, hpend⟩
    · exact .inl heq
    · refine .inr ⟨hemp, (mem_erase_of_ne fun h => hseq ?_).mpr hpend⟩
      rw [← h, UInt64.ofNat_toNat]

theorem other {e : Event} (hforeign : isForeign clientId e) :
    Sound texts clientId files { s with log := s.log ++ [e] } := by
  refine ⟨hs.sorted, hs.below, hs.bounded, hs.lateBounded, hs.readable, fun seq => ?_⟩
  have hsame : (record texts clientId files { s with log := s.log ++ [e] } seq).effective =
      (record texts clientId files s seq).effective := by
    rw [record_append s]
    cases e with
    | storeQueued other n body | removeQueued other n =>
      have hne : ¬ (clientId, seq) = (other, n) := by
        rintro ⟨⟩
        simp [isForeign] at hforeign
      rw [queueOps, filterMap_cons, Event.queueOp, if_neg hne]
      rfl
    | takeBatch => rfl
    | storeInflight | removeInflight | clearInflight | writeOut => rfl
  rw [hsame]
  exact hs.agree seq

end

variable [Queueable QueuedMessage]

theorem push (hs : Sound texts clientId files s) (body : QueuedMessage)
    (hroom : s.queue.seq + 1 < UInt64.size) :
    Sound texts clientId files (s.push clientId body) := by
  obtain ⟨hsorted, hbelow⟩ := ordered_append hs.sorted hs.below body
  refine hs.locked (sectioned_append body (nodup_of_sorted hs.sorted) hs.below) hsorted hbelow
    hroom fun seq hremove => ?_
  exact absurd (mem_filter.mp hremove).2 (by simp [isStore])

theorem insertFront (hs : Sound texts clientId files s) {messages : List QueuedMessage}
    (hroom : messages.length ≤ base s.queue) (hloss : ∀ entry ∈ s.queue.entries,
      lossless (record texts clientId files s (UInt64.ofNat entry.seq))) :
    Sound texts clientId files (s.locked clientId (s.queue.insertFront messages).1
      (s.queue.insertFront messages).2.2 []) := by
  obtain ⟨hsorted, hbelow⟩ := ordered_insertFront hs.sorted hs.below hroom
  have hsec := sectioned_insertFront hs.sorted hroom
  refine hs.locked hsec hsorted hbelow hs.bounded fun seq hremove => ?_
  obtain ⟨⟨entry, he, rfl⟩, -⟩ := hsec.removed seq hremove
  exact hloss entry he

omit [Queueable QueuedMessage] in
theorem take (hs : Sound texts clientId files s) (now : SystemTime) (limit : Nat)
    (hloss : ∀ entry ∈ s.queue.entries,
      lossless (record texts clientId files s (UInt64.ofNat entry.seq))) :
    Sound texts clientId files (s.locked clientId
      ((s.queue.takeEntries now limit).2.1.markDraining (s.queue.takeEntries now limit).1)
      (s.queue.takeEntries now limit).2.2 (s.queue.takeEntries now limit).1) := by
  have hmark (q : ClientQueue QueuedMessage) (taken : Entries) :
      (q.markDraining taken).entries = q.entries ∧ (q.markDraining taken).seq = q.seq := by
    unfold markDraining
    split <;> exact ⟨rfl, rfl⟩
  have hsec := sectioned_take now limit (nodup_of_sorted hs.sorted)
  obtain ⟨-, -, -, hsub⟩ := takeLoop_spec now limit s.queue.entries
  obtain ⟨hents, hseq⟩ := hmark (s.queue.takeEntries now limit).2.1
    (s.queue.takeEntries now limit).1
  refine hs.locked ?_ ?_ ?_ ?_ ?_
  · rw [hents]
    exact hsec
  · rw [hents]
    exact hs.sorted.sublist hsub
  · rw [hents, hseq]
    exact fun entry he => hs.below entry (hsub.subset he)
  · rw [hseq]
    exact hs.bounded
  · intro seq hremove
    obtain ⟨⟨entry, he, rfl⟩, -⟩ := hsec.removed seq hremove
    exact hloss entry he

omit [Queueable QueuedMessage] in
theorem drop (hs : Sound texts clientId files s) {queue : ClientQueue QueuedMessage}
    (p : QueueEntry QueuedMessage → Bool)
    (hents : queue.entries = s.queue.entries.filter fun entry => !p entry)
    (hseq : queue.seq = s.queue.seq) :
    Sound texts clientId files (s.locked clientId queue [] (s.queue.entries.filter p)) := by
  have hsub : queue.entries.Sublist s.queue.entries := hents ▸ filter_sublist
  refine hs.locked ?_ (hs.sorted.sublist hsub) ?_ (hseq ▸ hs.bounded)
    fun seq h => absurd h not_mem_nil
  · rw [hents]
    exact sectioned_filter _ p
  · rw [hseq]
    exact fun entry he => hs.below entry (hsub.subset he)

theorem act {a : Action} {s' : State} (hs : Sound texts clientId files s)
    (htimely : timely texts clientId files s a)
    (hact : QueueRecords.act clientId s a = some s') : Sound texts clientId files s' := by
  cases a with
  | push body =>
    cases hact
    exact hs.push body (of_decide_eq_true htimely)
  | pushInEpoch body epoch =>
    simp only [QueueRecords.act] at hact
    split at hact <;> cases hact
    · exact hs.push body (of_decide_eq_true htimely)
    · exact hs
  | take now limit =>
    cases hact
    exact hs.take now limit (all_eq_true.mp htimely)
  | requeueFront messages =>
    obtain ⟨hroom, hloss⟩ := Bool.and_eq_true_iff.mp htimely
    simp only [QueueRecords.act] at hact
    split at hact <;> cases hact
    · exact hs
    · exact hs.insertFront (of_decide_eq_true hroom) (all_eq_true.mp hloss)
  | requeueFrontInEpoch messages epoch =>
    obtain ⟨hroom, hloss⟩ := Bool.and_eq_true_iff.mp htimely
    simp only [QueueRecords.act, requeueFrontInEpoch] at hact
    split at hact <;> cases hact
    · rw [State.locked_self]
      exact hs
    · split
      · rw [State.locked_self]
        exact hs
      · exact hs.insertFront (of_decide_eq_true hroom) (all_eq_true.mp hloss)
  | clear cutoff | purgeExpired now =>
    cases hact
    exact hs.drop _ rfl rfl
  | remove n =>
    obtain ⟨hnone, hloss⟩ := Bool.and_eq_true_iff.mp htimely
    obtain ⟨hlate, hact⟩ := Option.ite_none_right_eq_some.mp hact
    cases hact
    refine hs.remove hlate (fun entry he => ?_) hloss
    exact bne_iff_ne.mp (all_eq_true.mp hnone entry he)
  | other e =>
    obtain ⟨hforeign, hact⟩ := Option.ite_none_right_eq_some.mp hact
    cases hact
    exact hs.other hforeign
  | number =>
    cases hact
    exact ⟨hs.sorted, fun entry he => Nat.lt_succ_of_lt (hs.below entry he),
      of_decide_eq_true htimely, hs.lateBounded, hs.readable, hs.agree⟩

end Sound

/-- In a run whose removals are timely, once no operation is under way and a last batch is
written, the records on disk are those of the entries in memory. -/
theorem records_are_entries [Queueable QueuedMessage] {texts : Texts} {clientId : String}
    {files : Files} {s₀ s : State} {w : WriteBehind.State} (hopened : Opened clientId files s₀)
    (hrun : Reachable (act clientId) (fun s a => timely texts clientId files s a = true) s₀ s)
    (hidle : s.late = []) (hlane : Run texts (.opened files) (s.log ++ [.takeBatch, .writeOut]) w)
    (seq : UInt64) : w.files.queue (clientId, seq) = content texts clientId files s seq := by
  have hsound : Sound texts clientId files s :=
    hrun.invariant (.of_opened hopened) fun _ _ _ hs htimely hact => hs.act htimely hact
  have hfile : w.files.queue (clientId, seq) = (record texts clientId files s seq).effective := by
    rw [(files_of_run hlane).1, Cell.run_snoc]
    rfl
  rcases hsound.agree seq with heq | ⟨-, hlate⟩
  · exact hfile.trans heq
  · rw [hidle] at hlate
    exact absurd hlate not_mem_nil

/-! ## A message that is put back while an expired one is removed -/

/-- The lane takes any writes, and then a batch. -/
theorem exists_run (texts : Texts) (files : Files) (clientId : String)
    (writes : List (QueueWrite QueuedMessage)) :
    ∃ w, Run texts (.opened files) (writes.map (event clientId) ++ [.takeBatch, .writeOut]) w := by
  have hwrites : ∃ s : WriteBehind.State,
      Run texts (.opened files) (writes.map (event clientId)) s ∧
      s.taken = none := by
    induction writes using reverseRecOn with
    | nil => exact ⟨_, .nil, rfl⟩
    | append_singleton writes write ih =>
      obtain ⟨s, hrun, hfree⟩ := ih
      rw [map_append]
      cases write with
      | store seq body => exact ⟨_, hrun.snoc (.storeQueued s clientId _ body), hfree⟩
      | remove seq => exact ⟨_, hrun.snoc (.removeQueued s clientId _), hfree⟩
  obtain ⟨s, hrun, hfree⟩ := hwrites
  exact exists_batch hrun hfree

/-- The size of an entry with its message, in a build where the two records have 400 bytes. -/
instance queueableQueuedMessage : Queueable QueuedMessage where
  entryBytes m := 400 + m.topic.utf8ByteSize + m.payload.length + m.clientId.utf8ByteSize
  expiresAt := QueuedMessage.expiresAt
  recomputeExpiry := QueuedMessage.recomputeExpiry

def expiring : QueuedMessage where
  topic := "t"
  payload := [1]
  clientId := "c"
  qos := .atLeastOnce
  messageExpiryInterval := some 10
  expiresAt := some 10

def lasting : QueuedMessage where
  topic := "t"
  payload := [2]
  clientId := "c"
  qos := .atLeastOnce

/-- A serializer that tells the two apart. -/
def payloadTexts : Texts where
  queued m := m.payload
  inflight m := m.payload

def noFiles : Files := ⟨fun _ => none, fun _ => none⟩

/-- A message is taken and its record removed, and then it is put back under the same number. -/
theorem records_are_entries_requeued : ∃ (s : State) (w : WriteBehind.State),
    s.queue.entries.map (fun entry => (entry.seq, entry.body)) = [(seqFloor, some lasting)] ∧
    ∀ seq, w.files.queue ("c", seq) = content payloadTexts "c" noFiles s seq := by
  have hopened : Opened "c" noFiles {} := by
    refine ⟨rfl, rfl, .nil, fun _ h => absurd h not_mem_nil, by decide,
      fun _ h => absurd h not_mem_nil, fun seq => ⟨fun h => ?_, fun h => ?_⟩⟩
    · cases h
    · obtain ⟨_, h, -⟩ := h
      exact absurd h not_mem_nil
  have hrun := Reachable.follow_guarded .start (show follow
    (fun s a => if timely payloadTexts "c" noFiles s a = true then act "c" s a else none) {}
    [.push lasting, .take 0 1, .remove seqFloor, .requeueFront [lasting]] = some _ from rfl)
  obtain ⟨w, hlane⟩ := exists_run payloadTexts noFiles "c"
    [.store seqFloor lasting, .remove seqFloor, .store seqFloor lasting]
  exact ⟨_, w, rfl, records_are_entries hopened hrun rfl hlane⟩

/-- An expired message is purged.  Before its record is removed, another one is put back at the
front of the queue that is now empty and gets the same number; the removal hits its record. -/
theorem late_removal_hits_requeued : ∃ (s : State) (w : WriteBehind.State),
    follow (act "c") {} [.push expiring, .purgeExpired 11, .requeueFront [lasting],
      .remove seqFloor] =
      some s ∧ s.late = [] ∧
    Run payloadTexts (.opened noFiles) (s.log ++ [.takeBatch, .writeOut]) w ∧
    content payloadTexts "c" noFiles s (UInt64.ofNat seqFloor) = some [2] ∧
    w.files.queue ("c", UInt64.ofNat seqFloor) = none := by
  obtain ⟨w, hlane⟩ := exists_run payloadTexts noFiles "c"
    [.store seqFloor expiring, .store seqFloor lasting, .remove seqFloor]
  refine ⟨_, w, rfl, rfl, hlane, rfl, ?_⟩
  rw [(files_of_run hlane).1]
  rfl

end MqttLib.Storage.QueueRecords
