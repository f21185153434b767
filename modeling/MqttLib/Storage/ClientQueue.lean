/-
MqttLib.Storage.ClientQueue

The queue of one client (`broker/storage/client_queue.rs`), shared by the connections of
the client and by the routers: its entries with their sequence numbers and sizes, the
counters the routers read without the lock, and the epoch that fences off what was
addressed to a session that has been discarded since.

The operations are the sections under the queue's lock.  Each returns the new queue and
the calls it makes to the write-behind lane (`enqueue_write`, `enqueue_delete`).
-/

import Mathlib.Algebra.GroupWithZero.Nat
import MqttLib.Storage.Session

namespace MqttLib.Storage

/-- Sequence numbers start high so that a front re-queue has room below the oldest entry. -/
def seqFloor : Nat := 2 ^ 62

/-- Bounds on the queue; entries are shed when either is exceeded. -/
structure QueueLimits where
  maxMessages : Nat := 10000
  maxBytes : Nat := 64 * 1024 * 1024

/-- What the queue reads of a message: its size with that of the entry, and its expiry. -/
class Queueable (μ : Type*) where
  entryBytes : μ → Nat
  expiresAt : μ → Option SystemTime
  recomputeExpiry : μ → μ

/-- An entry; the body of one that was found on disk is still in its file. -/
structure QueueEntry (μ : Type*) where
  seq : Nat
  bytes : Nat
  expiresAt : Option SystemTime
  body : Option μ
  path : Option String

def expiredAt (now : SystemTime) (expiresAt : Option SystemTime) : Bool :=
  expiresAt.any fun expiry => now > expiry

def QueueEntry.isExpired {μ : Type*} (now : SystemTime) (entry : QueueEntry μ) : Bool :=
  expiredAt now entry.expiresAt

/-- A call to the write-behind lane. -/
inductive QueueWrite (μ : Type*) where
  | store (seq : Nat) (body : μ)
  | remove (seq : Nat)

/-- The queue with its atomics; `seq` is the counter it shares with the other queues, and
`awaitingBind` the generation that has registered and not yet bound, or 0. -/
structure ClientQueue (μ : Type*) where
  entries : List (QueueEntry μ) := []
  bytes : Nat := 0
  count : Nat := 0
  handoffs : Nat := 0
  draining : Bool := false
  epoch : Nat := 0
  awaitingBind : Nat := 0
  seq : Nat := seqFloor
  limits : QueueLimits := {}

namespace ClientQueue

variable {μ : Type*}

/-! ## Flags -/

def handoff (q : ClientQueue μ) : Bool := q.handoffs > 0

def beginHandoff (q : ClientQueue μ) : ClientQueue μ := { q with handoffs := q.handoffs + 1 }

def endHandoff (q : ClientQueue μ) : ClientQueue μ := { q with handoffs := q.handoffs - 1 }

def finishDrain (q : ClientQueue μ) : ClientQueue μ := { q with draining := false }

def expectBind (q : ClientQueue μ) (generation : Nat) : ClientQueue μ :=
  { q with awaitingBind := generation }

def markBound (q : ClientQueue μ) (generation : Nat) : ClientQueue μ :=
  if q.awaitingBind = generation then { q with awaitingBind := 0 } else q

/-! ## Limits -/

/-- Sheds from the front of a list of entries with this total until the limits hold. -/
def shed (limits : QueueLimits) : List (QueueEntry μ) → Nat →
    List (QueueEntry μ) × List (QueueEntry μ)
  | [], _ => ([], [])
  | entry :: entries, bytes =>
    if entries.length + 1 > limits.maxMessages ||
        (bytes > limits.maxBytes && entries.length + 1 > 1) then
      let (evicted, kept) := shed limits entries (bytes - entry.bytes)
      (entry :: evicted, kept)
    else ([], entry :: entries)

/-- `enforce_limits_dir`: what is shed, and the queue without it.  `keepFront` sheds the
newest entries instead of the oldest. -/
def enforceLimits (q : ClientQueue μ) (keepFront : Bool) : List (QueueEntry μ) × ClientQueue μ :=
  let (evicted, kept) := shed q.limits (if keepFront then q.entries.reverse else q.entries) q.bytes
  (evicted,
    { q with
      entries := if keepFront then kept.reverse else kept
      bytes := q.bytes - (evicted.map QueueEntry.bytes).sum })

/-- `count` is stored at the end of every change. -/
def publishCount (q : ClientQueue μ) : ClientQueue μ := { q with count := q.entries.length }

/-! ## Changes -/

section

variable [Queueable μ]

def newEntry (seq : Nat) (body : μ) : QueueEntry μ :=
  { seq
    bytes := Queueable.entryBytes body
    expiresAt := Queueable.expiresAt body
    body := some body
    path := none }

/-- `append`: the new entry goes to the back, and the oldest entries are shed. -/
def append (q : ClientQueue μ) (body : μ) :
    ClientQueue μ × List (QueueEntry μ) × List (QueueWrite μ) :=
  let entry := newEntry q.seq body
  let pushed :=
    { q with
      seq := q.seq + 1
      bytes := q.bytes + entry.bytes
      entries := q.entries ++ [entry] }
  let (evicted, kept) := pushed.enforceLimits false
  let shedItself := evicted.any fun old => old.seq == q.seq
  (kept.publishCount, evicted,
    (if shedItself then [] else [.store q.seq body]) ++
      (evicted.filter fun old => old.seq != q.seq).map fun old => .remove old.seq)

/-- `push_in_epoch`: rejected if the queue has been cleared since. -/
def pushInEpoch (q : ClientQueue μ) (body : μ) (epoch : Nat) :
    Option (ClientQueue μ × List (QueueEntry μ) × List (QueueWrite μ)) :=
  if q.epoch ≠ epoch then none else some (q.append body)

/-- Entries with consecutive sequence numbers from `first` on. -/
def numbered (first : Nat) : List μ → List (QueueEntry μ)
  | [] => []
  | body :: bodies => newEntry first body :: numbered (first + 1) bodies

/-- `insert_front`: the messages go to the front, and the newest entries are shed. -/
def insertFront (q : ClientQueue μ) (messages : List μ) :
    ClientQueue μ × List (QueueEntry μ) × List (QueueWrite μ) :=
  let base := (q.entries.head?.map QueueEntry.seq).getD q.seq
  let entries := numbered (base - messages.length) messages
  let inserted :=
    { q with
      bytes := q.bytes + (entries.map QueueEntry.bytes).sum
      entries := entries ++ q.entries }
  let (evicted, kept) := inserted.enforceLimits true
  let isShed (entry : QueueEntry μ) : Bool := evicted.any fun old => old.seq == entry.seq
  let isNew (old : QueueEntry μ) : Bool := entries.any fun entry => entry.seq == old.seq
  (kept.publishCount, evicted,
    ((evicted.filter fun old => !isNew old).map fun old => .remove old.seq) ++
      ((entries.zip messages).filter fun e => !isShed e.1).map fun e => .store e.1.seq e.2)

/-- `requeue_front_in_epoch`: nothing happens if the queue has been cleared since. -/
def requeueFrontInEpoch (q : ClientQueue μ) (messages : List μ) (epoch : Nat) :
    ClientQueue μ × List (QueueEntry μ) × List (QueueWrite μ) :=
  if messages.isEmpty then (q, [], [])
  else if q.epoch ≠ epoch then (q, [], [])
  else q.insertFront messages

end

/-- `clear`: every entry, or those below the cutoff; a full clear begins a new epoch. -/
def clear (q : ClientQueue μ) (cutoff : Option Nat) : ClientQueue μ × List (QueueWrite μ) :=
  let drops (entry : QueueEntry μ) : Bool := cutoff.all fun cutoff => entry.seq < cutoff
  let kept := q.entries.filter fun entry => !drops entry
  (publishCount
    { q with
      entries := kept
      bytes := (kept.map QueueEntry.bytes).sum
      epoch := if cutoff.isNone then q.epoch + 1 else q.epoch },
    (q.entries.filter drops).map fun entry => .remove entry.seq)

/-- The loop of `take`: the live entries taken, the expired ones, and the rest. -/
def takeLoop (now : SystemTime) : Nat → List (QueueEntry μ) →
    List (QueueEntry μ) × List (QueueEntry μ) × List (QueueEntry μ)
  | _, [] => ([], [], [])
  | 0, entry :: entries => ([], [], entry :: entries)
  | limit + 1, entry :: entries =>
    if entry.isExpired now then
      let (taken, expired, rest) := takeLoop now (limit + 1) entries
      (taken, entry :: expired, rest)
    else
      let (taken, expired, rest) := takeLoop now limit entries
      (entry :: taken, expired, rest)

/-- The locked section of `take` up to the store of the count. -/
def takeEntries (q : ClientQueue μ) (now : SystemTime) (limit : Nat) :
    List (QueueEntry μ) × ClientQueue μ × List (QueueWrite μ) :=
  let (taken, expired, rest) := takeLoop now limit q.entries
  (taken,
    publishCount
      { q with
        entries := rest
        bytes := q.bytes - (taken.map QueueEntry.bytes).sum - (expired.map QueueEntry.bytes).sum },
    expired.map fun entry => .remove entry.seq)

/-- The end of the locked section of `take`: something is being delivered. -/
def markDraining (q : ClientQueue μ) (taken : List (QueueEntry μ)) : ClientQueue μ :=
  if taken.isEmpty then q else { q with draining := true }

/-- The message of a taken entry, if it can be read and is not expired. -/
def readEntry [Queueable μ] (read : String → Option μ) (now : SystemTime)
    (entry : QueueEntry μ) : Option μ :=
  ((entry.body <|> entry.path.bind read).map Queueable.recomputeExpiry).filter fun message =>
    !expiredAt now (Queueable.expiresAt message)

/-- The end of `take`: where everything taken turned out to be expired or unreadable, the
client is not left marked as draining. -/
def settleTake (q : ClientQueue μ) (messages : List μ) : ClientQueue μ :=
  if messages.isEmpty then { q with draining := false } else q

/-! ## What the limits shed -/

theorem shed_append (limits : QueueLimits) (entries : List (QueueEntry μ)) (bytes : Nat) :
    (shed limits entries bytes).1 ++ (shed limits entries bytes).2 = entries := by
  induction entries generalizing bytes with
  | nil => rfl
  | cons entry entries ih =>
    unfold shed
    split
    · show entry :: ((shed limits entries (bytes - entry.bytes)).1 ++
        (shed limits entries (bytes - entry.bytes)).2) = entry :: entries
      rw [ih]
    · rfl

variable {q : ClientQueue μ} {entry : QueueEntry μ} {now : SystemTime}

/-- An entry is kept or shed. -/
theorem mem_enforceLimits (keepFront : Bool) (h : entry ∈ q.entries) :
    entry ∈ (q.enforceLimits keepFront).2.entries ∨ entry ∈ (q.enforceLimits keepFront).1 := by
  have hsplit := shed_append q.limits (if keepFront then q.entries.reverse else q.entries) q.bytes
  have hmem : entry ∈ (if keepFront then q.entries.reverse else q.entries) := by
    cases keepFront <;> simpa using h
  rw [← hsplit, List.mem_append] at hmem
  rcases hmem with hevicted | hkept
  · exact .inr hevicted
  · refine .inl ?_
    show entry ∈ if keepFront = true then _ else _
    cases keepFront <;> simpa using hkept

theorem mem_requeueFrontInEpoch [Queueable μ] (messages : List μ) (epoch : Nat)
    (h : entry ∈ q.entries) :
    entry ∈ (q.requeueFrontInEpoch messages epoch).1.entries ∨
      entry ∈ (q.requeueFrontInEpoch messages epoch).2.1 := by
  unfold requeueFrontInEpoch
  split
  · exact .inl h
  split
  · exact .inl h
  · exact mem_enforceLimits true (List.mem_append_right _ h)

/-! ## The messages in the queue -/

/-- The messages of the entries whose body is in memory. -/
def messages (q : ClientQueue μ) : List μ := q.entries.filterMap QueueEntry.body

/-- If nothing is shed, the entries stay. -/
theorem entries_enforceLimits {keepFront : Bool} (hkept : (q.enforceLimits keepFront).1 = []) :
    (q.enforceLimits keepFront).2.entries = q.entries := by
  have hsplit := shed_append q.limits (if keepFront then q.entries.reverse else q.entries) q.bytes
  have hnone : (shed q.limits (if keepFront then q.entries.reverse else q.entries) q.bytes).1 =
      [] :=
    hkept
  rw [hnone, List.nil_append] at hsplit
  show (if keepFront then (shed _ _ _).2.reverse else (shed _ _ _).2) = q.entries
  rw [hsplit]
  cases keepFront <;> simp

/-- The limits hold with these messages in the queue; a single message may be of any size. -/
def HasRoom [Queueable μ] (q : ClientQueue μ) (messages : List μ) : Prop :=
  messages.length + q.entries.length ≤ q.limits.maxMessages ∧
    (q.bytes + (messages.map Queueable.entryBytes).sum ≤ q.limits.maxBytes ∨
      messages.length + q.entries.length ≤ 1)

instance [Queueable μ] (q : ClientQueue μ) (messages : List μ) : Decidable (q.HasRoom messages) :=
  inferInstanceAs (Decidable (_ ∧ _))

theorem shed_fst_eq_nil_iff {limits : QueueLimits} {entries : List (QueueEntry μ)} {bytes : Nat} :
    (shed limits entries bytes).1 = [] ↔ entries.length ≤ limits.maxMessages ∧
      (bytes ≤ limits.maxBytes ∨ entries.length ≤ 1) := by
  cases entries with
  | nil => simp [shed]
  | cons entry entries =>
    simp only [shed, List.length_cons]
    split
    · rename_i hover
      simp only [Bool.or_eq_true, Bool.and_eq_true, decide_eq_true_eq] at hover
      exact iff_of_false (List.cons_ne_nil _ _) (by omega)
    · rename_i hwithin
      simp only [Bool.or_eq_true, Bool.and_eq_true, decide_eq_true_eq] at hwithin
      exact iff_of_true rfl (by omega)

theorem map_bytes_numbered [Queueable μ] (first : Nat) (bodies : List μ) :
    (numbered first bodies).map QueueEntry.bytes = bodies.map Queueable.entryBytes := by
  induction bodies generalizing first with
  | nil => rfl
  | cons body _ ih => exact congrArg (Queueable.entryBytes body :: ·) (ih _)

theorem length_numbered [Queueable μ] (first : Nat) (bodies : List μ) :
    (numbered first bodies).length = bodies.length := by
  simpa using congrArg List.length (map_bytes_numbered first bodies)

theorem append_sheds_none_iff [Queueable μ] {body : μ} :
    (q.append body).2.1 = [] ↔ q.HasRoom [body] := by
  refine shed_fst_eq_nil_iff.trans ?_
  unfold HasRoom
  simp [newEntry, Nat.add_comm]

theorem insertFront_sheds_none_iff [Queueable μ] {messages : List μ} :
    (q.insertFront messages).2.1 = [] ↔ q.HasRoom messages := by
  refine shed_fst_eq_nil_iff.trans ?_
  unfold HasRoom
  simp [map_bytes_numbered, length_numbered, Nat.add_comm q.entries.length]

theorem messages_append [Queueable μ] {body : μ} (hroom : q.HasRoom [body]) :
    (q.append body).1.messages = q.messages ++ [body] := by
  have hents : (q.append body).1.entries = q.entries ++ [newEntry q.seq body] :=
    entries_enforceLimits (append_sheds_none_iff.mpr hroom)
  unfold messages
  rw [hents, List.filterMap_append]
  rfl

theorem filterMap_body_numbered [Queueable μ] (first : Nat) (bodies : List μ) :
    (numbered first bodies).filterMap QueueEntry.body = bodies := by
  induction bodies generalizing first with
  | nil => rfl
  | cons body bodies ih =>
    show body :: (numbered (first + 1) bodies).filterMap QueueEntry.body = _
    rw [ih]

/-- What is put back stands at the front, in order. -/
theorem messages_requeueFrontInEpoch [Queueable μ] {bodies : List μ} {epoch : Nat}
    (hepoch : q.epoch = epoch) (hroom : bodies = [] ∨ q.HasRoom bodies) :
    (q.requeueFrontInEpoch bodies epoch).1.messages = bodies ++ q.messages := by
  unfold requeueFrontInEpoch
  by_cases hemp : bodies = []
  · subst hemp
    rfl
  · rw [if_neg (by simpa using hemp), if_neg (by simpa using hepoch)]
    have hents : (q.insertFront bodies).1.entries =
        numbered ((q.entries.head?.map QueueEntry.seq).getD q.seq - bodies.length) bodies ++
          q.entries :=
      entries_enforceLimits (insertFront_sheds_none_iff.mpr (hroom.resolve_left hemp))
    unfold messages
    rw [hents, List.filterMap_append, filterMap_body_numbered]

/-- Where nothing has expired, a batch is taken from the front. -/
theorem takeLoop_of_live (limit : Nat) {entries : List (QueueEntry μ)}
    (hlive : ∀ entry ∈ entries, entry.isExpired now = false) :
    takeLoop now limit entries = (entries.take limit, [], entries.drop limit) := by
  induction entries generalizing limit with
  | nil => cases limit <;> rfl
  | cons entry entries ih =>
    cases limit with
    | zero => rfl
    | succ limit =>
      have hrest := ih limit fun entry' hmem => hlive entry' (List.mem_cons_of_mem entry hmem)
      unfold takeLoop
      rw [hlive entry List.mem_cons_self, hrest]
      rfl

/-- A batch is of the first entries that have not expired; those before them that have are dropped,
and the rest is left in its order. -/
theorem takeLoop_spec (now : SystemTime) (limit : Nat) (entries : List (QueueEntry μ)) :
    (takeLoop now limit entries).1 =
      (entries.filter fun entry => !entry.isExpired now).take limit ∧
    (∀ entry ∈ (takeLoop now limit entries).2.1, entry.isExpired now) ∧
    ((takeLoop now limit entries).1 ++ (takeLoop now limit entries).2.1 ++
      (takeLoop now limit entries).2.2).Perm entries ∧
    (takeLoop now limit entries).2.2.Sublist entries := by
  fun_induction takeLoop now limit entries with
  | case1 => exact ⟨by simp, by simp, .refl _, .refl _⟩
  | case2 => exact ⟨rfl, by simp, .refl _, .refl _⟩
  | case3 limit entry entries hexpd taken expired rest hloop ih =>
    rw [hloop] at ih
    obtain ⟨htaken, hdropped, hperm, hsublist⟩ := ih
    refine ⟨?_, List.forall_mem_cons.mpr ⟨hexpd, hdropped⟩, ?_, hsublist.cons _⟩
    · rw [List.filter_cons_of_neg (by simp [hexpd])]
      exact htaken
    · have hmiddle : (taken ++ entry :: expired).Perm (entry :: (taken ++ expired)) :=
        List.perm_middle
      exact (hmiddle.append_right rest).trans (hperm.cons entry)
  | case4 limit entry entries hexpd taken expired rest hloop ih =>
    rw [hloop] at ih
    obtain ⟨htaken, hdropped, hperm, hsublist⟩ := ih
    refine ⟨?_, hdropped, hperm.cons entry, hsublist.cons _⟩
    rw [List.filter_cons_of_pos (by simpa using hexpd), List.take_succ_cons, ← htaken]

theorem readEntry_eq_some [Queueable μ] {message : μ}
    (hread : readEntry (fun _ => none) now entry = some message) :
    ∃ body, entry.body = some body ∧ message = Queueable.recomputeExpiry body := by
  obtain ⟨hmap, -⟩ := Option.filter_eq_some_iff.mp hread
  obtain ⟨body, hbody, rfl⟩ := Option.map_eq_some_iff.mp hmap
  refine ⟨body, ?_, rfl⟩
  cases hent : entry.body with
  | none =>
    rw [hent] at hbody
    cases hpath : entry.path <;> simp [hpath] at hbody
  | some _ =>
    rw [hent] at hbody
    exact hbody

/-! ## Epochs and flags under the changes -/

@[simp] theorem epoch_append [Queueable μ] (q : ClientQueue μ) (body : μ) :
    (q.append body).1.epoch = q.epoch := rfl

@[simp] theorem epoch_insertFront [Queueable μ] (q : ClientQueue μ) (messages : List μ) :
    (q.insertFront messages).1.epoch = q.epoch := rfl

@[simp] theorem epoch_requeueFrontInEpoch [Queueable μ] (q : ClientQueue μ) (messages : List μ)
    (epoch : Nat) : (q.requeueFrontInEpoch messages epoch).1.epoch = q.epoch := by
  unfold requeueFrontInEpoch
  split
  · rfl
  split
  · rfl
  · exact epoch_insertFront q messages

@[simp] theorem handoffs_append [Queueable μ] (q : ClientQueue μ) (body : μ) :
    (q.append body).1.handoffs = q.handoffs := rfl

@[simp] theorem handoffs_requeueFrontInEpoch [Queueable μ] (q : ClientQueue μ)
    (messages : List μ) (epoch : Nat) :
    (q.requeueFrontInEpoch messages epoch).1.handoffs = q.handoffs := by
  unfold requeueFrontInEpoch
  split
  · rfl
  split
  · rfl
  · rfl

@[simp] theorem handoffs_markBound (q : ClientQueue μ) (generation : Nat) :
    (q.markBound generation).handoffs = q.handoffs := by
  unfold markBound
  split <;> rfl

@[simp] theorem epoch_markBound (q : ClientQueue μ) (generation : Nat) :
    (q.markBound generation).epoch = q.epoch := by
  unfold markBound
  split <;> rfl

@[simp] theorem entries_markBound (q : ClientQueue μ) (generation : Nat) :
    (q.markBound generation).entries = q.entries := by
  unfold markBound
  split <;> rfl

end ClientQueue

end MqttLib.Storage
