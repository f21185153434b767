/-
MqttLib.Storage.WriteBehind

The write-behind buffer of the file backend (`storage/write_behind.rs`) and the
task that writes its batches out (`run_queue_writer`, `write_out` of
`storage/file_backend.rs`).  Both halves of the buffer start with an empty set of
keys believed on disk, whatever files are there when the backend is opened.

A file is known by its key: client ids are single path components (they are checked
at CONNECT), so files of different keys are different files.  Every file operation
succeeds here.
-/

import MqttLib.Foundation.WriteBack
import MqttLib.Storage.Messages

namespace MqttLib.Storage.WriteBehind

open Foundation Protocol List Function

abbrev QueueKey := String × UInt64

abbrev InflightKey := String × UInt16 × InflightDirection

/-! ## The buffer -/

/-- `Pending`: `queue` with `queue_on_disk`, `inflight` with `inflight_on_disk`, and the
clients whose inflight directory is to be removed first. -/
structure Pending where
  queue : Buffer QueueKey QueuedMessage := {}
  inflight : Buffer InflightKey InflightMessage := {}
  clearedInflight : List String := []

structure WriteBatch where
  clearedInflight : List String
  queue : Table QueueKey (Option QueuedMessage)
  inflight : Table InflightKey (Option InflightMessage)

namespace Pending

def storeQueued (p : Pending) (clientId : String) (seq : UInt64) (body : QueuedMessage) : Pending :=
  { p with queue := p.queue.store (clientId, seq) body }

def removeQueued (p : Pending) (clientId : String) (seq : UInt64) : Pending :=
  { p with queue := p.queue.remove (clientId, seq) }

def storeInflight (p : Pending) (message : InflightMessage) : Pending :=
  { p with
    inflight := p.inflight.store (message.clientId, message.packetId, message.direction) message }

def removeInflight (p : Pending) (clientId : String) (packetId : UInt16)
    (direction : InflightDirection) : Pending :=
  { p with inflight := p.inflight.remove (clientId, packetId, direction) }

def clearInflight (p : Pending) (clientId : String) : Pending :=
  { p with
    inflight := p.inflight.retain fun key => key.1 != clientId
    clearedInflight := p.clearedInflight ++ [clientId] }

/-- What `take_batch` hands out. -/
def batch (p : Pending) : WriteBatch := ⟨p.clearedInflight, p.queue.entries, p.inflight.entries⟩

/-- What `take_batch` leaves, with the orders in which its loops meet the entries. -/
def takeBatch (p : Pending) (queueOrder : List (QueueKey × Option QueuedMessage))
    (inflightOrder : List (InflightKey × Option InflightMessage)) : Pending where
  queue := p.queue.taken queueOrder
  inflight := p.inflight.taken inflightOrder
  clearedInflight := []

end Pending

/-! ## The files -/

/-- The files under the queue and the inflight directory. -/
@[ext]
structure Files where
  queue : QueueKey → Option Bytes
  inflight : InflightKey → Option Bytes

/-- `serde_json::to_vec_pretty` for the two kinds of records. -/
structure Texts where
  queued : QueuedMessage → Bytes
  inflight : InflightMessage → Bytes

/-- The first loop of `write_out`. -/
def removeDirs (cleared : List String) (files : InflightKey → Option Bytes) :
    InflightKey → Option Bytes :=
  cleared.foldl (fun files clientId key => if key.1 = clientId then none else files key) files

/-- `write_out`, with the orders in which its loops meet the entries. -/
def writeOut (texts : Texts) (cleared : List String)
    (queueOrder : List (QueueKey × Option QueuedMessage))
    (inflightOrder : List (InflightKey × Option InflightMessage)) (files : Files) : Files where
  queue := applyWrites files.queue (queueOrder.map fun e => (e.1, e.2.map texts.queued))
  inflight := applyWrites (removeDirs cleared files.inflight)
    (inflightOrder.map fun e => (e.1, e.2.map texts.inflight))

/-! ## Runs -/

inductive Event where
  | storeQueued (clientId : String) (seq : UInt64) (body : QueuedMessage)
  | removeQueued (clientId : String) (seq : UInt64)
  | storeInflight (message : InflightMessage)
  | removeInflight (clientId : String) (packetId : UInt16) (direction : InflightDirection)
  | clearInflight (clientId : String)
  | takeBatch
  | writeOut

/-- The buffer, the batch the writer task is writing out, and the files. -/
structure State where
  pending : Pending
  taken : Option WriteBatch
  files : Files

/-- The backend just opened on these files. -/
def State.opened (files : Files) : State := ⟨{}, none, files⟩

/-- One step; the writer takes its next batch when it has written the last one. -/
inductive Step (texts : Texts) : State → Event → State → Prop where
  | storeQueued (s clientId seq body) : Step texts s (.storeQueued clientId seq body)
      { s with pending := s.pending.storeQueued clientId seq body }
  | removeQueued (s clientId seq) : Step texts s (.removeQueued clientId seq)
      { s with pending := s.pending.removeQueued clientId seq }
  | storeInflight (s message) : Step texts s (.storeInflight message)
      { s with pending := s.pending.storeInflight message }
  | removeInflight (s clientId packetId direction) :
      Step texts s (.removeInflight clientId packetId direction)
        { s with pending := s.pending.removeInflight clientId packetId direction }
  | clearInflight (s clientId) : Step texts s (.clearInflight clientId)
      { s with pending := s.pending.clearInflight clientId }
  | takeBatch (s queueOrder inflightOrder) (hfree : s.taken = none)
      (hqueue : s.pending.queue.entries.Lists queueOrder)
      (hinflight : s.pending.inflight.entries.Lists inflightOrder) :
      Step texts s .takeBatch
        { s with
          pending := s.pending.takeBatch queueOrder inflightOrder
          taken := some s.pending.batch }
  | writeOut (s batch queueOrder inflightOrder) (htaken : s.taken = some batch)
      (hqueue : batch.queue.Lists queueOrder) (hinflight : batch.inflight.Lists inflightOrder) :
      Step texts s .writeOut
        { s with
          taken := none
          files := writeOut texts batch.clearedInflight queueOrder inflightOrder s.files }

/-- The events in order lead from one state to another. -/
inductive Run (texts : Texts) (s₀ : State) : List Event → State → Prop where
  | nil : Run texts s₀ [] s₀
  | snoc {es s e s'} (hrun : Run texts s₀ es s) (hstep : Step texts s e s') :
      Run texts s₀ (es ++ [e]) s'

/-- What the files should be: each operation applied directly, in order. -/
def Files.applied (texts : Texts) (files : Files) : Event → Files
  | .storeQueued clientId seq body =>
    { files with
      queue := update files.queue (clientId, seq) (some (texts.queued body)) }
  | .removeQueued clientId seq =>
    { files with queue := update files.queue (clientId, seq) none }
  | .storeInflight message =>
    { files with
      inflight := update files.inflight
        (message.clientId, message.packetId, message.direction) (some (texts.inflight message)) }
  | .removeInflight clientId packetId direction =>
    { files with inflight := update files.inflight (clientId, packetId, direction) none }
  | .clearInflight clientId =>
    { files with inflight := fun key => if key.1 = clientId then none else files.inflight key }
  | .takeBatch => files
  | .writeOut => files

/-- What an event is to the file of a queued message. -/
def Event.queueOp (texts : Texts) (key : QueueKey) : Event → Option (CellOp Bytes)
  | .storeQueued clientId seq body =>
    if key = (clientId, seq) then some (.store (texts.queued body)) else none
  | .removeQueued clientId seq => if key = (clientId, seq) then some .remove else none
  | .takeBatch => some .take
  | _ => none

/-- What an event is to the file of a message in flight. -/
def Event.inflightOp (texts : Texts) (key : InflightKey) : Event → Option (CellOp Bytes)
  | .storeInflight message =>
    if key = (message.clientId, message.packetId, message.direction) then
      some (.store (texts.inflight message)) else none
  | .removeInflight clientId packetId direction =>
    if key = (clientId, packetId, direction) then some .remove else none
  | .clearInflight clientId => if key.1 = clientId then some .clear else none
  | .takeBatch => some .take
  | _ => none

/-! ## Each file is a cell -/

section

variable (texts : Texts)

/-- The file once the batch being written is out. -/
def settledQueue (s : State) (key : QueueKey) : Option Bytes :=
  match s.taken with
  | none => s.files.queue key
  | some batch =>
    ((batch.queue.lookup key).map fun entry => entry.map texts.queued).getD (s.files.queue key)

def settledInflight (s : State) (key : InflightKey) : Option Bytes :=
  match s.taken with
  | none => s.files.inflight key
  | some batch =>
    ((batch.inflight.lookup key).map fun entry => entry.map texts.inflight).getD
      (if key.1 ∈ batch.clearedInflight then none else s.files.inflight key)

def queueCell (s : State) (key : QueueKey) : Cell Bytes :=
  s.pending.queue.cell texts.queued false (settledQueue texts s key) key

def inflightCell (s : State) (key : InflightKey) : Cell Bytes :=
  s.pending.inflight.cell texts.inflight (decide (key.1 ∈ s.pending.clearedInflight))
    (settledInflight texts s key) key

theorem removeDirs_apply (cleared : List String) (files : InflightKey → Option Bytes)
    (key : InflightKey) :
    removeDirs cleared files key = if key.1 ∈ cleared then none else files key := by
  induction cleared generalizing files with
  | nil => rfl
  | cons clientId cleared ih =>
    rw [removeDirs, foldl_cons, ← removeDirs, ih]
    by_cases hrest : key.1 ∈ cleared
    · simp [hrest]
    · by_cases hid : key.1 = clientId
      · simp [hid]
      · simp [hid, hrest]

variable {texts} {s s' : State}

variable {e : Event} {files : Files} {es : List Event} {op : Event → Option (CellOp Bytes)}

/-- One step is one step of the automaton for each queued message. -/
theorem queueCell_step (h : Step texts s e s') (key : QueueKey) :
    queueCell texts s' key = (e.queueOp texts key).elim (queueCell texts s key)
      (queueCell texts s key).step := by
  cases h with
  | storeQueued clientId seq body => exact Buffer.cell_store _ _ _ _ (clientId, seq) key body
  | removeQueued clientId seq => exact Buffer.cell_remove _ _ _ _ (clientId, seq) key
  | storeInflight message | removeInflight clientId packetId direction
  | clearInflight clientId => rfl
  | takeBatch queueOrder inflightOrder hfree hqueue hinfl =>
    have hsettl : settledQueue texts s key = s.files.queue key := by
      rw [settledQueue, hfree]
    have htaken := Buffer.cell_taken texts.queued s.pending.queue false
      (s.files.queue key) hqueue key
    rw [Event.queueOp, queueCell, queueCell, hsettl]
    exact htaken
  | writeOut batch queueOrder inflightOrder htaken hqueue hinfl =>
    have hsettl : settledQueue texts
        { s with
          taken := none
          files := writeOut texts batch.clearedInflight queueOrder inflightOrder s.files } key =
        settledQueue texts s key := by
      rw [settledQueue, settledQueue, htaken]
      exact Buffer.applyWrites_map_lists texts.queued hqueue s.files.queue key
    show queueCell texts _ key = queueCell texts s key
    rw [queueCell, queueCell, hsettl]

/-- One step is one step of the automaton for each message in flight. -/
theorem inflightCell_step (h : Step texts s e s') (key : InflightKey) :
    inflightCell texts s' key = (e.inflightOp texts key).elim (inflightCell texts s key)
      (inflightCell texts s key).step := by
  cases h with
  | storeQueued clientId seq body | removeQueued clientId seq => rfl
  | storeInflight message =>
    exact Buffer.cell_store _ _ _ _ (message.clientId, message.packetId, message.direction) key _
  | removeInflight clientId packetId direction =>
    exact Buffer.cell_remove _ _ _ _ (clientId, packetId, direction) key
  | clearInflight clientId =>
    have hretain := Buffer.cell_retain texts.inflight s.pending.inflight
      (decide (key.1 ∈ s.pending.clearedInflight)) (settledInflight texts s key)
      (fun key => key.1 != clientId) key
    have hclr : decide (key.1 ∈ s.pending.clearedInflight ++ [clientId]) =
        (decide (key.1 ∈ s.pending.clearedInflight) || !(key.1 != clientId)) := by
      by_cases hid : key.1 = clientId <;> simp [hid]
    rw [Event.inflightOp]
    show (s.pending.inflight.retain _).cell texts.inflight
      (decide (key.1 ∈ s.pending.clearedInflight ++ [clientId])) (settledInflight texts s key)
        key = _
    rw [hclr, hretain]
    by_cases hid : key.1 = clientId
    · simp only [hid, bne_self_eq_false, Bool.false_eq_true, if_false, if_true]
      rfl
    · simp only [bne_iff_ne, ne_eq, hid, not_false_eq_true, if_true, if_false]
      rfl
  | takeBatch queueOrder inflightOrder hfree hqueue hinfl =>
    have hsettl : settledInflight texts s key = s.files.inflight key := by
      rw [settledInflight, hfree]
    have htaken := Buffer.cell_taken texts.inflight s.pending.inflight
      (decide (key.1 ∈ s.pending.clearedInflight)) (s.files.inflight key) hinfl key
    rw [Event.inflightOp, inflightCell, inflightCell, hsettl]
    refine Eq.trans ?_ htaken
    show (s.pending.inflight.taken inflightOrder).cell texts.inflight
      (decide (key.1 ∈ ([] : List String))) _ key = _
    by_cases hid : key.1 ∈ s.pending.clearedInflight <;>
      simp [settledInflight, Pending.batch, Cell.effective, Buffer.cell, hid]
  | writeOut batch queueOrder inflightOrder htaken hqueue hinfl =>
    have hsettl : settledInflight texts
        { s with
          taken := none
          files := writeOut texts batch.clearedInflight queueOrder inflightOrder s.files } key =
        settledInflight texts s key := by
      rw [settledInflight, settledInflight, htaken]
      show applyWrites _ _ key = _
      rw [Buffer.applyWrites_map_lists texts.inflight hinfl, removeDirs_apply]
    show inflightCell texts _ key = inflightCell texts s key
    rw [inflightCell, inflightCell, hsettl]

/-! ## Whole runs -/

/-- The operations on one queued message, with the ends of batches. -/
def queueOps (texts : Texts) (key : QueueKey) (es : List Event) : List (CellOp Bytes) :=
  es.filterMap fun e => e.queueOp texts key

/-- The operations on one message in flight, with the ends of batches. -/
def inflightOps (texts : Texts) (key : InflightKey) (es : List Event) : List (CellOp Bytes) :=
  es.filterMap fun e => e.inflightOp texts key

/-- A cell that every step changes as one operation is changed by a run as all of them are. -/
theorem Run.cell {cell : State → Cell Bytes} {s₀ : State}
    (hcell : ∀ s e s', Step texts s e s' → cell s' = (op e).elim (cell s) (cell s).step)
    (h : Run texts s₀ es s) : cell s = (cell s₀).run (es.filterMap op) := by
  induction h with
  | nil => rfl
  | @snoc es s e s' _ hstep ih =>
    rw [hcell s e s' hstep, ih, filterMap_append, Cell.run, Cell.run, foldl_append]
    cases hop : op e <;> simp [hop]

/-- The files with every operation applied directly, in order. -/
def applied (texts : Texts) (files : Files) (es : List Event) : Files :=
  es.foldl (Files.applied texts) files

theorem Files.applied_queue (files : Files) (e : Event) (key : QueueKey) :
    (files.applied texts e).queue key =
      (e.queueOp texts key).elim (files.queue key) fun op => op.applied (files.queue key) := by
  cases e with
  | storeQueued clientId seq body | removeQueued clientId seq =>
    by_cases hkey : key = (clientId, seq) <;>
      simp [Event.queueOp, Files.applied, hkey, CellOp.applied]
  | storeInflight message | removeInflight clientId packetId direction
  | clearInflight clientId | takeBatch | writeOut => rfl

theorem Files.applied_inflight (files : Files) (e : Event) (key : InflightKey) :
    (files.applied texts e).inflight key =
      (e.inflightOp texts key).elim (files.inflight key) fun op =>
        op.applied (files.inflight key) := by
  cases e with
  | storeQueued clientId seq body | removeQueued clientId seq | takeBatch | writeOut => rfl
  | storeInflight message =>
    by_cases hkey : key = (message.clientId, message.packetId, message.direction) <;>
      simp [Event.inflightOp, Files.applied, hkey, CellOp.applied]
  | removeInflight clientId packetId direction =>
    by_cases hkey : key = (clientId, packetId, direction) <;>
      simp [Event.inflightOp, Files.applied, hkey, CellOp.applied]
  | clearInflight clientId =>
    by_cases hid : key.1 = clientId <;> simp [Event.inflightOp, Files.applied, hid, CellOp.applied]

/-- A file that every event changes as one operation is changed by all events as all of them. -/
theorem applied_file (file : Files → Option Bytes)
    (hfile : ∀ files e, file (files.applied texts e) =
      (op e).elim (file files) fun op => op.applied (file files)) (files : Files)
    (es : List Event) :
    file (applied texts files es) = Cell.applied (file files) (es.filterMap op) := by
  induction es generalizing files with
  | nil => rfl
  | cons e es ih =>
    show file (applied texts (files.applied texts e) es) = _
    rw [ih, hfile]
    cases hop : op e <;> simp [hop, Cell.applied]

theorem Run.snoc_inv {s₀ : State} (h : Run texts s₀ (es ++ [e]) s') :
    ∃ s, Run texts s₀ es s ∧ Step texts s e s' := by
  generalize hall : es ++ [e] = all at h
  cases h with
  | nil => simp at hall
  | @snoc es' s e' _ hrun hstep =>
    obtain ⟨rfl, he⟩ := append_inj' hall rfl
    cases he
    exact ⟨s, hrun, hstep⟩

/-- After a last batch, each file is the automaton's. -/
theorem files_of_run (h : Run texts (.opened files) (es ++ [.takeBatch, .writeOut]) s) :
    (∀ key, s.files.queue key =
      ((Cell.fresh (files.queue key)).run (queueOps texts key es ++ [.take])).file) ∧
    ∀ key, s.files.inflight key =
      ((Cell.fresh (files.inflight key)).run (inflightOps texts key es ++ [.take])).file := by
  have hdone : s.taken = none := by
    have hsplit : es ++ [.takeBatch, .writeOut] = (es ++ [.takeBatch]) ++ [.writeOut] := by simp
    obtain ⟨_, -, hstep⟩ := Run.snoc_inv (hsplit ▸ h)
    cases hstep
    rfl
  refine ⟨fun key => ?_, fun key => ?_⟩
  · have hcell := congrArg Cell.file (h.cell fun _ _ _ hstep => queueCell_step hstep key)
    have hfile : (queueCell texts s key).file = s.files.queue key := by
      show settledQueue texts s key = _
      rw [settledQueue, hdone]
    rw [← hfile, hcell, filterMap_append]
    rfl
  · have hcell := congrArg Cell.file (h.cell fun _ _ _ hstep => inflightCell_step hstep key)
    have hfile : (inflightCell texts s key).file = s.files.inflight key := by
      show settledInflight texts s key = _
      rw [settledInflight, hdone]
    rw [← hfile, hcell, filterMap_append]
    rfl

/-- After a last batch the files are those from before with the operations applied in
order if and only if no removal of a file from before is lost: one whose client was
not cleared, about which nothing was waiting at the end of any batch, and whose last
two operations stored and removed it. -/
theorem files_eq_applied_iff {files : Files} {es : List Event}
    (h : Run texts (.opened files) (es ++ [.takeBatch, .writeOut]) s) :
    s.files = applied texts files es ↔
      (∀ key, (files.queue key).isSome → ¬ Cell.Lost (queueOps texts key es)) ∧
      ∀ key, (files.inflight key).isSome → ¬ Cell.Lost (inflightOps texts key es) := by
  obtain ⟨hqueue, hinflight⟩ := files_of_run h
  rw [Files.ext_iff, funext_iff, funext_iff]
  refine and_congr (forall_congr' fun key => ?_) (forall_congr' fun key => ?_)
  · rw [hqueue, applied_file (·.queue key) fun files e => files.applied_queue e key]
    exact Cell.file_eq_iff _ _
  · rw [hinflight, applied_file (·.inflight key) fun files e => files.applied_inflight e key]
    exact Cell.file_eq_iff _ _

end

/-! ## A removal that is lost -/

/-- An inbound exactly-once message as a client sends it. -/
def inboundMessage : InflightMessage where
  clientId := "a"
  packetId := 1
  direction := .inbound
  phase := .awaitingPubrel
  topic := "t"
  payload := [1]
  qos := .exactlyOnce

/-- Its file. -/
def inboundText : String :=
  "\x7b\n  \"client_id\": \"a\",\n  \"packet_id\": 1,\n  \"direction\": \"Inbound\",\n" ++
  "  \"phase\": \"AwaitingPubrel\",\n  \"topic\": \"t\",\n  \"payload\": [\n    1\n  ],\n" ++
  "  \"qos\": \"ExactlyOnce\",\n  \"retain\": false,\n  \"stored_at_secs\": 0,\n" ++
  "  \"message_expiry_interval\": null,\n  \"expires_at_secs\": null,\n" ++
  "  \"user_properties\": [],\n  \"content_type\": null,\n  \"response_topic\": null,\n" ++
  "  \"correlation_data\": null,\n  \"payload_format_indicator\": null\n\x7d"

/-- A serializer that knows this message. -/
def inboundTexts : Texts where
  queued _ := []
  inflight m := if m = inboundMessage then inboundText.toUTF8.data.toList else []

/-- Files that hold it, from before the backend was opened. -/
def inboundFiles : Files where
  queue _ := none
  inflight := update (fun _ => none) ("a", 1, .inbound)
    (some (inboundTexts.inflight inboundMessage))

theorem isSome_inboundFiles {key : InflightKey} (h : (inboundFiles.inflight key).isSome) :
    key = ("a", 1, .inbound) := by
  by_contra hkey
  simp [inboundFiles, hkey] at h

/-- A batch of the writer task that nothing disturbs. -/
theorem exists_batch {texts : Texts} {s₀ s : State} {es : List Event}
    (hrun : Run texts s₀ es s) (hfree : s.taken = none) :
    ∃ w, Run texts s₀ (es ++ [.takeBatch, .writeOut]) w := by
  obtain ⟨queueOrder, hqueue⟩ := s.pending.queue.entries.exists_lists
  obtain ⟨inflightOrder, hinfl⟩ := s.pending.inflight.entries.exists_lists
  have htake := hrun.snoc (.takeBatch s queueOrder inflightOrder hfree hqueue hinfl)
  have hwrite := htake.snoc (.writeOut _ s.pending.batch queueOrder inflightOrder rfl hqueue hinfl)
  rw [append_assoc] at hwrite
  exact ⟨_, hwrite⟩

/-- A removal that is not lost. -/
theorem files_eq_applied_released : ∃ s, Run inboundTexts (.opened inboundFiles)
    ([.removeInflight "a" 1 .inbound] ++ [.takeBatch, .writeOut]) s ∧
    s.files = applied inboundTexts inboundFiles [.removeInflight "a" 1 .inbound] ∧
    s.files.inflight ("a", 1, .inbound) = none := by
  have hstart : Run inboundTexts (.opened inboundFiles) [] _ := .nil
  obtain ⟨s, hrun⟩ := exists_batch (hstart.snoc (.removeInflight _ "a" 1 .inbound)) rfl
  have heq : s.files = applied inboundTexts inboundFiles [.removeInflight "a" 1 .inbound] := by
    refine (files_eq_applied_iff hrun).mpr ⟨fun key h => (by cases h), fun key h hlost => ?_⟩
    obtain rfl := isSome_inboundFiles h
    obtain ⟨-, front, v, hends⟩ := hlost
    -- one operation has been written, not two
    have hlength : 1 = (front ++ [CellOp.store v, CellOp.remove]).length := congrArg length hends
    simp at hlength
  exact ⟨s, hrun, heq, heq ▸ rfl⟩

/-- The last operation on a record from before removed it, and its file is still there. -/
theorem removed_record_stays : ∃ s, Run inboundTexts (.opened inboundFiles)
    ([.storeInflight inboundMessage, .removeInflight "a" 1 .inbound] ++ [.takeBatch, .writeOut]) s ∧
    s.files.inflight ("a", 1, .inbound) = some (inboundTexts.inflight inboundMessage) ∧
    (applied inboundTexts inboundFiles
      [.storeInflight inboundMessage, .removeInflight "a" 1 .inbound]).inflight ("a", 1, .inbound) =
        none := by
  have hstart : Run inboundTexts (.opened inboundFiles) [] _ := .nil
  obtain ⟨s, hrun⟩ := exists_batch ((hstart.snoc (.storeInflight _ inboundMessage)).snoc
    (.removeInflight _ "a" 1 .inbound)) rfl
  refine ⟨s, hrun, ?_, rfl⟩
  rw [(files_of_run hrun).2]
  rfl

end MqttLib.Storage.WriteBehind
