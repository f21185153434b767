/-
MqttLib.SessionLog.System

The session log as a whole: callers that change sessions in memory at once and
wait for the log (`apply`), and flush tasks that take everything pending as one
batch, append it, and report.  Between two sections under the state lock any
other step may come; a flush holds the writer's lock from taking its batch to the
end of its compaction, so there is at most one, and it is a phase of the system.

`History` is not in the source.  It records what was asked and answered, and which
entries the durable table and the file's tail account for.
-/

import MqttLib.SessionLog.Recovery

namespace MqttLib.SessionLog

open Foundation Storage Protocol

/-! ## The state under the lock -/

inductive SessionChange where
  | put (session : ClientSession)
  | remove

/-- The `Write` case of `Entry`. -/
structure WriteEntry where
  clientId : String
  line : Bytes
  live : Bool
  undo : Option ClientSession

inductive Entry where
  | barrier
  | write (w : WriteEntry)

structure Pending where
  seq : Nat
  entry : Entry

structure LogState where
  sessions : Table String ClientSession
  pending : List Pending
  nextSeq : Nat
  settledSeq : Nat

namespace LogState

def allSettled (st : LogState) : Bool := st.settledSeq + 1 == st.nextSeq

def enqueue (st : LogState) (entry : Entry) : LogState :=
  { st with
    pending := st.pending ++ [⟨st.nextSeq, entry⟩]
    nextSeq := st.nextSeq + 1 }

end LogState

/-- The entry's write, if it has one. -/
def Pending.write? (p : Pending) : Option (Nat × WriteEntry) :=
  match p.entry with
  | .barrier => none
  | .write w => some (p.seq, w)

/-- The writes of a batch, with their sequence numbers. -/
def writesOf (ps : List Pending) : List (Nat × WriteEntry) := ps.filterMap Pending.write?

theorem writesOf_append (ps qs : List Pending) :
    writesOf (ps ++ qs) = writesOf ps ++ writesOf qs := List.filterMap_append

theorem mem_writesOf {ps : List Pending} {w : Nat × WriteEntry} :
    w ∈ writesOf ps ↔ ⟨w.1, .write w.2⟩ ∈ ps := by
  rw [writesOf, List.mem_filterMap]
  constructor
  · rintro ⟨⟨_, entry⟩, hmem, hwrite⟩
    cases entry with
    | barrier => cases hwrite
    | write e =>
      cases hwrite
      exact hmem
  · exact fun h => ⟨_, h, rfl⟩

/-- The lines of a batch as `flush` collects them. -/
def linesOf (ps : List Pending) : List LogLine :=
  (writesOf ps).map fun w => ⟨w.2.clientId, w.2.line, w.2.live⟩

/-- A caller's closure, with what every caller keeps to: a session is stored under its
own client id. -/
structure Decision (clientId : String) where
  decide : Option ClientSession → Option SessionChange
  keeps : ∀ current session, (∀ c ∈ current, c.clientId = clientId) →
    decide current = some (.put session) → session.clientId = clientId

namespace Decision

/-- `store_session`. -/
def store (session : ClientSession) : Decision session.clientId where
  decide _ := some (.put session)
  keeps := by
    intro current session' _ h
    cases h
    rfl

/-- `remove_session`. -/
def remove (clientId : String) : Decision clientId where
  decide current := current.map fun _ => .remove
  keeps := by
    intro current session _ h
    cases current <;> cases h

end Decision

/-! ## The system -/

/-- A write as a caller asked for it. -/
structure Issued where
  seq : Nat
  clientId : String
  session : Option SessionRecord
  deriving DecidableEq

def Issued.write (i : Issued) : RecordWrite := (i.clientId, i.session)

/-- Where the holder of the writer's lock is. -/
inductive Phase where
  | idle
  | appending (batch : List Pending) (program : WriterM (Except MqttError Unit))
  | reporting (batch : List Pending) (result : Except MqttError Unit)
  | compacting (program : WriterM (Except MqttError Unit))

/-- The batch a flush has taken and not yet reported. -/
def Phase.batch : Phase → List Pending
  | .appending batch _ => batch
  | .reporting batch _ => batch
  | .idle => []
  | .compacting _ => []

/-- What a log that is not sound may hold besides its durable sessions: the file from
before it was opened, or some first lines of a batch that failed. -/
inductive Residue where
  | found (bytes : Option Bytes)
  | failed (batch : List Pending)

/-- What has happened: writes issued, sequence numbers answered `Ok` and `Err`, entries
the durable table accounts for, and what a crash may bring back while the log is not
sound. -/
structure History where
  issued : List Issued
  oks : List Nat
  errs : List Nat
  logged : List Pending
  residue : List Residue

structure System where
  state : LogState
  writer : LogWriter
  disk : Disk
  phase : Phase
  flushTasks : Nat
  history : History

namespace System

def batch (s : System) : List Pending := s.phase.batch

/-- Every entry not yet reported, in sequence order. -/
def inFlight (s : System) : List Pending := s.batch ++ s.state.pending

/-- Enqueue a write, and the flush task its caller spawns. -/
def enqueueWrite (s : System) (clientId : String) (line : Bytes) (session : Option ClientSession) :
    System :=
  let undo := s.state.sessions.lookup clientId
  let sessions := s.state.sessions.set clientId session
  let entry := Entry.write ⟨clientId, line, session.isSome, undo⟩
  { s with
    state := { s.state with sessions := sessions }.enqueue entry
    flushTasks := s.flushTasks + 1
    history := { s.history with
      issued := s.history.issued ++
        [⟨s.state.nextSeq, clientId, session.map fun c => c.toSessionRecord⟩] } }

/-- The section of `SessionLog::apply` under the state lock.  A change that cannot be
encoded is answered with the error and leaves everything as it was; no change is
answered at once when nothing is pending. -/
def apply (json : SerdeJson) (s : System) (clientId : String) (decision : Decision clientId) :
    System :=
  match decision.decide (s.state.sessions.lookup clientId) with
  | some (.put session) =>
    match encode json clientId (some session.toSessionRecord) with
    | .error _ => s
    | .ok line => s.enqueueWrite clientId line (some session)
  | some .remove =>
    match encode json clientId none with
    | .error _ => s
    | .ok line => s.enqueueWrite clientId line none
  | none =>
    if s.state.allSettled then s
    else { s with state := s.state.enqueue .barrier, flushTasks := s.flushTasks + 1 }

/-- A flush task gets the writer's lock and takes what is pending. -/
def beginFlush (s : System) : System :=
  { s with
    state := { s.state with pending := [] }
    flushTasks := s.flushTasks - 1
    phase := match s.state.pending with
      | [] => .idle
      | batch => .appending batch (LogWriter.append (linesOf batch)) }

theorem batch_beginFlush (s : System) : s.beginFlush.batch = s.state.pending := by
  unfold beginFlush batch
  cases s.state.pending <;> rfl

/-- The writer or the disk has moved; a log that is sound holds no residue. -/
def moved (s : System) (phase : Phase) (w : LogWriter) (d : Disk) : System :=
  { s with
    phase := phase
    writer := w
    disk := d
    history := { s.history with
      residue := if w.health = .sound then [] else s.history.residue } }

/-- `compact_if_needed`, as the flush continues after its report. -/
def afterReport (w : LogWriter) : Phase :=
  if w.health = .sound ∧ w.needsCompaction then .compacting LogWriter.compact else .idle

/-- `settle`. -/
def settle (s : System) (batch : List Pending) : System :=
  { s with
    state := { s.state with
      settledSeq := (batch.getLast?.map fun p => p.seq).getD s.state.settledSeq }
    phase := afterReport s.writer
    history := { s.history with
      oks := s.history.oks ++ batch.map fun p => p.seq
      logged := s.history.logged ++ batch } }

/-- The loop of `fail` over the failed entries, newest first. -/
def undoEntries (sessions : Table String ClientSession) (failed : List Pending) :
    Table String ClientSession :=
  failed.foldr (fun p sessions => match p.entry with
    | .barrier => sessions
    | .write w => sessions.set w.clientId w.undo) sessions

/-- `fail`: the batch and everything queued behind it is undone and refused. -/
def fail (s : System) (batch : List Pending) : System :=
  let failed := batch ++ s.state.pending
  { s with
    state := { s.state with
      sessions := undoEntries s.state.sessions failed
      pending := []
      settledSeq := (failed.getLast?.map fun p => p.seq).getD s.state.settledSeq }
    phase := afterReport s.writer
    history := { s.history with
      errs := s.history.errs ++ failed.map fun p => p.seq
      residue := if s.writer.health = .sound then [] else .failed batch :: s.history.residue } }

end System

/-- One step of the system. -/
inductive Step (json : SerdeJson) : System → System → Prop where
  | apply (s : System) (clientId : String) (decision : Decision clientId) :
      Step json s (s.apply json clientId decision)
  | beginFlush (s : System) (hidle : s.phase = .idle) (htask : 0 < s.flushTasks) :
      Step json s s.beginFlush
  | appendIo (s : System) (batch p p' w d) (hphase : s.phase = .appending batch p)
      (hstep : Prog.Step Disk.device (p, s.writer, s.disk) (p', w, d)) :
      Step json s (s.moved (.appending batch p') w d)
  | appendReturn (s : System) (batch r) (hphase : s.phase = .appending batch (.ret r)) :
      Step json s { s with phase := .reporting batch r }
  | settle (s : System) (batch) (hphase : s.phase = .reporting batch (.ok ())) :
      Step json s (s.settle batch)
  | fail (s : System) (batch e) (hphase : s.phase = .reporting batch (.error e)) :
      Step json s (s.fail batch)
  | compactIo (s : System) (p p' w d) (hphase : s.phase = .compacting p)
      (hstep : Prog.Step Disk.device (p, s.writer, s.disk) (p', w, d)) :
      Step json s (s.moved (.compacting p') w d)
  | compactReturn (s : System) (r) (hphase : s.phase = .compacting (.ret r)) :
      Step json s { s with phase := .idle }

/-- Runs of the system. -/
abbrev Steps (json : SerdeJson) : System → System → Prop := Relation.ReflTransGen (Step json)

/-- The records of the sessions in memory. -/
def sessionRecords (sessions : Table String ClientSession) : Records :=
  fun id => (sessions.lookup id).map fun session => session.toSessionRecord

/-- The system just after `SessionLog::open` on a file that held `bytes`. -/
def System.initial (bytes : Option Bytes) (sessions : Table String ClientSession) (w : LogWriter)
    (d : Disk) : System where
  state := ⟨sessions, [], 1, 0⟩
  writer := w
  disk := d
  phase := .idle
  flushTasks := 0
  history := ⟨[], [], [], [], if w.health = .sound then [] else [.found bytes]⟩

/-- The log was opened on the file a crash, or nothing, had left: the system starts from
what `open_blocking` returned. -/
structure Opened (json : SerdeJson) (bytes : Option Bytes) (s : System) : Prop where
  opened : ∃ (now : SystemTime) (legacy : Option (List (Option Bytes))) (w₀ w : LogWriter)
    (d : Disk) (sessions : Table String ClientSession),
    Prog.Ends Disk.device (openBlocking json now legacy) w₀ (Disk.settled bytes)
      (.ok sessions) w d ∧
    s = System.initial bytes sessions w d

end MqttLib.SessionLog
