/-
MqttLib.SessionLog.Invariant

The invariant of the session log.  The sessions in memory are the durable ones
with the batch being flushed and then the queued entries applied in order; each of
these entries remembers what it replaced, so a failed flush can take all of them
back.  The writer's side of the invariant is one assertion for each phase of a
flush (`WriterInv`), the memory's side an undo log (`SessionInv`).
-/

import MqttLib.SessionLog.Opening

namespace MqttLib.SessionLog

open Foundation Storage Protocol SessionLog.System LogWriter List

/-- The writes of a list of entries, in order, as the log would replay them. -/
def entryWrites (json : SerdeJson) (ps : List Pending) : List RecordWrite :=
  lineWrites json (batchLines (linesOf ps))

/-- The map of stored sessions the durable table decodes to. -/
def durableRecords (json : SerdeJson) (w : LogWriter) : Records :=
  fun id => (w.durable.lookup id).bind fun segment =>
    (lineWrite json segment).bind fun write => write.2

theorem DurableOk.durableRecords_eq {json : SerdeJson} {base : Records} {w : LogWriter}
    (h : DurableOk json base w) : durableRecords json w = base := by
  funext id
  cases hlook : w.durable.lookup id with
  | none => simp [durableRecords, hlook, h.absent id hlook]
  | some segment =>
    obtain ⟨-, r, hwrite, hbase⟩ := h.line id segment hlook
    simp [durableRecords, hlook, hwrite, hbase]

/-! ## The writer's side -/

/-- The durable sessions with some first entries of a batch. -/
def PartOf (json : SerdeJson) (base : Records) (batch : List Pending) (R : Records) : Prop :=
  ∃ k, R = applyWrites base (lineWrites json ((batchLines (linesOf batch)).take k))

theorem partOf_all (json : SerdeJson) (base : Records) (batch : List Pending) :
    PartOf json base batch (applyWrites base (entryWrites json batch)) := by
  refine ⟨(batchLines (linesOf batch)).length, ?_⟩
  rw [take_length]
  rfl

/-- The maps a residue may bring back. -/
def Residue.Leaves (json : SerdeJson) (base : Records) : Residue → Records → Prop
  | .found bytes, R => R = replayedRecords json bytes
  | .failed batch, R => PartOf json base batch R

/-- The maps a crash may leave: the durable sessions with some first entries of the
batch, or, in a log that is not sound, what its residue brings back. -/
def Allowed (json : SerdeJson) (base : Records) (residue : List Residue)
    (batch : List Pending) (health : Health) (R : Records) : Prop :=
  PartOf json base batch R ∨ (health ≠ .sound ∧ ∃ old ∈ residue, old.Leaves json base R)

/-- What `append` does once the repair is over. -/
def appendTail (lines : List LogLine) : Except MqttError Unit → WriterM (Except MqttError Unit)
  | .error e => pure (.error e)
  | .ok () => appendSound lines

/-- A flush inside `append`.  Either the log has been sound since the flush began, and
no residue of earlier batches is left, or the repair in front is still going on. -/
inductive Running (json : SerdeJson) (base : Records) (residue : List Residue)
    (batch : List Pending) (p : WriterM (Except MqttError Unit)) (w : LogWriter) (d : Disk) :
    Prop where
  | repairing (q : WriterM (Except MqttError Unit)) (hp : p = q.bind (appendTail (linesOf batch)))
      (hq : q ≠ .ret (.ok ()))
      (hsafe : q.Safe Disk.device (CrashInv json base (Allowed json base residue batch) True)
        (Rewritten json base (Allowed json base residue batch)) w d)
  | writing (hresidue : residue = [])
      (hsafe : p.Safe Disk.device (CrashInv json base (Allowed json base [] batch) False)
        (Appended json base (Allowed json base [] batch) (batchLines (linesOf batch))) w d)

/-- The writer's side of the invariant.  `base` is what is durable without the batch. -/
def WriterInv (json : SerdeJson) (base : Records) (residue : List Residue) (w : LogWriter)
    (d : Disk) : Phase → Prop
  | .idle => Resting json base w d ∧ Surviving json (Allowed json base residue [] w.health) d
  | .appending batch p => Running json base residue batch p w d
  | .reporting batch (.ok _) => w.health = .sound ∧
      Resting json (applyWrites base (entryWrites json batch)) w d
  | .reporting batch (.error _) =>
      Resting json base w d ∧ Surviving json (Allowed json base residue batch w.health) d
  | .compacting p => residue = [] ∧
      p.Safe Disk.device (CrashInv json base (Allowed json base [] []) False)
        (Rewritten json base (Allowed json base [] [])) w d

section

variable {json : SerdeJson} {base : Records} {residue : List Residue}
  {batch : List Pending} {w : LogWriter} {d : Disk}

theorem possible_allowed (residue : List Residue) (batch : List Pending) :
    Possible base (Allowed json base residue batch) where
  base _ := .inl ⟨0, by simp⟩
  mono health R := by
    rintro (h | ⟨hsound, -⟩)
    · exact .inl h
    · exact absurd rfl hsound
  damaged R := by
    rintro (h | ⟨-, h⟩)
    · exact .inl h
    · exact .inr ⟨by simp, h⟩

theorem allowed_part (residue : List Residue) (health : Health) (k : Nat) :
    Allowed json base residue batch health
      (applyWrites base (lineWrites json ((batchLines (linesOf batch)).take k))) :=
  .inl ⟨k, rfl⟩

/-- A batch that starts on a sound log. -/
theorem running_of_sound (hrest : Resting json base w d) (hsound : w.health = .sound)
    (hlines : ∀ l ∈ linesOf batch, LineOk json l) :
    Running json base [] batch (append (linesOf batch)) w d := by
  refine .writing rfl ?_
  have happend := safe_appendSound (possible_allowed [] batch) hrest hsound hlines
    (fun k => allowed_part [] .sound k)
  have hclean := hrest.sound hsound
  rw [append, Prog.safe_bind, prepare, Prog.safe_get_bind]
  have hskip : (if w.health ≠ .sound then repair else pure (.ok ())) =
      (pure (.ok ()) : WriterM (Except MqttError Unit)) := by simp [hsound]
  rw [hskip, Prog.safe_pure]
  exact ⟨⟨hrest.durable, hclean.surviving ((possible_allowed [] batch).base _), False.elim⟩,
    happend⟩

/-- A batch that starts on a log in need of repair. -/
theorem running_of_unsound (hrest : Resting json base w d) (hunsound : w.health ≠ .sound)
    (hsurv : Surviving json (Allowed json base residue [] w.health) d) :
    Running json base residue batch (append (linesOf batch)) w d := by
  have hsurv' : Surviving json (Allowed json base residue batch w.health) d := by
    refine hsurv.weaken fun R hR => ?_
    rcases hR with ⟨k, rfl⟩ | hR
    · exact .inl ⟨0, by simp [linesOf, writesOf, batchLines]⟩
    · exact .inr hR
  refine .repairing prepare rfl (fun h => by cases h) ?_
  exact safe_prepare (possible_allowed residue batch) hrest.durable hunsound hsurv'

/-- One operation of a running append. -/
theorem Running.step {p p' : WriterM (Except MqttError Unit)} {w' : LogWriter} {d' : Disk}
    (hlines : ∀ l ∈ linesOf batch, LineOk json l) (h : Running json base residue batch p w d)
    (hstep : Prog.Step Disk.device (p, w, d) (p', w', d')) :
    Running json base (if w'.health = .sound then [] else residue) batch p' w' d' := by
  cases h with
  | writing hresid hsafe =>
    refine .writing ?_ (hsafe.step hstep)
    simp [hresid]
  | repairing q hp hq hsafe =>
    subst hp
    rcases Prog.step_bind hstep with ⟨q', rfl, hstep'⟩ | ⟨r, rfl⟩
    · have hsafe' := hsafe.step hstep'
      rcases hsafe'.now with hI | ⟨r, rfl, hdone⟩
      · have hunsound := hI.unsound trivial
        rw [if_neg hunsound]
        refine .repairing q' rfl ?_ hsafe'
        -- before it returns the repair has not made the log sound
        rintro rfl
        exact hunsound (hsafe'.ok rfl).1
      · cases r with
        | error e =>
          rw [if_neg (hdone.error e rfl)]
          exact .repairing (.ret (.error e)) rfl (by simp) hsafe'
        | ok _ =>
          obtain ⟨hsound, -⟩ := hdone.ok rfl
          rw [if_pos hsound]
          refine .writing rfl ?_
          exact safe_appendSound (possible_allowed [] batch) hdone.resting hsound hlines
            (fun k => allowed_part [] .sound k)
    · cases r with
      | error e => cases hstep
      | ok _ => exact absurd rfl hq

/-- What a running append that has returned leaves to report. -/
theorem Running.returned {r : Except MqttError Unit}
    (h : Running json base residue batch (.ret r) w d) :
    WriterInv json base residue w d (.reporting batch r) := by
  cases h with
  | writing hresid hsafe =>
    cases r with
    | ok _ => exact hsafe.ok rfl
    | error e =>
      obtain ⟨hrest, hsurv⟩ := hsafe.error e rfl
      rw [hresid]
      exact ⟨hrest, hsurv⟩
  | repairing q hp hq hsafe =>
    cases q with
    | ret a =>
      cases a with
      | ok _ => exact absurd rfl hq
      | error e =>
        obtain rfl : r = .error e := by
          have hret : (Prog.ret r : WriterM (Except MqttError Unit)) = .ret (.error e) := hp
          cases hret
          rfl
        exact ⟨Rewritten.resting hsafe, Rewritten.surviving hsafe⟩
    | read k => cases hp
    | write _ k => cases hp
    | call o k => cases hp

/-- At every point the durable table stands for the sessions without the batch, or for
those with it. -/
theorem WriterInv.durable {phase : Phase} (h : WriterInv json base residue w d phase) :
    durableRecords json w = base ∨
      durableRecords json w = applyWrites base (entryWrites json phase.batch) := by
  cases phase with
  | idle => exact .inl h.1.durable.durableRecords_eq
  | compacting p =>
    rcases h.2.now with hI | ⟨r, -, hI⟩ <;> exact .inl hI.durable.durableRecords_eq
  | reporting batch r =>
    cases r with
    | ok _ => exact .inr h.2.durable.durableRecords_eq
    | error e => exact .inl h.1.durable.durableRecords_eq
  | appending batch p =>
    cases h with
    | writing hresid hsafe =>
      rcases hsafe.now with hI | ⟨r, -, hdone⟩
      · exact .inl hI.durable.durableRecords_eq
      · cases r with
        | ok _ => exact .inr (hdone.ok rfl).2.durable.durableRecords_eq
        | error e => exact .inl (hdone.error e rfl).1.durable.durableRecords_eq
    | repairing q hp hq hsafe =>
      rcases hsafe.now with hI | ⟨r, -, hI⟩ <;> exact .inl hI.durable.durableRecords_eq

/-- How the flush goes on after its report. -/
theorem writerInv_afterReport (hrest : Resting json base w d)
    (hsurv : Surviving json (Allowed json base residue [] w.health) d)
    (hresid : w.health = .sound → residue = []) :
    WriterInv json base residue w d (afterReport w) := by
  unfold afterReport
  split
  · rename_i hcompact
    have hclean := hrest.sound hcompact.1
    have hpossible : Possible base (Allowed json base [] []) := possible_allowed [] []
    refine ⟨hresid hcompact.1, safe_compact hpossible ⟨hrest.durable, ?_, False.elim⟩⟩
    exact hclean.surviving (hpossible.base _)
  · exact ⟨hrest, hsurv⟩

end

/-! ## The sessions in memory -/

/-- The entry makes this change: its line writes the new value, and it remembers the old
one. -/
structure Matches (json : SerdeJson) (w : Nat × WriteEntry) (c : Change String ClientSession) :
    Prop where
  key : c.key = w.2.clientId
  old : c.old = w.2.undo
  live : w.2.live = c.new.isSome
  isLine : IsLine newline w.2.line
  write : lineWrite json w.2.line = some (c.key, c.new.map fun s => s.toSessionRecord)
  own : ∀ s ∈ c.new, s.clientId = c.key

/-- Sessions are kept under their own client id. -/
def KeysOk (m : Table String ClientSession) : Prop :=
  ∀ id s, m.lookup id = some s → s.clientId = id

/-- The memory's side of the invariant: from the sessions that are durable the entries of
the batch lead to a table, and the queued entries from there to the sessions in
memory. -/
structure SessionInv (json : SerdeJson) (base : Records) (batch : List Pending) (st : LogState) :
    Prop where
  chain : ∃ (durable mid : Table String ClientSession) (cs ds : List (Change String ClientSession)),
    sessionRecords durable = base ∧ KeysOk durable ∧ Chain durable cs mid ∧
    Chain mid ds st.sessions ∧ List.Forall₂ (Matches json) (writesOf batch) cs ∧
    List.Forall₂ (Matches json) (writesOf st.pending) ds

section

variable {json : SerdeJson} {base : Records} {batch : List Pending} {st : LogState}

variable {m : Table String ClientSession} {cs : List (Change String ClientSession)}
  {ps : List Pending} {m' : Table String ClientSession} {ws : List (Nat × WriteEntry)}

theorem KeysOk.set (h : KeysOk m) {id : String} {s : Option ClientSession}
    (hs : ∀ c ∈ s, c.clientId = id) : KeysOk (m.set id s) := by
  intro k c hk
  by_cases hid : k = id
  · subst hid
    rw [Table.lookup_set_self] at hk
    exact hs c hk
  · rw [Table.lookup_set_of_ne _ _ hid] at hk
    exact h k c hk

theorem keysOk_of_chain (hm : KeysOk m) (hchain : Chain m cs m')
    (hmatch : List.Forall₂ (Matches json) ws cs) : KeysOk m' := by
  induction hmatch generalizing m with
  | nil =>
    obtain rfl : m = m' := hchain
    exact hm
  | cons hhead _ ih => exact ih (hm.set hhead.own) hchain.2

theorem SessionInv.keysOk (h : SessionInv json base batch st) : KeysOk st.sessions := by
  obtain ⟨_, _, _, _, -, hkeys, hcs, hds, hbatch, hpend⟩ := h.chain
  exact keysOk_of_chain (keysOk_of_chain hkeys hcs hbatch) hds hpend

theorem DurableOk.keysOk {sessions : Table String ClientSession} {w : LogWriter}
    (h : DurableOk json (sessionRecords sessions) w) : KeysOk sessions := by
  intro id c hc
  have hrec : sessionRecords sessions id = some c.toSessionRecord := by
    simp [sessionRecords, hc]
  cases hlook : w.durable.lookup id with
  | none =>
    rw [h.absent id hlook] at hrec
    cases hrec
  | some segment =>
    obtain ⟨-, r, hwrite, hr⟩ := h.line id segment hlook
    rw [hrec] at hr
    obtain rfl := Option.some.inj hr
    exact lineWrite_own hwrite

/-- The lines of entries that make changes write those changes. -/
theorem lineWrites_of_matches (h : List.Forall₂ (Matches json) ws cs) :
    lineWrites json (ws.map fun w => w.2.line) =
      cs.map fun c => (c.key, c.new.map fun s => s.toSessionRecord) := by
  induction h with
  | nil => rfl
  | cons hhead _ ih =>
    rw [map_cons, lineWrites_cons, hhead.write, ih]
    rfl

theorem entryWrites_eq (ps : List Pending) :
    entryWrites json ps = lineWrites json ((writesOf ps).map fun w => w.2.line) := by
  rw [entryWrites, batchLines, linesOf, map_map]
  rfl

theorem entryWrites_append (ps qs : List Pending) :
    entryWrites json (ps ++ qs) = entryWrites json ps ++ entryWrites json qs := by
  simp only [entryWrites_eq, writesOf_append, map_append, lineWrites_append]

theorem lineOk_of_matches
    (h : List.Forall₂ (Matches json) (writesOf ps) cs) : ∀ l ∈ linesOf ps, LineOk json l := by
  intro l hl
  obtain ⟨w, hw, rfl⟩ := mem_map.mp hl
  obtain ⟨c, -, hmatch⟩ := exists_of_forall₂ h hw
  exact ⟨hmatch.isLine, _, hmatch.key ▸ hmatch.write, by simp [hmatch.live]⟩

theorem sessionRecords_of_chain (hchain : Chain m cs m')
    (hmatch : List.Forall₂ (Matches json) (writesOf ps) cs) :
    sessionRecords m' = applyWrites (sessionRecords m) (entryWrites json ps) := by
  rw [entryWrites_eq, lineWrites_of_matches hmatch]
  clear hmatch
  induction cs generalizing m with
  | nil =>
    obtain rfl : m = m' := hchain
    rfl
  | cons c cs ih =>
    have hset : sessionRecords (m.set c.key c.new) =
        Function.update (sessionRecords m) c.key (c.new.map fun s => s.toSessionRecord) := by
      funext id
      have hlook := congrFun (Table.lookup_set m c.key c.new) id
      simp only [sessionRecords, hlook]
      by_cases hid : id = c.key
      · subst hid
        simp
      · simp [Function.update_of_ne hid, sessionRecords]
    rw [ih hchain.2, hset, map_cons, applyWrites_cons]

/-- The loop of `fail` takes the changes back. -/
theorem undoEntries_eq (hmatch : List.Forall₂ (Matches json) (writesOf ps) cs)
    (m : Table String ClientSession) : undoEntries m ps = undoAll m cs := by
  induction ps generalizing cs with
  | nil =>
    cases hmatch
    rfl
  | cons p ps ih =>
    obtain ⟨_, entry⟩ := p
    cases entry with
    | barrier => exact ih hmatch
    | write w =>
      obtain ⟨c, cs, hhead, htail, rfl⟩ := forall₂_cons_left_iff.mp hmatch
      have hrest := ih htail
      simp only [undoEntries, undoAll, foldr_cons] at hrest ⊢
      rw [hrest, hhead.key, hhead.old]

/-- A new change at the end of the queue. -/
theorem SessionInv.enqueue (h : SessionInv json base batch st) {clientId : String} {line : Bytes}
    {session : Option ClientSession} (hline : IsLine newline line)
    (hwrite : lineWrite json line = some (clientId, session.map fun s => s.toSessionRecord))
    (hown : ∀ s ∈ session, s.clientId = clientId) :
    SessionInv json base batch
      ({ st with sessions := st.sessions.set clientId session }.enqueue
        (.write ⟨clientId, line, session.isSome, st.sessions.lookup clientId⟩)) := by
  obtain ⟨durable, mid, cs, ds, hbase, hkeys, hcs, hds, hbatch, hpend⟩ := h.chain
  refine ⟨durable, mid, cs, ds ++ [⟨clientId, session, st.sessions.lookup clientId⟩], hbase, hkeys,
    hcs, ?_, hbatch, ?_⟩
  · rw [chain_append]
    exact ⟨st.sessions, hds, rfl, rfl⟩
  · rw [LogState.enqueue, writesOf_append]
    refine rel_append hpend (.cons ?_ .nil)
    exact ⟨rfl, rfl, rfl, hline, hwrite, hown⟩

theorem SessionInv.barrier (h : SessionInv json base batch st) :
    SessionInv json base batch (st.enqueue .barrier) := by
  obtain ⟨durable, mid, cs, ds, hbase, hkeys, hcs, hds, hbatch, hpend⟩ := h.chain
  refine ⟨durable, mid, cs, ds, hbase, hkeys, hcs, hds, hbatch, ?_⟩
  have hnone : writesOf [⟨st.nextSeq, .barrier⟩] = [] := rfl
  rw [LogState.enqueue, writesOf_append, hnone, append_nil]
  exact hpend

/-- Taking the queue as the next batch. -/
theorem SessionInv.take (h : SessionInv json base [] st) :
    SessionInv json base st.pending { st with pending := [] } := by
  obtain ⟨durable, mid, cs, ds, hbase, hkeys, hcs, hds, hbatch, hpend⟩ := h.chain
  have hnil : cs = [] := forall₂_nil_left_iff.mp hbatch
  subst hnil
  obtain rfl : durable = mid := hcs
  exact ⟨durable, st.sessions, ds, [], hbase, hkeys, hds, rfl, hpend, .nil⟩

section

variable (h : SessionInv json base batch st)
include h

/-- The batch has become durable. -/
theorem SessionInv.settle (settled : Nat) :
    SessionInv json (applyWrites base (entryWrites json batch)) []
      { st with settledSeq := settled } := by
  obtain ⟨_, mid, _, ds, hbase, hkeys, hcs, hds, hbatch, hpend⟩ := h.chain
  refine ⟨mid, mid, [], ds, ?_, keysOk_of_chain hkeys hcs hbatch, rfl, hds, .nil, hpend⟩
  rw [sessionRecords_of_chain hcs hbatch, hbase]

/-- The batch and everything behind it has been taken back. -/
theorem SessionInv.fail (settled : Nat) :
    sessionRecords (undoEntries st.sessions (batch ++ st.pending)) = base ∧
    SessionInv json base [] { st with
      sessions := undoEntries st.sessions (batch ++ st.pending)
      pending := []
      settledSeq := settled } := by
  obtain ⟨durable, mid, cs, ds, hbase, hkeys, hcs, hds, hbatch, hpend⟩ := h.chain
  have hall : List.Forall₂ (Matches json) (writesOf (batch ++ st.pending)) (cs ++ ds) := by
    rw [writesOf_append]
    exact rel_append hbatch hpend
  have hundo : undoEntries st.sessions (batch ++ st.pending) = durable := by
    rw [undoEntries_eq hall]
    exact undoAll_of_chain (chain_append.mpr ⟨mid, hcs, hds⟩)
  rw [hundo]
  exact ⟨hbase, durable, durable, [], [], hbase, hkeys, rfl, rfl, .nil, .nil⟩

/-- The sessions in memory are the durable ones with every entry in flight applied. -/
theorem SessionInv.sessionRecords_eq :
    sessionRecords st.sessions =
      applyWrites (applyWrites base (entryWrites json batch)) (entryWrites json st.pending) := by
  obtain ⟨_, _, _, _, hbase, -, hcs, hds, hbatch, hpend⟩ := h.chain
  rw [sessionRecords_of_chain hds hpend, sessionRecords_of_chain hcs hbatch, hbase]

end

end

/-! ## The whole system -/

/-- What the durable table accounts for: the sessions at opening with every logged entry
applied. -/
def System.accounted (json : SerdeJson) (start : Records) (s : System) : Records :=
  applyWrites start (entryWrites json s.history.logged)

/-- The invariant of the session log. -/
structure Inv (json : SerdeJson) (start : Records) (s : System) : Prop where
  writer : WriterInv json (s.accounted json start) s.history.residue s.writer s.disk s.phase
  session : SessionInv json (s.accounted json start) s.batch s.state
  clean : s.writer.health = .sound → s.history.residue = []

section

variable {json : SerdeJson} {start : Records} {s : System} {batch : List Pending}
  {p p' : WriterM (Except MqttError Unit)} {r : Except MqttError Unit} {bytes : Option Bytes}

section

variable (h : Inv json start s)
include h

/-- A step that only enqueues leaves the writer alone. -/
theorem Inv.of_state {st : LogState} {tasks : Nat} {issued : List Issued}
    (hst : SessionInv json (s.accounted json start) s.batch st) :
    Inv json start { s with
      state := st, flushTasks := tasks, history := { s.history with issued := issued } } :=
  ⟨h.writer, hst, h.clean⟩

theorem Inv.enqueueWrite {clientId : String} {line : Bytes} {session : Option ClientSession}
    (henc : encode json clientId (session.map fun c => c.toSessionRecord) = .ok line)
    (hown : ∀ c ∈ session, c.clientId = clientId) :
    Inv json start (s.enqueueWrite clientId line session) := by
  have hrec : ∀ r ∈ session.map (fun c => c.toSessionRecord), r.clientId = clientId := by
    intro r hr
    obtain ⟨c, hc, rfl⟩ := Option.map_eq_some_iff.mp hr
    exact hown c hc
  exact h.of_state (h.session.enqueue (isLine_encode henc) (lineWrite_encode henc hrec) hown)

theorem Inv.apply (clientId : String) (decision : Decision clientId) :
    Inv json start (s.apply json clientId decision) := by
  unfold System.apply
  cases hdecide : decision.decide (s.state.sessions.lookup clientId) with
  | none =>
    simp only
    split
    · exact h
    · exact h.of_state h.session.barrier
  | some change =>
    cases change with
    | put session =>
      have hown : session.clientId = clientId :=
        decision.keeps _ session (fun c hc => h.session.keysOk clientId c hc) hdecide
      cases henc : encode json clientId (some session.toSessionRecord) with
      | error e => simpa only [henc] using h
      | ok line =>
        simp only [henc]
        refine h.enqueueWrite henc fun c hc => ?_
        obtain rfl : session = c := Option.some.inj hc
        exact hown
    | remove =>
      cases henc : encode json clientId none with
      | error e => exact h
      | ok line => exact h.enqueueWrite henc (fun c hc => by cases hc)

theorem Inv.beginFlush (hidle : s.phase = .idle) : Inv json start s.beginFlush := by
  obtain ⟨hwriter, hsess, hclean⟩ := h
  rw [batch, hidle] at hsess
  rw [hidle] at hwriter
  obtain ⟨hrest, hsurv⟩ := hwriter
  have htaken : SessionInv json _ s.beginFlush.batch _ := s.batch_beginFlush ▸ hsess.take
  refine ⟨?_, htaken, hclean⟩
  cases hpend : s.state.pending with
  | nil =>
    have hph : s.beginFlush.phase = .idle := by simp [System.beginFlush, hpend]
    rw [hph]
    exact ⟨hrest, hsurv⟩
  | cons p ps =>
    have hph : s.beginFlush.phase =
        .appending (p :: ps) (LogWriter.append (linesOf (p :: ps))) := by
      simp [System.beginFlush, hpend]
    rw [System.batch, hph] at htaken
    rw [hph]
    -- a sound log is appended to at once, any other is repaired first
    by_cases hsound : s.writer.health = .sound
    · obtain ⟨_, _, _, _, _, _, _, _, hmatch, _⟩ := htaken.chain
      have hrun := running_of_sound hrest hsound (lineOk_of_matches hmatch)
      have hresid : s.beginFlush.history.residue = [] := hclean hsound
      rw [hresid]
      exact hrun
    · exact running_of_unsound hrest hsound hsurv

theorem Inv.appendIo {w : LogWriter} {d : Disk} (hph : s.phase = .appending batch p)
    (hstep : Prog.Step Disk.device (p, s.writer, s.disk) (p', w, d)) :
    Inv json start (s.moved (.appending batch p') w d) := by
  obtain ⟨hwriter, hsess, hclean⟩ := h
  rw [hph] at hwriter
  rw [System.batch, hph] at hsess
  obtain ⟨_, _, _, _, _, _, _, _, hmatch, _⟩ := hsess.chain
  refine ⟨hwriter.step (lineOk_of_matches hmatch) hstep, hsess, fun hsound => ?_⟩
  exact if_pos hsound

theorem Inv.appendReturn (hph : s.phase = .appending batch (.ret r)) :
    Inv json start { s with phase := .reporting batch r } := by
  obtain ⟨hwriter, hsess, hclean⟩ := h
  rw [hph] at hwriter
  rw [System.batch, hph] at hsess
  exact ⟨hwriter.returned, hsess, hclean⟩

end

/-- After its report a flush has no batch left. -/
theorem batch_afterReport (w : LogWriter) : (afterReport w).batch = [] := by
  unfold afterReport
  split <;> rfl

section

variable (h : Inv json start s)
include h

theorem Inv.settle
    (hph : s.phase = .reporting batch (.ok ())) : Inv json start (s.settle batch) := by
  obtain ⟨hwriter, hsess, hclean⟩ := h
  rw [hph] at hwriter
  rw [System.batch, hph] at hsess
  obtain ⟨hsound, hrest⟩ := hwriter
  have haccounted : (s.settle batch).accounted json start =
      applyWrites (s.accounted json start) (entryWrites json batch) := by
    simp only [System.accounted, System.settle, entryWrites_append, applyWrites_append]
  refine ⟨?_, ?_, hclean⟩
  · rw [haccounted]
    have hpossible : Possible (applyWrites (s.accounted json start) (entryWrites json batch))
        (Allowed json _ s.history.residue []) := possible_allowed s.history.residue []
    exact writerInv_afterReport hrest ((hrest.sound hsound).surviving (hpossible.base _)) hclean
  · rw [haccounted]
    change SessionInv json _ (afterReport s.writer).batch _
    rw [batch_afterReport]
    exact hsess.settle _

theorem Inv.fail {e : MqttError}
    (hph : s.phase = .reporting batch (.error e)) : Inv json start (s.fail batch) := by
  obtain ⟨hwriter, hsess, hclean⟩ := h
  rw [hph] at hwriter
  rw [System.batch, hph] at hsess
  obtain ⟨hrest, hsurv⟩ := hwriter
  refine ⟨?_, ?_, fun hsound => if_pos hsound⟩
  · refine writerInv_afterReport hrest ?_ (fun hsound => if_pos hsound)
    by_cases hsound : s.writer.health = .sound
    · exact (hrest.sound hsound).surviving (.inl ⟨0, rfl⟩)
    · -- what the failed batch left joins the residue
      rw [System.fail]
      simp only [hsound, if_false]
      refine hsurv.weaken fun R hR => .inr ⟨hsound, ?_⟩
      rcases hR with hpart | ⟨-, old, hold, hleaves⟩
      · exact ⟨.failed batch, mem_cons_self, hpart⟩
      · exact ⟨old, mem_cons_of_mem _ hold, hleaves⟩
  · change SessionInv json _ (afterReport s.writer).batch _
    rw [batch_afterReport]
    exact (hsess.fail _).2

theorem Inv.compactIo {w : LogWriter} {d : Disk} (hph : s.phase = .compacting p)
    (hstep : Prog.Step Disk.device (p, s.writer, s.disk) (p', w, d)) :
    Inv json start (s.moved (.compacting p') w d) := by
  obtain ⟨hwriter, hsess, hclean⟩ := h
  rw [hph] at hwriter
  rw [batch, hph] at hsess
  obtain ⟨hresid, hsafe⟩ := hwriter
  refine ⟨⟨?_, hsafe.step hstep⟩, hsess, fun hsound => if_pos hsound⟩
  simp [moved, hresid]

theorem Inv.compactReturn
    (hph : s.phase = .compacting (.ret r)) : Inv json start { s with phase := .idle } := by
  obtain ⟨hwriter, hsess, hclean⟩ := h
  rw [hph] at hwriter
  rw [batch, hph] at hsess
  obtain ⟨hresid, hsafe⟩ := hwriter
  have hdone : Rewritten json (s.accounted json start) _ r s.writer s.disk := hsafe
  refine ⟨⟨hdone.resting, ?_⟩, hsess, hclean⟩
  rw [hresid]
  exact hdone.surviving

end

theorem Inv.step {s' : System} (h : Inv json start s) (hstep : Step json s s') :
    Inv json start s' := by
  cases hstep with
  | apply clientId decision => exact h.apply clientId decision
  | beginFlush hidle htask => exact h.beginFlush hidle
  | appendIo batch p p' w d hph hstep => exact h.appendIo hph hstep
  | appendReturn batch r hph => exact h.appendReturn hph
  | settle batch hph => exact h.settle hph
  | fail batch e hph => exact h.fail hph
  | compactIo p p' w d hph hstep => exact h.compactIo hph hstep
  | compactReturn r hph => exact h.compactReturn hph

/-- An opened log satisfies the invariant. -/
theorem Opened.inv (h : Opened json bytes s) : Inv json (sessionRecords s.state.sessions) s := by
  obtain ⟨sessions, w, d, rfl, hrest, hsurv⟩ := h.spec
  refine ⟨⟨hrest, hsurv.weaken fun R hR => ?_⟩, ?_, fun hsound => if_pos hsound⟩
  · rcases hR with rfl | ⟨hunsound, rfl⟩
    · exact .inl ⟨0, rfl⟩
    · refine .inr ⟨hunsound, .found bytes, ?_, rfl⟩
      simp [initial, hunsound]
  · refine ⟨sessions, sessions, [], [], rfl, ?_, rfl, rfl, .nil, .nil⟩
    exact hrest.durable.keysOk

/-- Every state of a run of an opened log satisfies the invariant. -/
theorem Opened.inv_steps {s₀ : System} (h : Opened json bytes s₀)
    (hsteps : Steps json s₀ s) : Inv json (sessionRecords s₀.state.sessions) s := by
  induction hsteps with
  | refl => exact h.inv
  | tail _ hstep ih => exact ih.step hstep

end

end MqttLib.SessionLog
