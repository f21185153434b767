/-
MqttLib.SessionLog.Progress

Runs in which nothing fails.  On a directory whose operations all succeed the log
opens sound, an append to a sound log succeeds, and a session that can be encoded
is stored, flushed and answered `Ok`.
-/

import MqttLib.SessionLog.Sequence

namespace MqttLib.SessionLog

open Foundation Storage Protocol LogWriter Prog

section

variable {json : SerdeJson} {order : Multiset Bytes → Option (List Bytes)}

/-- An append to an open, sound log succeeds and leaves it so. -/
theorem run_append (order : Multiset Bytes → Option (List Bytes)) (lines : List LogLine)
    {w : LogWriter} {d : Disk} {f : File}
    (hsound : w.health = .sound) (hfile : w.file = some .handle) (hlog : d.log = some f) :
    ∃ w' d', (append lines).run (Disk.perform order) w d = some (.ok (), w', d') ∧
      w'.health = .sound ∧ (d.survivors.Nonempty → d'.survivors.Nonempty) := by
  obtain ⟨file, len, durable, liveBytes, health, flushes⟩ := w
  obtain ⟨log, temp, stale⟩ := d
  cases hsound
  cases hfile
  cases hlog
  have hrec : ∀ w : LogWriter, (w.recordLines lines).health = w.health := by
    intro w
    induction lines generalizing w with
    | nil => rfl
    | cons line lines ih => exact ih (w.recordDurable line.clientId line.line line.live)
  by_cases hbytes : (lines.flatMap fun line => line.line) = []
  · let w' : LogWriter := ⟨some .handle, len, durable, liveBytes, .sound, flushes⟩
    refine ⟨w'.recordLines lines, ⟨some f, temp, stale⟩, ?_, hrec w', fun h => h⟩
    simp only [append, prepare, appendSound, hbytes]
    rfl
  · let bytes := lines.flatMap fun line => line.line
    let w' : LogWriter :=
      ⟨some .handle, len + bytes.length, durable, liveBytes, .sound, flushes + 1⟩
    refine ⟨w'.recordLines lines, ⟨some (f.appended bytes bytes).synced, temp, stale⟩, ?_,
      hrec w', fun _ => ⟨some (f.content ++ bytes), Or.inr ⟨_, rfl, rfl⟩⟩⟩
    simp only [append, prepare, appendSound, ne_eq, hbytes, not_false_eq_true, if_true]
    rfl

/-- A flush runs its append to the end. -/
theorem steps_append (json : SerdeJson) {s : System} {batch : List Pending}
    {p : WriterM (Except MqttError Unit)}
    {r : Except MqttError Unit} {w : LogWriter} {d : Disk} (hph : s.phase = .appending batch p)
    (hends : Prog.Ends Disk.device p s.writer s.disk r w d) :
    ∃ residue, Steps json s { s with
      phase := .reporting batch r, writer := w, disk := d,
      history := { s.history with residue := residue } } := by
  have hrun : ∀ c : WriterM (Except MqttError Unit) × LogWriter × Disk,
      Relation.ReflTransGen (Prog.Step Disk.device) c (.ret r, w, d) → ∀ s : System,
      s.phase = .appending batch c.1 → s.writer = c.2.1 → s.disk = c.2.2 →
      ∃ residue, Steps json s { s with
        phase := .reporting batch r, writer := w, disk := d,
        history := { s.history with residue := residue } } := by
    intro c hc
    induction hc using Relation.ReflTransGen.head_induction_on with
    | refl =>
      rintro s hph rfl rfl
      exact ⟨s.history.residue, .single (.appendReturn s batch r hph)⟩
    | @head c c' hstep _ ih =>
      obtain ⟨p, _, _⟩ := c
      obtain ⟨p', w₂, d₂⟩ := c'
      rintro s hph rfl rfl
      obtain ⟨residue, hsteps⟩ := ih (s.moved (.appending batch p') w₂ d₂) rfl rfl rfl
      exact ⟨residue, .head (.appendIo s batch p p' w₂ d₂ hph hstep) hsteps⟩
  exact hrun _ hends s hph rfl rfl

/-- The log is idle, open and sound. -/
structure Ready (s : System) : Prop where
  idle : s.phase = .idle
  sound : s.writer.health = .sound
  file : s.writer.file = some .handle
  log : s.disk.log.isSome
  survivors : s.disk.survivors.Nonempty

/-- Storing a session that can be encoded queues its line. -/
theorem apply_store (s : System) {session : ClientSession} {line : Bytes}
    (hline : encode json session.clientId (some session.toSessionRecord) = .ok line) :
    s.apply json session.clientId (.store session) =
      s.enqueueWrite session.clientId line (some session) := by
  simp only [System.apply, Decision.store, hline]

/-- A flush answers what is queued. -/
theorem flush_settles {s : System} (hrdy : Ready s) (hpend : s.state.pending ≠ [])
    (htask : 0 < s.flushTasks) :
    ∃ s', Steps json s s' ∧ s'.state.sessions = s.state.sessions ∧ s'.inFlight = [] ∧
      s'.history.oks = s.history.oks ++ s.state.pending.map Pending.seq ∧
      s'.writer.health = .sound ∧ s'.disk.survivors.Nonempty ∧
      s'.history.issued = s.history.issued := by
  obtain ⟨f, hlog⟩ := Option.isSome_iff_exists.mp hrdy.log
  have hph : s.beginFlush.phase =
      .appending s.state.pending (append (linesOf s.state.pending)) := by
    unfold System.beginFlush
    dsimp only
    split
    · exact absurd ‹_› hpend
    · rfl
  obtain ⟨w, d, hrun, hsound, hsurvivors⟩ :=
    run_append (fun _ => none) (linesOf s.state.pending) hrdy.sound hrdy.file hlog
  have hends := ends_of_run (Disk.device_of_perform fun _ _ h => by cases h) hrun
  obtain ⟨residue, happend⟩ := steps_append json hph hends
  let s₁ : System := { s.beginFlush with
    phase := .reporting s.state.pending (.ok ()), writer := w, disk := d,
    history := { s.beginFlush.history with residue := residue } }
  refine ⟨s₁.settle s.state.pending, ?_, rfl, inFlight_settle _ _, rfl, hsound,
    hsurvivors hrdy.survivors, rfl⟩
  exact .head (.beginFlush s hrdy.idle htask) (happend.tail (.settle s₁ s.state.pending rfl))

/-- The log opens sound on an empty directory. -/
theorem opens_empty (json : SerdeJson) : ∃ s, Opened json none s ∧ Ready s ∧
    s.state = ⟨∅, [], 1, 0⟩ ∧ s.history.oks = [] ∧ s.history.issued = [] := by
  let order : Multiset Bytes → Option (List Bytes) :=
    fun values => if values = 0 then some [] else none
  have horder : ∀ values lines, order values = some lines → (lines : Multiset Bytes) = values := by
    intro values lines h
    simp only [order] at h
    split at h
    · cases h
      exact (‹values = 0›).symm
    · cases h
  let w₀ : LogWriter := ⟨none, 0, ∅, 0, .needsRepair, 0⟩
  let w : LogWriter := ⟨some .handle, 0, ∅, 0, .sound, 0⟩
  let d : Disk := ⟨some (File.stored []), none, ∅⟩
  have hrun : (openBlocking json 0 none).run (Disk.perform order) w₀ (Disk.settled none) =
      some (.ok ∅, w, d) := rfl
  refine ⟨System.initial none ∅ w d, ⟨0, none, w₀, w, d, ∅, ?_, rfl⟩,
    ⟨rfl, rfl, rfl, rfl, some [], Or.inr ⟨[], rfl, rfl⟩⟩, rfl, rfl, rfl⟩
  exact ends_of_run (Disk.device_of_perform horder) hrun

end

/-! ## A session that is stored -/

/-- A serializer that knows one record and its text. -/
def SerdeJson.knowing (record : Record) (text : Bytes) (h : newline ∉ text) : SerdeJson where
  toVec r := if r = record then some text else none
  fromSlice body := if body = text then some record else none
  sessionFromSlice _ := none
  newline_free := by
    intro r body hbody
    split at hbody
    · cases hbody
      exact h
    · cases hbody
  round_trip := by
    intro r body hbody
    split at hbody
    · rename_i hr
      cases hbody
      simp [hr]
    · cases hbody

/-- A session of a client that is connected. -/
def connectedSession : ClientSession := (ClientSession.new "a" true (some 60) 0).markConnected 1 5

/-- The line body `serde_json` writes for it. -/
def connectedText : String :=
  "\x7b\"op\":\"put\",\"id\":\"a\",\"session\":\x7b\"client_id\":\"a\",\"persistent\":true," ++
  "\"expiry_interval\":60,\"subscriptions\":\x7b\x7d,\"will_message\":null," ++
  "\"will_delay_interval\":null,\"receive_maximum\":65535," ++
  "\"change_only_state\":\x7b\"last_payload_hashes\":\x7b\x7d\x7d,\"user_id\":null," ++
  "\"connection_token\":1,\"disconnected_at\":null\x7d\x7d"

theorem clientId_connectedSession : connectedSession.clientId = "a" := rfl

def connectedBody : Bytes := connectedText.toUTF8.data.toList

theorem newline_connectedBody : newline ∉ connectedBody := by decide +kernel

def connectedJson : SerdeJson :=
  .knowing ⟨.put, "a", some connectedSession.toSessionRecord⟩ connectedBody newline_connectedBody

theorem encode_connected :
    encode connectedJson connectedSession.clientId (some connectedSession.toSessionRecord) =
      .ok (hex8 (crc32 connectedBody) ++ [32] ++ connectedBody ++ [newline]) := by
  have hknown : connectedJson.toVec
      ⟨.put, connectedSession.clientId, some connectedSession.toSessionRecord⟩ =
        some connectedBody := by
    simp only [connectedJson, SerdeJson.knowing]
    exact if_pos rfl
  simp only [encode, Option.isSome_some, if_true, hknown]

/-- The line of the session is queued. -/
def System.storeConnected (s : System) : System :=
  s.enqueueWrite connectedSession.clientId
    (hex8 (crc32 connectedBody) ++ [32] ++ connectedBody ++ [newline]) (some connectedSession)

theorem step_storeConnected (s : System) : Step connectedJson s s.storeConnected := by
  have hstep : Step connectedJson s
      (s.apply connectedJson connectedSession.clientId (.store connectedSession)) := .apply s _ _
  rwa [apply_store s encode_connected] at hstep

theorem Ready.storeConnected {s : System} (h : Ready s) : Ready s.storeConnected :=
  ⟨h.idle, h.sound, h.file, h.log, h.survivors⟩

/-- The log opens on an empty directory, and the session is stored and answered. -/
theorem connectedSession_settles : ∃ s₀ s, Opened connectedJson none s₀ ∧
    Steps connectedJson s₀ s ∧ s.state.sessions.lookup "a" = some connectedSession ∧
    s.inFlight = [] ∧ 1 ∈ s.history.oks ∧ s.writer.health = .sound ∧ s.disk.survivors.Nonempty ∧
    s.history.issued = [⟨1, "a", some connectedSession.toSessionRecord⟩] := by
  obtain ⟨s₀, hopened, hrdy, hstate, hoks, hnone⟩ := opens_empty connectedJson
  obtain ⟨s, hsteps, hset, hflight, hok, hsound, hsurvivors, hissued⟩ :=
    flush_settles hrdy.storeConnected (by simp [System.storeConnected, System.enqueueWrite,
      LogState.enqueue]) (Nat.succ_pos _)
  refine ⟨s₀, s, hopened, .head (step_storeConnected s₀) hsteps, ?_, hflight, ?_, hsound,
    hsurvivors, ?_⟩
  · rw [hset]
    exact Table.lookup_set_self _ _ _
  · simp [hok, System.storeConnected, System.enqueueWrite, LogState.enqueue, hstate]
  · simp [hissued, System.storeConnected, System.enqueueWrite, hstate, hnone,
      clientId_connectedSession]

/-- It is stored twice, and one flush answers both. -/
theorem connectedSession_settles_twice : ∃ s₀ s, Opened connectedJson none s₀ ∧
    Steps connectedJson s₀ s ∧ s.history.oks = [1, 2] ∧
    s.history.issued = [⟨1, "a", some connectedSession.toSessionRecord⟩,
      ⟨2, "a", some connectedSession.toSessionRecord⟩] := by
  obtain ⟨s₀, hopened, hrdy, hstate, hoks, hnone⟩ := opens_empty connectedJson
  obtain ⟨s, hsteps, -, -, hok, -, -, hissued⟩ :=
    flush_settles hrdy.storeConnected.storeConnected (by simp [System.storeConnected,
      System.enqueueWrite, LogState.enqueue]) (Nat.succ_pos _)
  refine ⟨s₀, s, hopened, .head (step_storeConnected s₀) (.head (step_storeConnected _) hsteps),
    ?_, ?_⟩
  · simp [hok, System.storeConnected, System.enqueueWrite, LogState.enqueue, hstate, hoks]
  · simp [hissued, System.storeConnected, System.enqueueWrite, LogState.enqueue, hstate, hnone,
      clientId_connectedSession]

end MqttLib.SessionLog
