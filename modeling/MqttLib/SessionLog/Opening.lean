/-
MqttLib.SessionLog.Opening

Opening the log.  The sessions `open_blocking` returns are those its durable table
stands for, and the writer is at rest.  Where the first repair failed, a crash may
still bring back the file from before.
-/

import MqttLib.SessionLog.System

namespace MqttLib.SessionLog

open Foundation Storage Protocol LogWriter Prog Option

section

variable {json : SerdeJson} {now : SystemTime}

variable {loaded : Loaded} {bytes : Option Bytes} {d : Disk}

theorem importLegacyFiles_faithful (files : List (Option Bytes))
    (h : loaded.Faithful json) : (importLegacyFiles json now files loaded).1.Faithful json := by
  induction files generalizing loaded with
  | nil => exact h
  | cons file files ih =>
    rw [importLegacyFiles]
    cases hread : file.bind json.sessionFromSlice with
    | none => exact ih h
    | some session =>
      cases hline : encode json session.clientId (some session) with
      | error _ => simpa only [hline] using ih h
      | ok _ =>
        have hwrite := lineWrite_encode hline (fun r hr => by cases hr; rfl)
        have hinsert := Loaded.Faithful.insert h (session.restore now)
          (isLine_encode hline) hwrite
        simpa only [hline] using ih hinsert

/-- The table built from what was read stands for the sessions that were read. -/
theorem durableOk_opened (h : loaded.Faithful json) (summary : ReplaySummary) :
    DurableOk json loaded.records (opened loaded summary) := by
  have hlook : ∀ id, (opened loaded summary).durable.lookup id =
      (loaded.lookup id).map fun entry => entry.2 := fun id =>
    Table.lookup_mapValues _ loaded id
  refine ⟨fun id _ hseg => ?_, fun id hnone => ?_, rfl⟩
  · rw [hlook, map_eq_some_iff] at hseg
    obtain ⟨⟨session, segment'⟩, hent, rfl⟩ := hseg
    obtain ⟨hline, hwrite⟩ := h id session segment' hent
    exact ⟨hline, session.toSessionRecord, hwrite, by simp [Loaded.records, hent]⟩
  · rw [hlook, map_eq_none_iff] at hnone
    simp [Loaded.records, hnone]

theorem sessionRecords_loaded (loaded : Loaded) :
    sessionRecords (loaded.mapValues fun entry => entry.1) = loaded.records := by
  funext id
  rw [sessionRecords, Table.lookup_mapValues, map_map]
  rfl

/-- The maps a crash during or after opening may leave, where nothing is imported: the
opened one, or what the file from before replays to. -/
def openedAllowed (json : SerdeJson) (bytes : Option Bytes) (legacy : Option (List (Option Bytes)))
    (base : Records) (_ : Health) (R : Records) : Prop :=
  legacy = none → R = base ∨ R = replayedRecords json bytes

/-- What opening ensures: the writer is at rest, and an import is only reported once
the log is sound. -/
structure OpenResult (json : SerdeJson) (bytes : Option Bytes)
    (legacy : Option (List (Option Bytes)))
    (r : Except MqttError (Table String ClientSession)) (w : LogWriter) (d : Disk) : Prop where
  resting : ∀ sessions, r = .ok sessions → Resting json (sessionRecords sessions) w d
  surviving : ∀ sessions, r = .ok sessions →
    Surviving json (openedAllowed json bytes legacy (sessionRecords sessions) w.health) d
  imported : ∀ sessions, r = .ok sessions → w.health = .sound ∨ legacy = none

theorem OpenResult.error {legacy : Option (List (Option Bytes))}
    {e : MqttError} {w : LogWriter} : OpenResult json bytes legacy (.error e) w d :=
  ⟨fun _ h => (by cases h), fun _ h => (by cases h), fun _ h => (by cases h)⟩

theorem Clean.sync_dir {base : Records} {w : LogWriter} (h : Clean json base w d) :
    Clean json base w { d with stale := ∅ } := by
  obtain ⟨ls, hlog, hls, hbase, hlen⟩ := h.file
  exact ⟨rfl, ls, hlog, hls, hbase, hlen⟩

/-- The end of `open_blocking`: the first repair, and the directory sync after an
import. -/
theorem safe_finishOpening (hload : loaded.Faithful json) (summary : ReplaySummary)
    (legacy : Option (List (Option Bytes))) (imported : Nat) (hd : Surviving json
      (openedAllowed json bytes legacy loaded.records (opened loaded summary).health) d) :
    (finishOpening loaded legacy imported).Safe Disk.device (fun _ _ => True)
      (OpenResult json bytes legacy) (opened loaded summary) d := by
  have hE : Possible loaded.records (openedAllowed json bytes legacy loaded.records) :=
    ⟨fun _ _ => .inl rfl, fun _ _ h => h, fun _ h => h⟩
  have hI : CrashInv json loaded.records (openedAllowed json bytes legacy loaded.records) False
      (opened loaded summary) d := ⟨durableOk_opened hload summary, hd, False.elim⟩
  rw [finishOpening, safe_bind]
  refine (safe_repair hE hI).mono (fun _ _ _ => trivial) fun repaired w d' h => ?_
  -- the answer once the repair is over, with or without a further directory sync
  have hans : (w.health = .sound ∨ legacy = none) →
      (do
        let synced : Bool ← if imported > 0 then ask FileOp.syncDir else pure true
        if synced then pure (.ok (loaded.mapValues fun entry => entry.1))
        else pure (.error (.io "Failed to sync")) :
          WriterM (Except MqttError (Table String ClientSession))).Safe Disk.device
        (fun _ _ => True) (OpenResult json bytes legacy) w d' := by
    intro hlegacy
    have hrest := h.resting
    have hsurv := h.surviving
    rw [← sessionRecords_loaded] at hrest hsurv
    by_cases himported : imported > 0
    · simp only [himported, if_true, safe_ask_bind]
      refine ⟨trivial, fun synced _ hdev => ?_⟩
      rcases hdev with ⟨rfl, rfl⟩ | ⟨rfl, rfl⟩
      · refine ⟨fun _ hs => ?_, fun _ hs => ?_, fun _ _ => hlegacy⟩ <;>
          obtain rfl := Except.ok.inj hs
        · exact ⟨hrest.durable, fun hsound => (hrest.sound hsound).sync_dir⟩
        · exact hsurv.mono (Disk.survivors_sync_dir_subset _)
      · exact OpenResult.error
    · simp only [himported, if_false]
      rw [safe_bind, safe_pure]
      refine ⟨fun _ hs => ?_, fun _ hs => ?_, fun _ _ => hlegacy⟩ <;> obtain rfl := Except.ok.inj hs
      · exact hrest
      · exact hsurv
  cases repaired with
  | ok _ => cases legacy <;> exact hans (.inl (h.ok rfl).1)
  | error e =>
    cases legacy with
    | none => exact hans (.inr rfl)
    | some _ => exact OpenResult.error

theorem withLegacy_faithful (legacy : Option (List (Option Bytes))) {replayed : Loaded}
    (h : replayed.Faithful json) : (withLegacy json now legacy replayed).1.Faithful json := by
  cases legacy with
  | none => exact h
  | some files => exact importLegacyFiles_faithful files h

/-- The spec of `open_blocking` on the file a crash has left. -/
theorem safe_openBlocking (bytes : Option Bytes) (legacy : Option (List (Option Bytes)))
    (w : LogWriter) :
    (openBlocking json now legacy).Safe Disk.device (fun _ _ => True)
      (OpenResult json bytes legacy) w (Disk.settled bytes) := by
  -- what was read, and what a crash may leave from there on, decide the rest
  have hrest : ∀ (replayed : Loaded) (summary : ReplaySummary) (w : LogWriter) (d : Disk),
      replayed.Faithful json →
      (∀ b ∈ d.survivors, replayedRecords json b = replayed.records ∨
        replayedRecords json b = replayedRecords json bytes) →
      (do
        set (opened (withLegacy json now legacy replayed).1 summary)
        finishOpening (withLegacy json now legacy replayed).1 legacy
          (withLegacy json now legacy replayed).2 :
          WriterM (Except MqttError (Table String ClientSession))).Safe Disk.device
        (fun _ _ => True) (OpenResult json bytes legacy) w d := by
    intro replayed summary w d hfaith hsurv
    simp only [safe_set_bind]
    refine ⟨trivial, safe_finishOpening (withLegacy_faithful legacy hfaith) summary legacy _ ?_⟩
    rintro b hb rfl
    exact hsurv b hb
  have hemp : Loaded.records ∅ = fun _ => none := by
    funext id
    simp [Loaded.records]
  rw [openBlocking, safe_ask_bind]
  refine ⟨trivial, fun _ d₁ hdev => ?_⟩
  obtain rfl : d₁ = Disk.settled bytes := by
    rcases hdev with ⟨-, rfl⟩ | ⟨-, rfl⟩ <;> rfl
  rw [safe_ask_bind]
  refine ⟨trivial, fun contents _ hdev => ?_⟩
  obtain ⟨rfl, hread⟩ := hdev
  cases contents with
  | bytes content =>
    obtain ⟨f, hlog, rfl⟩ := hread
    obtain ⟨content, rfl, rfl⟩ := map_eq_some_iff.mp hlog
    rw [safe_bind, safe_pure]
    simp only [if_true]
    refine hrest _ _ _ _ (replay_faithful content (Loaded.faithful_empty json)) ?_
    intro b hb
    rw [Disk.survivors_settled] at hb
    exact .inr (congrArg _ (Set.mem_singleton_iff.mp hb))
  | notFound =>
    obtain rfl : bytes = none := map_eq_none_iff.mp hread
    rw [safe_bind, safe_pure]
    simp only [if_true]
    refine hrest ∅ {} _ _ (Loaded.faithful_empty json) ?_
    intro b hb
    rw [Disk.survivors_settled] at hb
    exact .inr (congrArg _ (Set.mem_singleton_iff.mp hb))
  | unreadable =>
    simp only [safe_ask_bind]
    refine ⟨trivial, fun moved _ hdev => ?_⟩
    rcases hdev with ⟨rfl, rfl⟩ | ⟨rfl, rfl⟩
    · simp only [if_true]
      refine hrest ∅ {} _ _ (Loaded.faithful_empty json) ?_
      intro b hb
      -- the file moved aside may come back, or there is none
      rcases hb with hb | hb
      · change b ∈ (Disk.settled bytes).survivors at hb
        rw [Disk.survivors_settled] at hb
        exact .inr (congrArg _ (Set.mem_singleton_iff.mp hb))
      · obtain rfl : b = none := hb
        rw [hemp]
        exact .inl rfl
    · exact OpenResult.error

/-- An opened system starts at rest; a crash leaves the sessions it serves or, while the
log is not sound, brings back the file from before. -/
theorem Opened.spec {s : System} (h : Opened json bytes s) :
    ∃ sessions w d, s = System.initial bytes sessions w d ∧
      Resting json (sessionRecords sessions) w d ∧
      Surviving json (fun R => R = sessionRecords sessions ∨
        (w.health ≠ .sound ∧ R = replayedRecords json bytes)) d := by
  obtain ⟨now, legacy, w₀, w, d, sessions, hends, rfl⟩ := h.opened
  have hresult := (safe_openBlocking bytes legacy w₀).ends hends
  have hrest := hresult.resting sessions rfl
  refine ⟨sessions, w, d, rfl, hrest, ?_⟩
  by_cases hsound : w.health = .sound
  · exact (hrest.sound hsound).surviving (.inl rfl)
  · have hlegacy := (hresult.imported sessions rfl).resolve_left hsound
    refine (hresult.surviving sessions rfl).weaken fun R hR => ?_
    rcases hR hlegacy with hbase | hfound
    · exact .inl hbase
    · exact .inr ⟨hsound, hfound⟩

end

end MqttLib.SessionLog
