/-
MqttLib.SessionLog.Agreement

Memory and log agree.  At every point between two sections under a lock the stored
part of the sessions in memory is what the durable table decodes to, with the writes
in flight applied in sequence order, and after a failed flush it is exactly that
table.  The fields of a session that are not serialized are not part of the
agreement: a decoded session is never connected.
-/

import MqttLib.SessionLog.Progress

namespace MqttLib.SessionLog

open Foundation Storage Protocol List

section

variable {json : SerdeJson} {bytes : Option Bytes} {s₀ s : System}

/-- Where the batch is already in the durable table, applying it again changes nothing. -/
theorem Inv.sessionRecords_eq {start : Records} (h : Inv json start s) :
    sessionRecords s.state.sessions =
      applyWrites (durableRecords json s.writer) (entryWrites json s.inFlight) := by
  have hmemory := h.session.sessionRecords_eq
  rw [System.inFlight, entryWrites_append, applyWrites_append, hmemory]
  rcases h.writer.durable with hpre | hafter
  · rw [hpre]
  · rw [hafter]
    change _ = applyWrites (applyWrites (applyWrites _ (entryWrites json s.batch))
      (entryWrites json s.batch)) _
    rw [applyWrites_idem]

/-- In every state of every run, the stored sessions in memory are the durable ones with
the writes in flight applied in sequence order.  A failed flush leaves exactly the
durable ones, nothing in flight, and every entry that was in flight refused. -/
theorem sessions_agree (hopened : Opened json bytes s₀) (hsteps : Steps json s₀ s) :
    (∃ writes : List Issued, writes.Sublist s.history.issued ∧
      List.Forall₂ (Accounts json) (writesOf s.inFlight) writes ∧
      sessionRecords s.state.sessions =
        applyWrites (durableRecords json s.writer) (writes.map Issued.write)) ∧
    Ordered s.inFlight ∧
    ∀ batch e, s.phase = .reporting batch (.error e) →
      sessionRecords (s.fail batch).state.sessions = durableRecords json (s.fail batch).writer ∧
      (s.fail batch).inFlight = [] ∧
      ∀ p ∈ s.inFlight,
        p.seq ∈ (s.fail batch).history.errs ∧ p.seq ∉ (s.fail batch).history.oks := by
  have hinv := hopened.inv_steps hsteps
  have hnumbered := hopened.numbered_steps hsteps
  have hordered : Ordered s.inFlight := (pairwise_append.mp hnumbered.ordered).2.1
  refine ⟨?_, hordered, fun batch e hphase => ⟨?_, inFlight_fail s batch, fun p hp => ?_⟩⟩
  · have hrecorded : Recorded json s.history.issued s.inFlight :=
      hnumbered.recorded.mono (List.Subset.refl _) (subset_append_right _ _)
    obtain ⟨writes, hsub, haccounts⟩ := hrecorded.exists_sublist hordered hnumbered.issued
    refine ⟨writes, hsub, haccounts, ?_⟩
    rw [← entryWrites_of_accounts haccounts]
    exact hinv.sessionRecords_eq
  · have hfailed := (hinv.fail hphase).sessionRecords_eq
    rw [inFlight_fail] at hfailed
    exact hfailed
  · have hflight : batch ++ s.state.pending = s.inFlight := by
      rw [System.inFlight, System.batch, hphase]
      rfl
    refine ⟨mem_append_right _ (mem_map_of_mem (hflight ▸ hp)), fun hok => ?_⟩
    have hsettled := hnumbered.answered p.seq (Or.inl hok)
    have hpast := hnumbered.flight p hp
    omega

/-- A write that was issued is refused, or answered with `Ok` in the order of issue, or in flight
and not answered: none is lost, and none is answered twice.  What is answered with `Ok` is logged,
and the log's table is what it held at opening with the logged writes applied, or those of the
batch that is being appended as well. -/
theorem writes_answered_once (hopened : Opened json bytes s₀) (hsteps : Steps json s₀ s) :
    s.history.oks.Pairwise (· < ·) ∧ (∀ n ∈ s.history.oks, n ∉ s.history.errs) ∧
    (∀ p ∈ s.inFlight, p.seq ∉ s.history.oks ∧ p.seq ∉ s.history.errs) ∧
    (∀ i ∈ s.history.issued, i.seq ∈ s.history.errs ∨
      (i.seq ∈ s.history.oks ∧ ∃ w ∈ writesOf s.history.logged, Accounts json w i) ∨
      i.seq ∈ s.inFlight.map Pending.seq) ∧
    (durableRecords json s.writer = applyWrites (sessionRecords s₀.state.sessions)
        (entryWrites json s.history.logged) ∨
      durableRecords json s.writer = applyWrites (sessionRecords s₀.state.sessions)
        (entryWrites json (s.history.logged ++ s.batch))) := by
  have h := hopened.numbered_steps hsteps
  refine ⟨?_, h.disjoint, fun p hp => ?_, fun i hi => ?_, ?_⟩
  · rw [← h.logged]
    exact pairwise_map.mpr (pairwise_append.mp h.ordered).1
  · -- what has been answered is behind what is in flight
    have hanswered := h.answered p.seq
    have hpast := h.flight p hp
    constructor <;> intro hmem
    · have := hanswered (.inl hmem)
      omega
    · have := hanswered (.inr hmem)
      omega
  · refine (h.covered i hi).imp_right fun ⟨w, hw, heq⟩ => ?_
    have hnumber : i.seq ∈ s.history.oks ∨ i.seq ∈ s.inFlight.map Pending.seq := by
      rw [← heq, ← h.logged, ← mem_append, ← map_append]
      exact mem_map_of_mem (mem_writesOf.mp hw)
    exact hnumber.imp_left fun hok => ⟨hok, h.mem_logged hi hok⟩
  · refine (hopened.inv_steps hsteps).writer.durable.imp id fun hafter => ?_
    rw [entryWrites_append, applyWrites_append]
    exact hafter

end

/-- Two writes, both answered by one flush: both are logged. -/
theorem writes_answered_once_stored : ∃ s : System,
    s.history.issued.map Issued.seq = [1, 2] ∧
    ∀ i ∈ s.history.issued, ∃ w ∈ writesOf s.history.logged, Accounts connectedJson w i := by
  obtain ⟨_, s, hopened, hsteps, hoks, hissued⟩ := connectedSession_settles_twice
  refine ⟨s, by rw [hissued]; rfl, fun i hi => ?_⟩
  obtain ⟨-, hdisjoint, hflight, hfates, -⟩ := writes_answered_once hopened hsteps
  have hok : i.seq ∈ s.history.oks := by
    rw [hissued] at hi
    rcases mem_pair.mp hi with rfl | rfl <;> simp [hoks]
  rcases hfates i hi with herr | ⟨-, hlogged⟩ | hmem
  · exact absurd herr (hdisjoint _ hok)
  · exact hlogged
  · obtain ⟨p, hp, hseq⟩ := mem_map.mp hmem
    exact absurd (hseq ▸ hok) (hflight p hp).1

/-- The agreement in a state where one session has been stored and answered. -/
theorem sessions_agree_stored : ∃ s : System, s.history.oks ≠ [] ∧
    sessionRecords s.state.sessions "a" = some connectedSession.toSessionRecord ∧
    ∃ writes : List Issued, List.Forall₂ (Accounts connectedJson) (writesOf s.inFlight) writes ∧
      sessionRecords s.state.sessions =
        applyWrites (durableRecords connectedJson s.writer) (writes.map Issued.write) := by
  obtain ⟨_, s, hopened, hsteps, hlookup, -, hok, -⟩ := connectedSession_settles
  obtain ⟨⟨writes, -, haccounts, heq⟩, -⟩ := sessions_agree hopened hsteps
  refine ⟨s, ne_nil_of_mem hok, ?_, writes, haccounts, heq⟩
  simp [sessionRecords, hlookup]

/-! ## The fields that are not serialized -/

/-- The sessions the durable table decodes to at the clock time `now`, whole. -/
def decodedSessions (json : SerdeJson) (now : SystemTime) (w : LogWriter) (id : String) :
    Option ClientSession := do
  let segment ← w.durable.lookup id
  let line ← stripSep newline segment
  match ← decode json now line with
  | .put _ session => some session
  | .remove _ => none

/-- A decoded session is not connected. -/
theorem decodedSessions_connected {json : SerdeJson} {now : SystemTime} {w : LogWriter}
    {id : String} {session : ClientSession} (h : decodedSessions json now w id = some session) :
    session.connected = false := by
  obtain ⟨_, -, h⟩ := Option.bind_eq_some_iff.mp h
  obtain ⟨_, -, h⟩ := Option.bind_eq_some_iff.mp h
  obtain ⟨replayed, hdec, h⟩ := Option.bind_eq_some_iff.mp h
  obtain ⟨_, -, hrec⟩ := decode_eq_some hdec
  cases replayed with
  | remove _ => cases h
  | put _ _ =>
    cases h
    exact Record.replayed_connected hrec

/-- Whole sessions do not agree: once the session of a connected client is durable and
nothing is in flight, memory holds it as connected, and the table never decodes to
that. -/
theorem connected_session_not_decoded : ∃ s₀ s, Opened connectedJson none s₀ ∧
    Steps connectedJson s₀ s ∧ s.inFlight = [] ∧
    ∀ now, (fun id => s.state.sessions.lookup id) ≠ decodedSessions connectedJson now s.writer := by
  obtain ⟨s₀, s, hopened, hsteps, hlookup, hflight, -⟩ := connectedSession_settles
  refine ⟨s₀, s, hopened, hsteps, hflight, fun now heq => ?_⟩
  have hdecoded : decodedSessions connectedJson now s.writer "a" = some connectedSession := by
    rw [← congrFun heq "a"]
    exact hlookup
  exact absurd (decodedSessions_connected hdecoded) (by decide)

end MqttLib.SessionLog
