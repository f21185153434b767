/-
MqttLib.SessionLog.Durability

What a crash leaves.  At every point of every run, whatever content of the file
survives replays to the sessions at opening with some of the issued writes applied
in order.  Every write that was answered `Ok` is among them, and none that was
refused before a moment at which the log was sound.
-/

import MqttLib.SessionLog.Progress

namespace MqttLib.SessionLog

open Foundation Storage Protocol List

section

variable {json : SerdeJson} {base start : Records} {residue : List Residue} {w : LogWriter}
  {d : Disk} {s₁ s s' : System} {ps : List Pending} {i : Issued} {writes : List Issued}
  {bytes : Option Bytes}

/-- In every phase a crash leaves the durable sessions with some first entries of the
batch, or what the residue of an unsound log brings back. -/
theorem WriterInv.surviving {phase : Phase} (h : WriterInv json base residue w d phase) :
    Surviving json (Allowed json base residue phase.batch w.health) d := by
  -- with no residue at all, whatever is allowed is allowed with any residue
  have hgrow : ∀ {batch : List Pending} {health : Health} {R : Records},
      Allowed json base [] batch health R → Allowed json base residue batch health R := by
    rintro batch health R (hpart | ⟨-, _, hold, -⟩)
    · exact .inl hpart
    · cases hold
  cases phase with
  | idle => exact h.2
  | compacting p =>
    rcases h.2.now with hI | ⟨r, -, hdone⟩
    · exact hI.surviving.weaken fun R => hgrow
    · exact hdone.surviving.weaken fun R => hgrow
  | reporting batch r =>
    cases r with
    | error e => exact h.2
    | ok _ =>
      obtain ⟨hsound, hrest⟩ := h
      exact (hrest.sound hsound).surviving (.inl (partOf_all json base batch))
  | appending batch p =>
    cases h with
    | writing hresid hsafe =>
      rcases hsafe.now with hI | ⟨r, -, hdone⟩
      · exact hI.surviving.weaken fun R => hgrow
      · cases r with
        | error e => exact (hdone.error e rfl).2.weaken fun R => hgrow
        | ok _ =>
          obtain ⟨hsound, hrest⟩ := hdone.ok rfl
          exact (hrest.sound hsound).surviving (.inl (partOf_all json base batch))
    | repairing q hp hq hsafe =>
      rcases hsafe.now with hI | ⟨r, -, hdone⟩
      · exact hI.surviving
      · exact hdone.surviving

/-- Some first lines of a batch are some first of the writes it stands for. -/
theorem PartOf.eq_take {R : Records}
    (h : PartOf json base ps R) (hacct : List.Forall₂ (Accounts json) (writesOf ps) writes) :
    ∃ k, R = applyWrites base ((writes.take k).map Issued.write) := by
  obtain ⟨k, rfl⟩ := h
  refine ⟨k, congrArg (applyWrites base) ?_⟩
  have htake : (batchLines (linesOf ps)).take k =
      ((writesOf ps).take k).map fun w => w.2.line := by
    rw [batchLines, linesOf, map_map, ← map_take]
    rfl
  rw [htake]
  exact lineWrites_of_accounts (forall₂_take k hacct)

/-- A map that stands for issued writes: everything logged, and otherwise only entries
of `ps`. -/
structure Replays (json : SerdeJson) (start : Records) (h : History) (ps : List Pending)
    (replayed : List Issued) (R : Records) : Prop where
  sublist : replayed.Sublist h.issued
  map : R = applyWrites start (replayed.map Issued.write)
  logged : ∀ w ∈ writesOf h.logged, ∃ i ∈ replayed, i.seq = w.1
  only : ∀ i ∈ replayed, i.seq ∈ h.logged.map Pending.seq ∨ i.seq ∈ ps.map Pending.seq

theorem seq_mem_of_accounts
    (h : List.Forall₂ (Accounts json) (writesOf ps) writes) (hi : i ∈ writes) :
    i.seq ∈ ps.map Pending.seq := by
  have hseqs : (writesOf ps).map (fun w => w.1) = writes.map Issued.seq := by
    generalize writesOf ps = ws at h
    clear hi
    induction h with
    | nil => rfl
    | cons hhead _ ih => rw [map_cons, map_cons, hhead.seq, ih]
  have hmem : i.seq ∈ (writesOf ps).map fun w => w.1 := hseqs ▸ mem_map_of_mem hi
  obtain ⟨w, hw, hseq⟩ := mem_map.mp hmem
  exact mem_map.mpr ⟨_, mem_writesOf.mp hw, hseq⟩

/-- What the file replays to with some first lines of a batch behind the log. -/
theorem exists_replays {h : History} {R : Records}
    (hordd : Ordered (h.logged ++ ps)) (hrecd : Recorded json h.issued (h.logged ++ ps))
    (hissued : h.issued.Pairwise fun i j => i.seq < j.seq)
    (hpart : PartOf json (applyWrites start (entryWrites json h.logged)) ps R) :
    ∃ replayed, Replays json start h ps replayed R := by
  obtain ⟨_, hsub, hacct⟩ := hrecd.exists_sublist hordd hissued
  rw [writesOf_append] at hacct
  obtain ⟨old, new, hold, hnew, rfl⟩ := exists_append_of_forall₂ hacct
  obtain ⟨k, hmap⟩ := hpart.eq_take hnew
  refine ⟨old ++ new.take k, ?_, ?_, ?_, ?_⟩
  · exact (List.Sublist.append_left (take_sublist k new) old).trans hsub
  · rw [hmap, entryWrites_of_accounts hold, map_append, applyWrites_append]
  · intro w hw
    obtain ⟨i, hi, haccount⟩ := exists_of_forall₂ hold hw
    exact ⟨i, mem_append_left _ hi, haccount.seq.symm⟩
  · intro i hi
    rcases mem_append.mp hi with hi | hi
    · exact .inl (seq_mem_of_accounts hold hi)
    · exact .inr (seq_mem_of_accounts hnew (mem_of_mem_take hi))

/-! ## What was refused before the log was sound -/

/-- What a later state keeps of an earlier one: answers stay, the file from before the
opening only ever goes, and if the log was sound then, whatever batches it has now as
residue were refused since. -/
structure Later (s₁ s : System) : Prop where
  errs : s₁.history.errs ⊆ s.history.errs
  settled : s₁.state.settledSeq ≤ s.state.settledSeq
  found : ∀ bytes, .found bytes ∈ s.history.residue → .found bytes ∈ s₁.history.residue
  failed : s₁.writer.health = .sound → ∀ batch, .failed batch ∈ s.history.residue →
    ∀ p ∈ batch, s₁.state.settledSeq < p.seq

/-- A step that settles nothing brings no new residue. -/
theorem Later.congr (h : Later s₁ s) (herrs : s'.history.errs = s.history.errs)
    (hsettl : s'.state.settledSeq = s.state.settledSeq)
    (hresid : ∀ r ∈ s'.history.residue, r ∈ s.history.residue) : Later s₁ s' := by
  refine ⟨?_, ?_, fun bytes hr => h.found bytes (hresid _ hr),
    fun hsound batch hr => h.failed hsound batch (hresid _ hr)⟩
  · rw [herrs]
    exact h.errs
  · rw [hsettl]
    exact h.settled

theorem Later.step (h : Later s₁ s) (hnum : Numbered json s) (hstep : Step json s s') :
    Later s₁ s' := by
  cases hstep with
  | apply clientId decision =>
    have happly : (s.apply json clientId decision).history.errs = s.history.errs ∧
        (s.apply json clientId decision).state.settledSeq = s.state.settledSeq ∧
        (s.apply json clientId decision).history.residue = s.history.residue := by
      unfold System.apply
      split <;> split <;> exact ⟨rfl, rfl, rfl⟩
    exact h.congr happly.1 happly.2.1 (fun r hr => happly.2.2 ▸ hr)
  | beginFlush hidle htask | appendReturn batch r hph | compactReturn r hph =>
    exact h.congr rfl rfl (fun r hr => hr)
  | appendIo batch p p' w d hph hstep | compactIo p p' w d hph hstep =>
    exact h.congr rfl rfl (residue_moved s _ w d)
  | settle batch hph =>
    have hbatch : ∀ p ∈ batch, s.state.settledSeq < p.seq := by
      intro p hp
      refine hnum.flight p (mem_append_left _ ?_)
      rw [System.batch, hph]
      exact hp
    exact ⟨h.errs, h.settled.trans (settled_le_last hbatch), h.found, h.failed⟩
  | fail batch e hph =>
    have hfli : batch ++ s.state.pending = s.inFlight := by
      rw [System.inFlight, System.batch, hph]
      rfl
    have hfailed : ∀ p ∈ batch ++ s.state.pending, s.state.settledSeq < p.seq :=
      fun p hp => hnum.flight p (hfli ▸ hp)
    have hresid : ∀ r ∈ (s.fail batch).history.residue,
        r = .failed batch ∨ r ∈ s.history.residue := by
      intro r hr
      change r ∈ (if s.writer.health = .sound then [] else _) at hr
      split at hr
      · cases hr
      · exact mem_cons.mp hr
    refine ⟨fun n hn => mem_append_left _ (h.errs hn),
      h.settled.trans (settled_le_last hfailed), fun bytes hr => ?_, fun hsound old hr p hp => ?_⟩
    · rcases hresid _ hr with heq | hr
      · cases heq
      · exact h.found bytes hr
    · rcases hresid _ hr with heq | hr
      · cases heq
        exact h.settled.trans_lt (hfailed p (mem_append_left _ hp))
      · exact h.failed hsound old hr p hp

theorem Later.of_steps {s₀ : System} (hopened : Opened json bytes s₀)
    (hfirst : Steps json s₀ s₁) (hsteps : Steps json s₁ s) : Later s₁ s := by
  induction hsteps with
  | refl =>
    refine ⟨fun n hn => hn, Nat.le_refl _, fun bytes hr => hr, fun hsound _ hr => ?_⟩
    rw [(hopened.inv_steps hfirst).clean hsound] at hr
    cases hr
  | tail hs hstep ih => exact ih.step (hopened.numbered_steps (hfirst.trans hs)) hstep

/-! ## Durability -/

/-- In a replayed sequence, the value of a write's key is the write's or that of a later
write to the key. -/
theorem effect_of_mem {replayed : List Issued} (h : replayed.Pairwise fun i j => i.seq < j.seq)
    (hi : i ∈ replayed) :
    applyWrites start (replayed.map Issued.write) i.clientId = i.session ∨
      ∃ j ∈ replayed, i.seq < j.seq ∧ j.clientId = i.clientId ∧
        applyWrites start (replayed.map Issued.write) i.clientId = j.session := by
  obtain ⟨before, after, rfl⟩ := append_of_mem hi
  rw [map_append, map_cons]
  rcases applyWrites_holds_last start (before.map Issued.write)
    (after.map Issued.write) i.write with
    hself | ⟨v, hv, hkey, hvalue⟩
  · exact .inl hself
  · obtain ⟨j, hj, rfl⟩ := mem_map.mp hv
    have hlt := (pairwise_cons.mp (pairwise_append.mp h).2.1).1 j hj
    exact .inr ⟨j, by simp [hj], hlt, hkey, hvalue⟩

/-- What the surviving file replays to, in any state of a run. -/
theorem exists_replayed {s₀ : System} (hopened : Opened json bytes s₀)
    (hsteps : Steps json s₀ s) {b : Option Bytes} (hb : b ∈ s.disk.survivors) :
    (∃ ps replayed, Replays json (sessionRecords s₀.state.sessions) s.history ps replayed
        (replayedRecords json b) ∧
      (ps = s.batch ∨ .failed ps ∈ s.history.residue)) ∨
    (.found bytes ∈ s.history.residue ∧ s.history.logged = [] ∧
      replayedRecords json b = replayedRecords json bytes) := by
  have hnum := hopened.numbered_steps hsteps
  rcases (hopened.inv_steps hsteps).writer.surviving b hb with hpart | ⟨-, old, hold, hleaves⟩
  · have hsub : (s.history.logged ++ s.batch).Sublist (s.history.logged ++ s.inFlight) :=
      List.Sublist.append_left (sublist_append_left _ _) _
    obtain ⟨replayed, hreplays⟩ := exists_replays (hnum.ordered.sublist hsub)
      (hnum.recorded.mono (List.Subset.refl _) hsub.subset) hnum.issued hpart
    exact .inl ⟨s.batch, replayed, hreplays, .inl rfl⟩
  · cases old with
    | failed ps =>
      obtain ⟨hordd, -, hrecd⟩ := hnum.failed ps hold
      have hboth : Recorded json s.history.issued (s.history.logged ++ ps) := by
        intro w hw
        rw [writesOf_append] at hw
        rcases mem_append.mp hw with hw | hw
        · refine hnum.recorded w ?_
          rw [writesOf_append]
          exact mem_append_left _ hw
        · exact hrecd w hw
      obtain ⟨replayed, hreplays⟩ := exists_replays hordd hboth hnum.issued hleaves
      exact .inl ⟨ps, replayed, hreplays, .inr hold⟩
    | found bytes' =>
      -- only the file the log was opened on can be found again
      obtain ⟨sessions, w, d, rfl, -⟩ := hopened.spec
      have hfirst := (Later.of_steps hopened .refl hsteps).found bytes' hold
      simp only [System.initial] at hfirst
      split at hfirst
      · cases hfirst
      · cases mem_singleton.mp hfirst
        exact .inr ⟨hold, hnum.found bytes hold, hleaves⟩

/-- Crash at any point of any run: whatever content survives, replaying it gives the
sessions at opening with some issued writes applied in order (or, if the log has never
been sound since, the sessions of the file it was opened on).  Every write that was
answered `Ok` is among them, so its effect is there unless a later replayed write to
the same client took its place; and no write is that was refused before a moment at
which the log was sound. -/
theorem replay_after_crash {bytes : Option Bytes} {s₀ : System} (hopened : Opened json bytes s₀)
    (hsteps : Steps json s₀ s) {b : Option Bytes} (hb : b ∈ s.disk.survivors) :
    ∃ (origin : Records) (replayed : List Issued),
      replayedRecords json b = applyWrites origin (replayed.map Issued.write) ∧
      replayed.Sublist s.history.issued ∧
      (origin = sessionRecords s₀.state.sessions ∨
        origin = replayedRecords json bytes ∧
          ∀ s₁, Steps json s₀ s₁ → Steps json s₁ s → s₁.writer.health ≠ .sound) ∧
      (∀ i ∈ s.history.issued, i.seq ∈ s.history.oks → i ∈ replayed ∧
        (replayedRecords json b i.clientId = i.session ∨
          ∃ j ∈ replayed, i.seq < j.seq ∧ j.clientId = i.clientId ∧
            replayedRecords json b i.clientId = j.session)) ∧
      ∀ s₁, Steps json s₀ s₁ → Steps json s₁ s → s₁.writer.health = .sound →
        ∀ i ∈ replayed, i.seq ∉ s₁.history.errs := by
  have hnumbered := hopened.numbered_steps hsteps
  rcases exists_replayed hopened hsteps hb with ⟨ps, replayed, hreplays, hps⟩ | ⟨hfound, hnil, hmap⟩
  · have hpairwise := hnumbered.issued.sublist hreplays.sublist
    refine ⟨_, replayed, hreplays.map, hreplays.sublist, .inl rfl, ?_, ?_⟩
    · intro i hi hok
      obtain ⟨w, hw, haccounts⟩ := hnumbered.mem_logged hi hok
      have hseq := haccounts.seq
      obtain ⟨j, hj, hjseq⟩ := hreplays.logged w hw
      -- two issued writes with one number are the same
      obtain rfl : i = j :=
        inj_on_of_nodup_map ((pairwise_map.mpr hnumbered.issued).imp Nat.ne_of_lt)
        hi (hreplays.sublist.subset hj) (hseq.symm.trans hjseq.symm)
      rw [hreplays.map]
      exact ⟨hj, effect_of_mem hpairwise hj⟩
    · intro s₁ hfirst hlast hsound i hi herr
      have hlater := Later.of_steps hopened hfirst hlast
      rcases hreplays.only i hi with hlogged | hmem
      · rw [hnumbered.logged] at hlogged
        exact hnumbered.disjoint i.seq hlogged (hlater.errs herr)
      · obtain ⟨p, hp, hseq⟩ := mem_map.mp hmem
        have hold := (hopened.numbered_steps hfirst).answered i.seq (.inr herr)
        rcases hps with rfl | hresidue
        · -- the batch in flight is numbered past everything answered
          have hpast := hnumbered.flight p (mem_append_left _ hp)
          have hmono := hlater.settled
          omega
        · have hpast := hlater.failed hsound ps hresidue p hp
          omega
  · refine ⟨_, [], hmap, nil_sublist _, .inr ⟨rfl, ?_⟩, ?_, fun _ _ _ _ i hi => by cases hi⟩
    · intro s₁ hfirst hlast hsound
      have hkept := (Later.of_steps hopened hfirst hlast).found bytes hfound
      rw [(hopened.inv_steps hfirst).clean hsound] at hkept
      cases hkept
    · intro i hi hok
      obtain ⟨w, hw, -⟩ := hnumbered.mem_logged hi hok
      rw [hnil] at hw
      cases hw

end

/-- A crash after a session was stored and answered leaves a file that replays to it. -/
theorem replay_after_crash_stored : ∃ s : System, 1 ∈ s.history.oks ∧ s.disk.survivors.Nonempty ∧
    ∀ b ∈ s.disk.survivors,
      replayedRecords connectedJson b "a" = some connectedSession.toSessionRecord := by
  obtain ⟨_, s, hopened, hsteps, -, -, hok, -, hsurvivors, hissued⟩ := connectedSession_settles
  refine ⟨s, hok, hsurvivors, fun b hb => ?_⟩
  obtain ⟨_, _, -, hsub, -, hoks, -⟩ := replay_after_crash hopened hsteps hb
  obtain ⟨-, heffect⟩ := hoks ⟨1, "a", some connectedSession.toSessionRecord⟩
    (hissued ▸ mem_cons_self) hok
  rcases heffect with hself | ⟨j, hj, hlt, -⟩
  · exact hself
  · -- there is no second write
    have hmem := hsub.subset hj
    rw [hissued] at hmem
    rw [mem_singleton.mp hmem] at hlt
    exact absurd hlt (Nat.lt_irrefl 1)

end MqttLib.SessionLog
