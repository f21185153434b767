/-
MqttLib.SessionLog.Sequence

Sequence numbers.  Entries are numbered in the order they are queued, a flush
answers a run of consecutive numbers, and every number is answered at most once.
`Numbered` keeps this together with what each entry stands for: the write a caller
issued under its number.
-/

import MqttLib.SessionLog.Invariant

namespace MqttLib.SessionLog

open Foundation Storage Protocol SessionLog.System List

/-- The entry stands for the write that was issued. -/
structure Accounts (json : SerdeJson) (w : Nat × WriteEntry) (i : Issued) : Prop where
  seq : w.1 = i.seq
  write : lineWrite json w.2.line = some i.write

/-- Every write of the list was issued. -/
def Recorded (json : SerdeJson) (issued : List Issued) (ps : List Pending) : Prop :=
  ∀ w ∈ writesOf ps, ∃ i ∈ issued, Accounts json w i

/-- The list is in sequence order. -/
def Ordered (ps : List Pending) : Prop := ps.Pairwise fun p q => p.seq < q.seq

/-- A failed batch whose lines may still be in the file. -/
structure Failed (json : SerdeJson) (h : History) (batch : List Pending) : Prop where
  ordered : Ordered (h.logged ++ batch)
  refused : ∀ p ∈ batch, p.seq ∈ h.errs
  recorded : Recorded json h.issued batch

/-- How numbers, answers and entries hang together. -/
structure Numbered (json : SerdeJson) (s : System) : Prop where
  ordered : Ordered (s.history.logged ++ s.inFlight)
  flight : ∀ p ∈ s.inFlight, s.state.settledSeq < p.seq
  answered : ∀ n, n ∈ s.history.oks ∨ n ∈ s.history.errs → n ≤ s.state.settledSeq
  below : ∀ p ∈ s.inFlight, p.seq < s.state.nextSeq
  settled : s.state.settledSeq < s.state.nextSeq
  logged : s.history.logged.map Pending.seq = s.history.oks
  disjoint : ∀ n ∈ s.history.oks, n ∉ s.history.errs
  issued : s.history.issued.Pairwise fun i j => i.seq < j.seq
  issuedBelow : ∀ i ∈ s.history.issued, i.seq < s.state.nextSeq
  recorded : Recorded json s.history.issued (s.history.logged ++ s.inFlight)
  covered : ∀ i ∈ s.history.issued, i.seq ∈ s.history.errs ∨
    ∃ w ∈ writesOf (s.history.logged ++ s.inFlight), w.1 = i.seq
  failed : ∀ batch, .failed batch ∈ s.history.residue → Failed json s.history batch
  found : ∀ bytes, .found bytes ∈ s.history.residue → s.history.logged = []

section

variable {json : SerdeJson} {s s' : System}

theorem Numbered.congr (h : Numbered json s) (hfli : s'.inFlight = s.inFlight)
    (hnext : s'.state.nextSeq = s.state.nextSeq) (hsettl : s'.state.settledSeq = s.state.settledSeq)
    (hissued : s'.history.issued = s.history.issued) (hoks : s'.history.oks = s.history.oks)
    (herrs : s'.history.errs = s.history.errs) (hlogged : s'.history.logged = s.history.logged)
    (hresid : ∀ r ∈ s'.history.residue, r ∈ s.history.residue) : Numbered json s' where
  ordered := by rw [hlogged, hfli]; exact h.ordered
  flight := by rw [hfli, hsettl]; exact h.flight
  answered := by rw [hoks, herrs, hsettl]; exact h.answered
  below := by rw [hfli, hnext]; exact h.below
  settled := by rw [hsettl, hnext]; exact h.settled
  logged := by rw [hlogged, hoks]; exact h.logged
  disjoint := by rw [hoks, herrs]; exact h.disjoint
  issued := by rw [hissued]; exact h.issued
  issuedBelow := by rw [hissued, hnext]; exact h.issuedBelow
  recorded := by rw [hissued, hlogged, hfli]; exact h.recorded
  covered := by rw [hissued, herrs, hlogged, hfli]; exact h.covered
  failed batch hmem := by
    obtain ⟨hordd, href, hrecd⟩ := h.failed batch (hresid _ hmem)
    refine ⟨?_, ?_, ?_⟩
    · rw [hlogged]; exact hordd
    · rw [herrs]; exact href
    · rw [hissued]; exact hrecd
  found bytes hmem := by rw [hlogged]; exact h.found bytes (hresid _ hmem)

variable {ps : List Pending} {p : Pending} {writes : List Issued} {batch : List Pending}

theorem Recorded.mono {issued issued' : List Issued} {qs : List Pending}
    (h : Recorded json issued ps) (hissued : issued ⊆ issued') (hps : qs ⊆ ps) :
    Recorded json issued' qs := by
  intro w hw
  obtain ⟨i, hi, hacct⟩ := h w (mem_writesOf.mpr (hps (mem_writesOf.mp hw)))
  exact ⟨i, hissued hi, hacct⟩

/-- A new entry gets the next number. -/
theorem Ordered.snoc {ps : List Pending} {p : Pending} (h : Ordered ps)
    (hlast : ∀ q ∈ ps, q.seq < p.seq) : Ordered (ps ++ [p]) := by
  refine pairwise_append.mpr ⟨h, pairwise_singleton _ _, fun q hq _ hp' => ?_⟩
  rw [mem_singleton.mp hp']
  exact hlast q hq

theorem Numbered.logged_le (h : Numbered json s) (hp : p ∈ s.history.logged) :
    p.seq ≤ s.state.settledSeq := by
  have hok : p.seq ∈ s.history.oks := h.logged ▸ mem_map_of_mem hp
  exact h.answered p.seq (.inl hok)

/-- A write that was answered `Ok` is in the log. -/
theorem Numbered.mem_logged {i : Issued} (h : Numbered json s) (hi : i ∈ s.history.issued)
    (hok : i.seq ∈ s.history.oks) : ∃ w ∈ writesOf s.history.logged, Accounts json w i := by
  rcases h.covered i hi with herr | ⟨w, hw, hseq⟩
  · exact absurd herr (h.disjoint i.seq hok)
  · obtain ⟨j, hj, haccounts⟩ := h.recorded w hw
    have hdistinct : (s.history.issued.map Issued.seq).Nodup :=
      (pairwise_map.mpr h.issued).imp fun hlt => Nat.ne_of_lt hlt
    obtain rfl := inj_on_of_nodup_map hdistinct hj hi (haccounts.seq.symm.trans hseq)
    rw [writesOf_append] at hw
    rcases mem_append.mp hw with hw | hw
    · exact ⟨w, hw, haccounts⟩
    · have hsettled := h.answered j.seq (.inl hok)
      have hpast := h.flight _ (mem_writesOf.mp hw)
      simp only at hpast
      omega

/-- Queueing an entry, with or without a write. -/
theorem Numbered.enqueue (h : Numbered json s) (entry : Entry) (new : List Issued)
    (hissued : s'.history.issued = s.history.issued ++ new)
    (hfli : s'.inFlight = s.inFlight ++ [⟨s.state.nextSeq, entry⟩])
    (hnext : s'.state.nextSeq = s.state.nextSeq + 1)
    (hsettl : s'.state.settledSeq = s.state.settledSeq)
    (hoks : s'.history.oks = s.history.oks) (herrs : s'.history.errs = s.history.errs)
    (hlogged : s'.history.logged = s.history.logged)
    (hresid : s'.history.residue = s.history.residue) (hnew : new = [] ∧ entry = .barrier ∨
      ∃ e i, entry = .write e ∧ new = [i] ∧ Accounts json (s.state.nextSeq, e) i) :
    Numbered json s' := by
  have hsub : s.history.issued ⊆ s'.history.issued := by
    rw [hissued]
    exact subset_append_left _ _
  refine
    { ordered := ?_, flight := ?_, answered := ?_, below := ?_, settled := ?_, logged := ?_,
      disjoint := ?_, issued := ?_, issuedBelow := ?_, recorded := ?_, covered := ?_, failed := ?_,
      found := ?_ }
  · rw [hlogged, hfli, ← append_assoc]
    exact h.ordered.snoc fun q hq => (mem_append.mp hq).elim
      (fun hq => (h.logged_le hq).trans_lt h.settled) (h.below q)
  · rw [hfli, hsettl]
    intro p hp
    rcases mem_append.mp hp with hp | hp
    · exact h.flight p hp
    · rw [mem_singleton.mp hp]
      exact h.settled
  · rw [hoks, herrs, hsettl]
    exact h.answered
  · rw [hfli, hnext]
    intro p hp
    rcases mem_append.mp hp with hp | hp
    · exact Nat.lt_succ_of_lt (h.below p hp)
    · rw [mem_singleton.mp hp]
      exact Nat.lt_succ_self _
  · rw [hsettl, hnext]
    exact Nat.lt_succ_of_lt h.settled
  · rw [hlogged, hoks]
    exact h.logged
  · rw [hoks, herrs]
    exact h.disjoint
  · rw [hissued]
    rcases hnew with ⟨rfl, -⟩ | ⟨e, i, -, rfl, hacct⟩
    · simpa using h.issued
    · refine pairwise_append.mpr ⟨h.issued, pairwise_singleton _ _, fun j hj k hk => ?_⟩
      rw [mem_singleton.mp hk, ← hacct.seq]
      exact h.issuedBelow j hj
  · rw [hissued, hnext]
    intro j hj
    rcases mem_append.mp hj with hj | hj
    · exact Nat.lt_succ_of_lt (h.issuedBelow j hj)
    · rcases hnew with ⟨rfl, -⟩ | ⟨e, i, -, rfl, hacct⟩
      · cases hj
      · rw [mem_singleton.mp hj, ← hacct.seq]
        exact Nat.lt_succ_self _
  · rw [hlogged, hfli, ← append_assoc]
    intro w hw
    rw [writesOf_append] at hw
    rcases mem_append.mp hw with hw | hw
    · obtain ⟨i, hi, hacct⟩ := h.recorded w hw
      exact ⟨i, hsub hi, hacct⟩
    · rcases hnew with ⟨-, rfl⟩ | ⟨e, i, rfl, rfl, hacct⟩
      · cases hw
      · obtain rfl := mem_singleton.mp hw
        exact ⟨i, hissued ▸ mem_append_right _ mem_cons_self, hacct⟩
  · rw [hissued, herrs, hlogged, hfli, ← append_assoc, writesOf_append]
    intro j hj
    rcases mem_append.mp hj with hj | hj
    · rcases h.covered j hj with herr | ⟨w, hw, hseq⟩
      · exact .inl herr
      · exact .inr ⟨w, mem_append_left _ hw, hseq⟩
    · rcases hnew with ⟨rfl, -⟩ | ⟨e, i, rfl, rfl, hacct⟩
      · cases hj
      · obtain rfl := mem_singleton.mp hj
        exact .inr ⟨(s.state.nextSeq, e), mem_append_right _ mem_cons_self, hacct.seq⟩
  · rw [hresid]
    intro batch hbatch
    obtain ⟨hordd, href, hrecd⟩ := h.failed batch hbatch
    refine ⟨?_, ?_, hrecd.mono hsub (List.Subset.refl _)⟩
    · rw [hlogged]
      exact hordd
    · rw [herrs]
      exact href
  · rw [hresid, hlogged]
    exact h.found

theorem Numbered.apply (h : Numbered json s) (hinv : KeysOk s.state.sessions) (clientId : String)
    (decision : Decision clientId) : Numbered json (s.apply json clientId decision) := by
  -- an encoded change is queued and issued under the same number
  have hwrite : ∀ (session : Option ClientSession) (line : Bytes),
      encode json clientId (session.map fun c => c.toSessionRecord) = .ok line →
      (∀ c ∈ session, c.clientId = clientId) →
      Numbered json (s.enqueueWrite clientId line session) := by
    intro session line henc hown
    refine h.enqueue (.write ⟨clientId, line, session.isSome, s.state.sessions.lookup clientId⟩)
      [⟨s.state.nextSeq, clientId, session.map fun c => c.toSessionRecord⟩] rfl ?_ rfl rfl rfl rfl
      rfl rfl (.inr ⟨_, _, rfl, rfl, rfl, ?_⟩)
    · exact (append_assoc _ _ _).symm
    · refine lineWrite_encode henc fun r hr => ?_
      obtain ⟨c, hc, rfl⟩ := Option.map_eq_some_iff.mp hr
      exact hown c hc
  unfold System.apply
  cases hdecide : decision.decide (s.state.sessions.lookup clientId) with
  | none =>
    simp only
    split
    · exact h
    · refine h.enqueue .barrier [] (append_nil _).symm ?_ rfl rfl rfl rfl rfl rfl (.inl ⟨rfl, rfl⟩)
      exact (append_assoc _ _ _).symm
  | some change =>
    cases change with
    | put session =>
      have hown : session.clientId = clientId :=
        decision.keeps _ session (fun c hc => hinv clientId c hc) hdecide
      cases henc : encode json clientId (some session.toSessionRecord) with
      | error e => simpa only [henc] using h
      | ok line =>
        simp only [henc]
        refine hwrite (some session) line henc fun c hc => ?_
        obtain rfl : session = c := Option.some.inj hc
        exact hown
    | remove =>
      cases henc : encode json clientId none with
      | error e => exact h
      | ok line => exact hwrite none line henc (fun c hc => by cases hc)

/-- The last number of an ordered list is its greatest. -/
theorem Ordered.le_last (h : Ordered ps) (n : Nat) (hp : p ∈ ps) :
    p.seq ≤ (ps.getLast?.map Pending.seq).getD n := by
  induction ps using reverseRecOn with
  | nil => cases hp
  | append_singleton ps q _ =>
    rw [getLast?_concat]
    rcases mem_append.mp hp with hp | hp
    · exact Nat.le_of_lt ((pairwise_append.mp h).2.2 p hp q mem_cons_self)
    · exact Nat.le_of_eq (congrArg Pending.seq (mem_singleton.mp hp))

theorem settled_le_last {n : Nat} (h : ∀ p ∈ ps, n < p.seq) :
    n ≤ (ps.getLast?.map Pending.seq).getD n := by
  cases hlast : ps.getLast? with
  | none => exact Nat.le_refl n
  | some p => exact Nat.le_of_lt (h p (mem_of_getLast? hlast))

theorem last_lt {n m : Nat} (hn : n < m) (h : ∀ p ∈ ps, p.seq < m) :
    (ps.getLast?.map Pending.seq).getD n < m := by
  cases hlast : ps.getLast? with
  | none => exact hn
  | some p => exact h p (mem_of_getLast? hlast)

theorem inFlight_settle (s : System) (batch : List Pending) :
    (s.settle batch).inFlight = s.state.pending := by
  change (afterReport s.writer).batch ++ s.state.pending = s.state.pending
  rw [batch_afterReport, nil_append]

theorem inFlight_fail (s : System) (batch : List Pending) : (s.fail batch).inFlight = [] := by
  change (afterReport s.writer).batch ++ [] = []
  rw [batch_afterReport, nil_append]

theorem Numbered.settle (h : Numbered json s)
    (hph : s.phase = .reporting batch (.ok ())) (hresid : s.history.residue = []) :
    Numbered json (s.settle batch) := by
  have hfli : s.inFlight = batch ++ s.state.pending := by
    rw [System.inFlight, System.batch, hph]
    rfl
  have hsplit : s.history.logged ++ s.inFlight =
      (s.history.logged ++ batch) ++ s.state.pending := by
    rw [hfli, append_assoc]
  have hbatch : ∀ p ∈ batch, p ∈ s.inFlight := fun p hp => hfli ▸ mem_append_left _ hp
  have hpend : ∀ p ∈ s.state.pending, p ∈ s.inFlight := fun p hp => hfli ▸ mem_append_right _ hp
  have hordd := h.ordered
  rw [hsplit] at hordd
  have hle := settled_le_last fun p hp => h.flight p (hbatch p hp)
  have hbatchOrdered : Ordered batch := (pairwise_append.mp (pairwise_append.mp hordd).1).2.1
  refine
    { ordered := ?_, flight := ?_, answered := ?_, below := ?_, settled := ?_, logged := ?_,
      disjoint := ?_, issued := h.issued, issuedBelow := h.issuedBelow, recorded := ?_,
      covered := ?_, failed := ?_, found := ?_ }
  · rw [inFlight_settle]
    exact hordd
  · rw [inFlight_settle]
    intro p hp
    refine last_lt (h.flight p (hpend p hp)) fun q hq => ?_
    exact (pairwise_append.mp hordd).2.2 q (mem_append_right _ hq) p hp
  · rintro n (hn | hn)
    · rcases mem_append.mp hn with hn | hn
      · exact (h.answered n (.inl hn)).trans hle
      · obtain ⟨p, hp, rfl⟩ := mem_map.mp hn
        exact hbatchOrdered.le_last _ hp
    · exact (h.answered n (.inr hn)).trans hle
  · rw [inFlight_settle]
    exact fun p hp => h.below p (hpend p hp)
  · exact last_lt h.settled fun p hp => h.below p (hbatch p hp)
  · change (s.history.logged ++ batch).map Pending.seq = _
    rw [map_append, h.logged]
    rfl
  · intro n hn hnerr
    rcases mem_append.mp hn with hn | hn
    · exact h.disjoint n hn hnerr
    · obtain ⟨p, hp, rfl⟩ := mem_map.mp hn
      have hsettl := h.answered p.seq (.inr hnerr)
      have hpast := h.flight p (hbatch p hp)
      omega
  · rw [inFlight_settle]
    change Recorded json s.history.issued ((s.history.logged ++ batch) ++ s.state.pending)
    rw [← hsplit]
    exact h.recorded
  · intro i hi
    rw [inFlight_settle]
    change _ ∨ ∃ w ∈ writesOf ((s.history.logged ++ batch) ++ s.state.pending), _
    rw [← hsplit]
    exact h.covered i hi
  · intro old hold
    change Residue.failed old ∈ s.history.residue at hold
    rw [hresid] at hold
    cases hold
  · intro bytes hbytes
    change Residue.found bytes ∈ s.history.residue at hbytes
    rw [hresid] at hbytes
    cases hbytes

theorem Numbered.fail (h : Numbered json s) {e : MqttError}
    (hph : s.phase = .reporting batch (.error e)) : Numbered json (s.fail batch) := by
  have hfli : batch ++ s.state.pending = s.inFlight := by
    rw [System.inFlight, System.batch, hph]
    rfl
  have hbatch : ∀ p ∈ batch, p ∈ s.inFlight := fun p hp => hfli ▸ mem_append_left _ hp
  obtain ⟨hloggedOrdered, hflightOrdered, hcross⟩ := pairwise_append.mp h.ordered
  have hle := settled_le_last h.flight
  have herrs : (s.fail batch).history.errs = s.history.errs ++ s.inFlight.map Pending.seq := by
    rw [← hfli]
    rfl
  have hsettl : (s.fail batch).state.settledSeq =
      (s.inFlight.getLast?.map Pending.seq).getD s.state.settledSeq := by
    rw [← hfli]
    rfl
  refine
    { ordered := ?_, flight := ?_, answered := ?_, below := ?_, settled := ?_, logged := h.logged,
      disjoint := ?_, issued := h.issued, issuedBelow := h.issuedBelow, recorded := ?_,
      covered := ?_, failed := ?_, found := ?_ }
  · rw [inFlight_fail, append_nil]
    exact hloggedOrdered
  · rw [inFlight_fail]
    exact fun p hp => by cases hp
  · rw [herrs, hsettl]
    rintro n (hn | hn)
    · exact (h.answered n (.inl hn)).trans hle
    · rcases mem_append.mp hn with hn | hn
      · exact (h.answered n (.inr hn)).trans hle
      · obtain ⟨p, hp, rfl⟩ := mem_map.mp hn
        exact Ordered.le_last hflightOrdered _ hp
  · rw [inFlight_fail]
    exact fun p hp => by cases hp
  · rw [hsettl]
    exact last_lt h.settled h.below
  · rw [herrs]
    intro n hn hnerr
    rcases mem_append.mp hnerr with hnerr | hnerr
    · exact h.disjoint n hn hnerr
    · obtain ⟨p, hp, rfl⟩ := mem_map.mp hnerr
      have hsettl := h.answered p.seq (.inl hn)
      have hpast := h.flight p hp
      omega
  · rw [inFlight_fail, append_nil]
    exact h.recorded.mono (List.Subset.refl _) (subset_append_left _ _)
  · intro i hi
    rw [herrs, inFlight_fail, append_nil]
    rcases h.covered i hi with herr | ⟨w, hw, hseq⟩
    · exact .inl (mem_append_left _ herr)
    · rw [writesOf_append] at hw
      rcases mem_append.mp hw with hw | hw
      · exact .inr ⟨w, hw, hseq⟩
      · refine .inl (mem_append_right _ (mem_map.mpr ⟨_, mem_writesOf.mp hw, hseq⟩))
  · intro old hold
    have hsub : s.history.errs ⊆ (s.fail batch).history.errs := by
      rw [herrs]
      exact subset_append_left _ _
    have hmem : old = batch ∨ Residue.failed old ∈ s.history.residue := by
      change Residue.failed old ∈ (if s.writer.health = .sound then [] else _) at hold
      split at hold
      · cases hold
      · rcases mem_cons.mp hold with heq | hold
        · exact .inl (by cases heq; rfl)
        · exact .inr hold
    rcases hmem with rfl | hold
    · refine ⟨?_, ?_, h.recorded.mono (List.Subset.refl _) ?_⟩
      · rw [← hfli] at hflightOrdered hcross
        refine pairwise_append.mpr ⟨hloggedOrdered, (pairwise_append.mp hflightOrdered).1, ?_⟩
        exact fun p hp q hq => hcross p hp q (mem_append_left _ hq)
      · intro p hp
        rw [herrs]
        exact mem_append_right _ (mem_map_of_mem (hbatch p hp))
      · exact fun p hp => mem_append_right _ (hbatch p hp)
    · obtain ⟨hordd, href, hrecd⟩ := h.failed old hold
      exact ⟨hordd, fun p hp => hsub (href p hp), hrecd⟩
  · intro bytes hbytes
    change Residue.found bytes ∈ (if s.writer.health = .sound then [] else _) at hbytes
    split at hbytes
    · cases hbytes
    · rcases mem_cons.mp hbytes with heq | hbytes
      · cases heq
      · exact h.found bytes hbytes

/-- A move of the writer brings no new residue. -/
theorem residue_moved (s : System) (phase : Phase) (w : LogWriter) (d : Disk) :
    ∀ r ∈ (s.moved phase w d).history.residue, r ∈ s.history.residue := by
  intro r hr
  simp only [moved] at hr
  split at hr
  · cases hr
  · exact hr

theorem Numbered.step {start : Records} (h : Numbered json s) (hinv : Inv json start s)
    (hstep : Step json s s') : Numbered json s' := by
  cases hstep with
  | apply clientId decision => exact h.apply hinv.session.keysOk clientId decision
  | beginFlush hidle htask =>
    refine h.congr ?_ rfl rfl rfl rfl rfl rfl (fun r hr => hr)
    rw [inFlight, inFlight, s.batch_beginFlush, batch, hidle]
    exact append_nil _
  | appendIo batch p p' w d hph hstep =>
    refine h.congr ?_ rfl rfl rfl rfl rfl rfl (residue_moved s _ w d)
    rw [System.inFlight, System.inFlight, System.batch, System.batch, hph]
    rfl
  | appendReturn batch r hph =>
    refine h.congr ?_ rfl rfl rfl rfl rfl rfl (fun r hr => hr)
    rw [System.inFlight, System.inFlight, System.batch, System.batch, hph]
    rfl
  | settle batch hph =>
    have hwriter := hinv.writer
    rw [hph] at hwriter
    exact h.settle hph (hinv.clean hwriter.1)
  | fail batch e hph => exact h.fail hph
  | compactIo p p' w d hph hstep =>
    refine h.congr ?_ rfl rfl rfl rfl rfl rfl (residue_moved s _ w d)
    rw [inFlight, inFlight, batch, batch, hph]
    rfl
  | compactReturn r hph =>
    refine h.congr ?_ rfl rfl rfl rfl rfl rfl (fun r hr => hr)
    rw [inFlight, inFlight, batch, batch, hph]
    rfl

theorem numbered_initial (bytes : Option Bytes) (sessions : Table String ClientSession)
    (w : LogWriter) (d : Disk) : Numbered json (initial bytes sessions w d) where
  ordered := .nil
  flight _ hp := by cases hp
  answered n hn := by rcases hn with hn | hn <;> cases hn
  below _ hp := by cases hp
  settled := Nat.one_pos
  logged := rfl
  disjoint n hn := by cases hn
  issued := .nil
  issuedBelow _ hi := by cases hi
  recorded _ hw := by cases hw
  covered _ hi := by cases hi
  failed batch hbatch := by
    simp only [initial] at hbatch
    split at hbatch
    · cases hbatch
    · cases mem_singleton.mp hbatch
  found _ _ := rfl

/-- Every state of a run of an opened log is numbered. -/
theorem Opened.numbered_steps {bytes : Option Bytes} {s₀ : System} (h : Opened json bytes s₀)
    (hsteps : Steps json s₀ s) : Numbered json s := by
  induction hsteps with
  | refl =>
    obtain ⟨sessions, w, d, rfl, -⟩ := h.spec
    exact numbered_initial bytes sessions w d
  | tail hs hstep ih => exact ih.step (h.inv_steps hs) hstep

/-- The issued writes that entries in order stand for. -/
theorem Recorded.exists_sublist {issued : List Issued} (h : Recorded json issued ps)
    (hordd : Ordered ps) (hissued : issued.Pairwise fun i j => i.seq < j.seq) :
    ∃ writes, writes.Sublist issued ∧ List.Forall₂ (Accounts json) (writesOf ps) writes := by
  refine exists_sublist_of_pairwise (f := fun w => w.1) (fun w i ha => ha.seq) ?_ hissued h
  refine List.Pairwise.filterMap Pending.write? (fun p q hpq w hw v hv => ?_) hordd
  obtain ⟨n, entry⟩ := p
  obtain ⟨m, entry'⟩ := q
  cases entry with
  | barrier => cases hw
  | write e =>
    cases entry' with
    | barrier => cases hv
    | write _ =>
      cases hw
      cases hv
      exact hpq

theorem lineWrites_of_accounts {ws : List (Nat × WriteEntry)}
    (h : List.Forall₂ (Accounts json) ws writes) :
    lineWrites json (ws.map fun w => w.2.line) = writes.map Issued.write := by
  induction h with
  | nil => rfl
  | cons hhead _ ih =>
    rw [map_cons, lineWrites_cons, hhead.write, ih]
    rfl

theorem entryWrites_of_accounts (h : List.Forall₂ (Accounts json) (writesOf ps) writes) :
    entryWrites json ps = writes.map Issued.write := by
  rw [entryWrites_eq]
  exact lineWrites_of_accounts h

end

end MqttLib.SessionLog
