/-
MqttLib.SessionLog.Recovery

What the writer's programs guarantee across faults and crashes, stated with
`Prog.Safe`.  `base` is the map of stored sessions the durable table stands for.
At every point of a program each content a crash may leave replays to one of the
maps `E` allows (`Surviving`), `base` being one of them.  Which are allowed may
depend on the writer's health: a sound log allows the fewest.

The specification of appending to a sound log (`safe_appendSound`) is assembled from one
lemma for each method it calls.
-/

import MqttLib.SessionLog.Writer

namespace MqttLib.SessionLog

open Foundation Storage Protocol LogWriter Prog List Option Table Function

/-- The stored sessions by client id. -/
abbrev Records := String → Option SessionRecord

/-- A write to the stored sessions. -/
abbrev RecordWrite := String × Option SessionRecord

/-- What reopening the log on these contents replays. -/
def replayedRecords (json : SerdeJson) : Option Bytes → Records
  | none => fun _ => none
  | some bytes => Loaded.records (replay json 0 bytes ∅).1

/-- Every content a crash may leave replays to an allowed map. -/
def Surviving (json : SerdeJson) (allowed : Records → Prop) (d : Disk) : Prop :=
  ∀ b ∈ d.survivors, allowed (replayedRecords json b)

/-- The durable table stands for `base`, line by line, and is accounted for. -/
structure DurableOk (json : SerdeJson) (base : Records) (w : LogWriter) : Prop where
  line : ∀ id segment, w.durable.lookup id = some segment →
    IsLine newline segment ∧ ∃ r, lineWrite json segment = some (id, some r) ∧ base id = some r
  absent : ∀ id, w.durable.lookup id = none → base id = none
  liveBytes : w.liveBytes = (w.durable.values.map length).sum

/-- The file is exactly a sequence of lines that replays to `base`, all of it safely
stored, and the writer knows its length. -/
structure Clean (json : SerdeJson) (base : Records) (w : LogWriter) (d : Disk) : Prop where
  stale : d.stale = ∅
  file : ∃ ls : List Bytes, d.log = some (File.stored ls.flatten) ∧
    (∀ l ∈ ls, IsLine newline l) ∧ applyWrites (fun _ => none) (lineWrites json ls) = base ∧
    w.len = ls.flatten.length

section

variable {json : SerdeJson} {base : Records} {ls : List Bytes}

/-! ## Replaying -/

theorem replayedRecords_lines (hls : ∀ l ∈ ls, IsLine newline l) {t : Bytes} (ht : newline ∉ t) :
    replayedRecords json (some (ls.flatten ++ t)) =
      applyWrites (fun _ => none) (lineWrites json ls) := by
  have hemp : Loaded.records ∅ = fun _ => none := by
    funext id
    simp [Loaded.records]
  rw [replayedRecords, replay_lines hls ht, hemp]

theorem replayedRecords_flatten (hls : ∀ l ∈ ls, IsLine newline l) :
    replayedRecords json (some ls.flatten) =
      applyWrites (fun _ => none) (lineWrites json ls) := by
  rw [← append_nil ls.flatten]
  exact replayedRecords_lines hls not_mem_nil

/-- A part of an append: the lines that are complete count, the torn one does not. -/
theorem replayedRecords_append_part {ls batch : List Bytes} (hls : ∀ l ∈ ls, IsLine newline l)
    (hbatch : ∀ l ∈ batch, IsLine newline l) {p : Bytes} (hp : p <+: batch.flatten) :
    ∃ k, replayedRecords json (some (ls.flatten ++ p)) =
      applyWrites (applyWrites (fun _ => none) (lineWrites json ls))
        (lineWrites json (batch.take k)) := by
  obtain ⟨k, t, rfl, ht⟩ := prefix_flatten_lines hbatch hp
  refine ⟨k, ?_⟩
  have hall : ∀ l ∈ ls ++ batch.take k, IsLine newline l := by
    intro l hl
    rcases mem_append.mp hl with hl | hl
    · exact hls l hl
    · exact hbatch l (mem_of_mem_take hl)
  rw [← append_assoc, ← flatten_append, replayedRecords_lines hall ht,
    lineWrites_append, applyWrites_append]

/-! ## The durable table -/

variable {w : LogWriter} {order : List Bytes}

section

variable (hw : DurableOk json base w) (horder : (order : Multiset Bytes) = w.durable.values)
include hw horder

/-- Every write in a listing of the table is the one of its own line. -/
theorem mem_lineWrites_listing {write : RecordWrite} (h : write ∈ lineWrites json order) :
    write.2 = base write.1 ∧ ∃ segment, w.durable.lookup write.1 = some segment := by
  obtain ⟨segment, hseg, hwrite⟩ := mem_flatMap.mp h
  have hval : segment ∈ w.durable.values := by rw [← horder]; exact hseg
  obtain ⟨id, hlook⟩ := mem_values.mp hval
  obtain ⟨-, r, hline, hbase⟩ := hw.line id segment hlook
  rw [hline] at hwrite
  obtain rfl := some.inj (mem_toList.mp hwrite)
  exact ⟨hbase.symm, segment, hlook⟩

/-- The lines of the table, listed in any order, replay to what it stands for. -/
theorem applyWrites_listing : applyWrites (fun _ => none) (lineWrites json order) = base := by
  funext id
  cases hlook : w.durable.lookup id with
  | some segment =>
    obtain ⟨-, r, hwrite, -⟩ := hw.line id segment hlook
    have hseg : segment ∈ order := by
      rw [← Multiset.mem_coe, horder]
      exact mem_values.mpr ⟨id, hlook⟩
    refine applyWrites_eq_of_forall ⟨(id, some r), ?_, rfl⟩ ?_
    · exact mem_flatMap.mpr ⟨segment, hseg, by simp [hwrite]⟩
    · intro write hmem hid
      rw [(mem_lineWrites_listing hw horder hmem).1, hid]
  | none =>
    rw [applyWrites_of_not_mem, hw.absent id hlook]
    intro write hmem hid
    obtain ⟨-, segment, hsome⟩ := mem_lineWrites_listing hw horder hmem
    rw [hid, hlook] at hsome
    cases hsome

theorem isLine_listing : ∀ l ∈ order, IsLine newline l := by
  intro l hl
  have hval : l ∈ w.durable.values := by rw [← horder]; exact hl
  obtain ⟨id, hlook⟩ := mem_values.mp hval
  exact (hw.line id l hlook).1

theorem length_listing : order.flatten.length = w.liveBytes := by
  rw [hw.liveBytes, ← horder, length_flatten]
  simp

end

/-- A line of a batch says what its entry says. -/
structure LineOk (json : SerdeJson) (l : LogLine) : Prop where
  isLine : IsLine newline l.line
  write : ∃ session : Option SessionRecord,
    lineWrite json l.line = some (l.clientId, session) ∧ l.live = session.isSome

/-- The total size of the values without one key's. -/
theorem sum_erase (m : Table String Bytes) (id : String) :
    ((values (m.erase id)).map length).sum =
      (m.values.map length).sum - (m.lookup id).elim 0 length := by
  cases h : m.lookup id with
  | some _ =>
    rw [values_erase_of_lookup h, Multiset.map_cons, Multiset.sum_cons, elim_some]
    omega
  | none => rw [erase_of_lookup_none h, elim_none, Nat.sub_zero]

theorem DurableOk.recordDurable (hw : DurableOk json base w) {l : LogLine} (hl : LineOk json l) :
    DurableOk json (applyWrites base (lineWrite json l.line).toList)
      (w.recordDurable l.clientId l.line l.live) := by
  obtain ⟨session, hwrite, hlive⟩ := hl.write
  have hbase : applyWrites base (lineWrite json l.line).toList =
      update base l.clientId session := by rw [hwrite]; rfl
  rw [hbase]
  have hsum := sum_erase w.durable l.clientId
  have hprev : (w.durable.lookup l.clientId).elim w.liveBytes
      (fun previous => w.liveBytes - previous.length) =
        ((values (w.durable.erase l.clientId)).map length).sum := by
    rw [hsum, ← hw.liveBytes]
    cases w.durable.lookup l.clientId <;> simp
  cases session with
  | some r =>
    have hrec : w.recordDurable l.clientId l.line l.live =
        { w with
          durable := w.durable.insert l.clientId l.line
          liveBytes := ((values (w.durable.erase l.clientId)).map length).sum
            + l.line.length } := by
      simp only [LogWriter.recordDurable, hlive, isSome_some, if_true, hprev]
    rw [hrec]
    refine ⟨?_, ?_, ?_⟩
    · intro id segment hlook
      rcases of_lookup_insert hlook with ⟨rfl, rfl⟩ | ⟨hid, hlook⟩
      · exact ⟨hl.isLine, r, hwrite, by simp⟩
      · rw [update_of_ne hid]
        exact hw.line id segment hlook
    · intro id hlook
      have hid : id ≠ l.clientId := by
        rintro rfl
        simp at hlook
      rw [update_of_ne hid]
      rw [Finmap.lookup_insert_of_ne _ hid] at hlook
      exact hw.absent id hlook
    · have hvalues : values (w.durable.insert l.clientId l.line) =
          l.line ::ₘ values (w.durable.erase l.clientId) := by
        rw [← insert_erase]
        exact values_insert_of_lookup_none (Finmap.lookup_erase _ _) _
      rw [hvalues, Multiset.map_cons, Multiset.sum_cons, Nat.add_comm]
  | none =>
    have hrec : w.recordDurable l.clientId l.line l.live =
        { w with
          durable := w.durable.erase l.clientId
          liveBytes := ((values (w.durable.erase l.clientId)).map length).sum } := by
      simp only [LogWriter.recordDurable, hlive, isSome_none, Bool.false_eq_true, if_false, hprev]
    rw [hrec]
    refine ⟨?_, ?_, rfl⟩
    · intro id segment hlook
      obtain ⟨hid, hlook⟩ := of_lookup_erase hlook
      rw [update_of_ne hid]
      exact hw.line id segment hlook
    · intro id hlook
      by_cases hid : id = l.clientId
      · subst hid
        simp
      · rw [update_of_ne hid]
        rw [Finmap.lookup_erase_ne hid] at hlook
        exact hw.absent id hlook

/-- The lines of a batch as bytes. -/
def batchLines (lines : List LogLine) : List Bytes := lines.map fun l => l.line

theorem DurableOk.recordLines (hw : DurableOk json base w) {lines : List LogLine}
    (hl : ∀ l ∈ lines, LineOk json l) :
    DurableOk json (applyWrites base (lineWrites json (batchLines lines)))
      (w.recordLines lines) := by
  induction lines generalizing base w with
  | nil => exact hw
  | cons l lines ih =>
    obtain ⟨hhead, htail⟩ := forall_mem_cons.mp hl
    have hrest := ih (hw.recordDurable hhead) htail
    rw [← applyWrites_append] at hrest
    exact hrest

end

/-! ## Rewriting the file -/

/-- Which maps a crash may leave, by the writer's health: the durable one always, and
a log that is sound allows the fewest. -/
structure Possible (base : Records) (E : Health → Records → Prop) : Prop where
  base : ∀ health, E health base
  mono : ∀ health R, E .sound R → E health R
  damaged : ∀ R, E .damagedOriginal R → E .needsRepair R

/-- The crash invariant of the writer's programs.  Under the guard `g` the log is in
addition not sound before the program returns. -/
structure CrashInv (json : SerdeJson) (base : Records) (E : Health → Records → Prop)
    (g : Prop) (w : LogWriter) (d : Disk) : Prop where
  durable : DurableOk json base w
  surviving : Surviving json (E w.health) d
  unsound : g → w.health ≠ .sound

/-- What a rewrite of the file leaves: the durable table as it was, and a clean log or
one that is known to need repair. -/
structure Rewritten (json : SerdeJson) (base : Records) (E : Health → Records → Prop)
    (r : Except MqttError Unit) (w : LogWriter) (d : Disk) : Prop where
  durable : DurableOk json base w
  surviving : Surviving json (E w.health) d
  ok : r = .ok () → w.health = .sound ∧ Clean json base w d
  error : ∀ e, r = .error e → w.health ≠ .sound

section

variable {json : SerdeJson} {base : Records} {E : Health → Records → Prop} {g : Prop}

variable {allowed : Records → Prop} {d : Disk} {w : LogWriter} {f : File} {lines : List LogLine}
  {batch : List Bytes}

theorem Surviving.mono {d' : Disk} (h : Surviving json allowed d)
    (hsub : d'.survivors ⊆ d.survivors) : Surviving json allowed d' :=
  fun b hb => h b (hsub hb)

theorem Surviving.weaken {allowed' : Records → Prop} (h : Surviving json allowed d)
    (hallowed : ∀ R, allowed R → allowed' R) : Surviving json allowed' d :=
  fun b hb => hallowed _ (h b hb)

theorem CrashInv.mono_disk {d' : Disk} (h : CrashInv json base E g w d)
    (hsub : d'.survivors ⊆ d.survivors) : CrashInv json base E g w d' :=
  ⟨h.durable, h.surviving.mono hsub, h.unsound⟩

theorem health_markForRepair (w : LogWriter) : w.markForRepair.health ≠ .sound := by
  unfold markForRepair
  split
  · simp
  · assumption

theorem Surviving.markForRepair (hE : Possible base E) (h : Surviving json (E w.health) d) :
    Surviving json (E w.markForRepair.health) d := by
  refine h.weaken fun R hR => ?_
  unfold LogWriter.markForRepair
  split
  · rename_i hsound
    rw [hsound] at hR
    exact hE.mono _ R hR
  · exact hR

theorem DurableOk.markForRepair (h : DurableOk json base w) :
    DurableOk json base w.markForRepair := by
  unfold LogWriter.markForRepair
  split
  · exact ⟨h.line, h.absent, h.liveBytes⟩
  · exact h

theorem safe_writeLines (lines : List Bytes) (hI : CrashInv json base E g w d)
    (htemp : d.temp = some f) :
    (writeLines lines).Safe Disk.device (CrashInv json base E g)
      (fun ok w' d' => w' = w ∧ d'.log = d.log ∧ d'.stale = d.stale ∧
        (ok → ∃ f', d'.temp = some f' ∧ f'.content = f.content ++ lines.flatten)) w d := by
  induction lines generalizing d f with
  | nil =>
    exact ⟨rfl, rfl, rfl, fun _ => ⟨f, htemp, by simp⟩⟩
  | cons _ lines ih =>
    rw [writeLines, safe_ask_bind]
    refine ⟨hI, fun ok d' hdev => ?_⟩
    obtain ⟨f₀, hf₀, written, -, hfull, rfl⟩ := hdev
    obtain rfl : f₀ = f := some.inj (hf₀.symm.trans htemp)
    cases ok with
    | false => exact ⟨rfl, rfl, rfl, fun h => absurd h (by simp)⟩
    | true =>
      obtain rfl := hfull rfl
      have hI' : CrashInv json base E g w { d with temp := some (f₀.appended written written) } :=
        hI.mono_disk subset_rfl
      refine (ih hI' rfl).mono_post fun ok w' d' h => ?_
      obtain ⟨rfl, hlog, hstale, hok⟩ := h
      refine ⟨rfl, hlog, hstale, fun h => ?_⟩
      obtain ⟨f', hf', hctnt⟩ := hok h
      exact ⟨f', hf', by rw [hctnt]; simp [File.appended]⟩

theorem safe_writeSnapshot (lines : List Bytes) (hI : CrashInv json base E g w d) :
    (writeSnapshot lines).Safe Disk.device (CrashInv json base E g)
      (fun r w' d' => w' = w ∧ CrashInv json base E g w d' ∧
        (r = .ok () → d'.temp = some (File.stored lines.flatten))) w d := by
  rw [writeSnapshot, safe_ask_bind]
  refine ⟨hI, fun _ d' hdev => ?_⟩
  rcases hdev with ⟨rfl, rfl⟩ | ⟨rfl, rfl⟩
  · have hI' : CrashInv json base E g w { d with temp := some ⟨[], {[]}⟩ } :=
      hI.mono_disk subset_rfl
    rw [if_pos rfl, safe_bind]
    refine (safe_writeLines lines hI' rfl).mono_post fun written w' d' h => ?_
    obtain ⟨rfl, hlog, hstale, hok⟩ := h
    have hI₁ : CrashInv json base E g w' d' := hI'.mono_disk (Disk.survivors_congr hlog hstale)
    cases written with
    | false => exact ⟨rfl, hI₁, fun h => absurd h (by simp)⟩
    | true =>
      obtain ⟨f, hf, hctnt⟩ := hok rfl
      rw [if_pos rfl, safe_ask_bind]
      refine ⟨hI₁, fun synced _ hdev => ?_⟩
      obtain ⟨f', hf', ⟨rfl, rfl⟩ | ⟨rfl, rfl⟩⟩ := hdev
      · obtain rfl : f' = f := some.inj (hf'.symm.trans hf)
        refine ⟨rfl, hI₁.mono_disk subset_rfl, fun _ => ?_⟩
        simp only [File.synced, File.stored, hctnt, nil_append]
      · exact ⟨rfl, hI₁, fun h => absurd h (by simp)⟩
  · exact ⟨rfl, hI, fun h => absurd h (by simp)⟩

/-- A rewrite that failed: what remains is marked for repair. -/
theorem safe_markForRepair (hE : Possible base E) (hI : CrashInv json base E g w d)
    (e : MqttError) :
    (do
      modify markForRepair
      pure (.error e) : WriterM (Except MqttError Unit)).Safe Disk.device (CrashInv json base E g)
      (Rewritten json base E) w d := by
  rw [safe_modify_bind, safe_pure]
  refine ⟨hI, hI.durable.markForRepair, hI.surviving.markForRepair hE, fun h => ?_, fun _ _ => ?_⟩
  · exact absurd h (by simp)
  · exact health_markForRepair w

/-- A rewrite that failed before the rename also drops its temporary file. -/
theorem safe_removeTemp (hE : Possible base E) (hI : CrashInv json base E g w d) (e : MqttError) :
    (do
      let _ ← ask FileOp.removeTemp
      modify markForRepair
      pure (.error e) : WriterM (Except MqttError Unit)).Safe Disk.device (CrashInv json base E g)
      (Rewritten json base E) w d := by
  rw [safe_ask_bind]
  refine ⟨hI, fun _ _ hdev => ?_⟩
  rcases hdev with ⟨-, rfl⟩ | ⟨-, rfl⟩
  · have hI' : CrashInv json base E g w { d with temp := none } := hI.mono_disk subset_rfl
    exact safe_markForRepair hE hI' e
  · exact safe_markForRepair hE hI e

/-- Once a snapshot of the table stands under the name, a crash leaves what it left
before or the table itself. -/
theorem Surviving.renamed (hE : Possible base E) {health : Health} (h : Surviving json (E health) d)
    {order : List Bytes} (hlines : ∀ l ∈ order, IsLine newline l)
    (horder : applyWrites (fun _ => none) (lineWrites json order) = base) (t : Option File) :
    Surviving json (E health) (d.replaced (some (File.stored order.flatten)) t) := by
  intro b hb
  rw [Disk.survivors_replaced_stored] at hb
  rcases hb with hb | rfl
  · exact h b hb
  · rw [replayedRecords_flatten hlines, horder]
    exact hE.base _

/-- A clean log survives as it is. -/
theorem Clean.surviving (h : Clean json base w d) (hbase : allowed base) :
    Surviving json allowed d := by
  obtain ⟨ls, hlog, hls, hrep, -⟩ := h.file
  intro b hb
  rcases (Disk.mem_survivors_of_log hlog).mp hb with hb | ⟨c, hc, rfl⟩
  · rw [h.stale] at hb
    exact absurd hb (Set.notMem_empty b)
  · obtain rfl : c = ls.flatten := hc
    rw [replayedRecords_flatten hls, hrep]
    exact hbase

theorem safe_compact (hE : Possible base E) (hI : CrashInv json base E g w d) :
    compact.Safe Disk.device (CrashInv json base E g) (Rewritten json base E) w d := by
  rw [compact, safe_get_bind, safe_ask_bind]
  refine ⟨hI, hI, fun order d₁ hdev => ?_⟩
  obtain ⟨horder, rfl⟩ := hdev
  have hw := hI.durable
  have hlines := isLine_listing hw horder
  have hbase := applyWrites_listing hw horder
  have hlen := length_listing hw horder
  rw [safe_bind]
  refine (safe_writeSnapshot order hI).mono_post fun snapshot w₁ d₁ h => ?_
  obtain ⟨rfl, hI₁, htemp⟩ := h
  cases snapshot with
  | error e => exact safe_removeTemp hE hI₁ e
  | ok _ =>
    have htemp := htemp rfl
    -- closing the handle changes nothing that survives
    have hw' : DurableOk json base { w₁ with file := none } := ⟨hw.line, hw.absent, hw.liveBytes⟩
    have hI' : CrashInv json base E g { w₁ with file := none } d₁ :=
      ⟨hw', hI₁.surviving, hI₁.unsound⟩
    simp only [safe_modify_bind, safe_ask_bind]
    refine ⟨hI₁, hI', fun renamed _ hdev => ?_⟩
    rcases hdev with ⟨rfl, -, rfl⟩ | ⟨rfl, rfl⟩
    · have hI₂ : CrashInv json base E g { w₁ with file := none }
          (d₁.replaced (some (File.stored order.flatten)) none) :=
        ⟨hw', hI'.surviving.renamed hE hlines hbase none, hI'.unsound⟩
      rw [htemp]
      simp only [if_true, safe_ask_bind]
      refine ⟨hI₂, fun _ _ hdev => ?_⟩
      rcases hdev with ⟨rfl, rfl⟩ | ⟨rfl, rfl⟩
      · have hI₃ := hI₂.mono_disk (Disk.survivors_sync_dir_subset _)
        simp only [if_true, safe_ask_bind]
        refine ⟨hI₃, fun opened _ hdev => ?_⟩
        obtain ⟨-, rfl⟩ := hdev
        cases opened with
        | true =>
          have hclean : Clean json base
              { w₁ with file := some .handle, len := w₁.liveBytes, health := .sound }
              { d₁.replaced (some (File.stored order.flatten)) none with stale := ∅ } :=
            ⟨rfl, order, rfl, hlines, hbase, hlen.symm⟩
          simp only [if_true, safe_modify_bind, safe_pure]
          exact ⟨hI₃, ⟨hw.line, hw.absent, hw.liveBytes⟩, hclean.surviving (hE.base _),
            fun _ => ⟨rfl, hclean⟩, fun _ h => absurd h (by simp)⟩
        | false =>
          simp only [Bool.false_eq_true, if_false]
          exact safe_markForRepair hE hI₃ _
      · simp only [Bool.false_eq_true, if_false]
        exact safe_markForRepair hE hI₂ _
    · simp only [Bool.false_eq_true, if_false]
      exact safe_removeTemp hE hI' _

theorem safe_preserveCopy (hI : CrashInv json base E g w d) :
    preserveCopy.Safe Disk.device (CrashInv json base E g)
      (fun _ w' d' => w' = w ∧ CrashInv json base E g w d') w d := by
  have hfail : (do
      let _ ← ask FileOp.removeAside
      pure (.error (.io "Failed to preserve the damaged session log")) :
        WriterM (Except MqttError Unit)).Safe Disk.device (CrashInv json base E g)
      (fun _ w' d' => w' = w ∧ CrashInv json base E g w d') w d := by
    rw [safe_ask_bind]
    refine ⟨hI, fun _ d' hdev => ?_⟩
    obtain rfl : d' = d := hdev
    exact ⟨rfl, hI⟩
  rw [preserveCopy, safe_ask_bind]
  refine ⟨hI, fun copied d₁ hdev => ?_⟩
  obtain rfl : d₁ = d := hdev
  cases copied with
  | false => exact hfail
  | true =>
    simp only [if_true, safe_ask_bind]
    refine ⟨hI, fun opened d₂ hdev => ?_⟩
    obtain rfl : d₂ = d₁ := hdev
    cases opened with
    | false => exact hfail
    | true =>
      simp only [if_true, safe_ask_bind]
      refine ⟨hI, fun kept d₃ hdev => ?_⟩
      obtain rfl : d₃ = d₂ := hdev
      cases kept with
      | false => exact hfail
      | true =>
        simp only [if_true, safe_ask_bind]
        refine ⟨hI, fun _ _ hdev => ?_⟩
        rcases hdev with ⟨rfl, rfl⟩ | ⟨rfl, rfl⟩
        · exact ⟨rfl, hI.mono_disk (Disk.survivors_sync_dir_subset _)⟩
        · exact ⟨rfl, hI⟩

theorem safe_repair (hE : Possible base E) (hI : CrashInv json base E g w d) :
    repair.Safe Disk.device (CrashInv json base E g) (Rewritten json base E) w d := by
  rw [repair, safe_get_bind]
  refine ⟨hI, ?_⟩
  by_cases hdamaged : w.health = .damagedOriginal
  · rw [if_pos hdamaged, safe_bind]
    refine (safe_preserveCopy hI).mono_post fun copy _ _ h => ?_
    obtain ⟨rfl, hI'⟩ := h
    cases copy with
    | error e =>
      refine ⟨hI'.durable, hI'.surviving, fun h => absurd h (by simp), fun _ _ => ?_⟩
      rw [hdamaged]
      simp
    | ok _ =>
      have hsurv := hI'.surviving
      rw [hdamaged] at hsurv
      have hw := hI'.durable
      simp only [safe_modify_bind]
      refine ⟨hI', safe_compact hE ⟨⟨hw.line, hw.absent, hw.liveBytes⟩, ?_, fun _ => by simp⟩⟩
      exact hsurv.weaken hE.damaged
  · rw [if_neg hdamaged]
    exact safe_compact hE hI

/-! ## Appending -/

/-- During an append the file begins with the durable lines, of which the writer
knows the length. -/
structure Appending (json : SerdeJson) (base : Records) (w : LogWriter) (d : Disk) : Prop where
  stale : d.stale = ∅
  file : ∃ (ls : List Bytes) (f : File) (rest : Bytes), d.log = some f ∧
    f.content = ls.flatten ++ rest ∧ (∀ l ∈ ls, IsLine newline l) ∧
    applyWrites (fun _ => none) (lineWrites json ls) = base ∧ w.len = ls.flatten.length

theorem Clean.appending (h : Clean json base w d) : Appending json base w d := by
  obtain ⟨ls, hlog, hls, hbase, hlen⟩ := h.file
  exact ⟨h.stale, ls, File.stored ls.flatten, [], hlog, by simp [File.stored], hls, hbase, hlen⟩

/-- What writing a batch ensures: all of it is stored, or the durable lines are still
what the file begins with. -/
structure Written (json : SerdeJson) (base : Records) (E : Health → Records → Prop)
    (batch : List Bytes) (w₀ : LogWriter) (r : Except MqttError Unit) (w : LogWriter) (d : Disk) :
    Prop where
  writer : w = w₀
  surviving : Surviving json (E w.health) d
  ok : r = .ok () → Clean json (applyWrites base (lineWrites json batch))
    { w with len := w.len + batch.flatten.length } d
  error : ∀ e, r = .error e → Appending json base w d

/-- With a part of the batch behind the durable lines, a crash leaves the durable
lines and some first lines of the batch. -/
theorem Clean.surviving_appended (hclean : Clean json base w d)
    (hbatch : ∀ l ∈ batch, IsLine newline l)
    (hpart : ∀ k, allowed (applyWrites base (lineWrites json (batch.take k))))
    (hlog : d.log = some f) (written : Bytes) :
    Surviving json allowed { d with log := some (f.appended batch.flatten written) } := by
  obtain ⟨ls, hlog', hls, hbase, -⟩ := hclean.file
  obtain rfl : f = File.stored ls.flatten := some.inj (hlog.symm.trans hlog')
  intro b hb
  rcases hb with hb | ⟨c, hc, rfl⟩
  · rw [hclean.stale] at hb
    exact absurd hb (Set.notMem_empty b)
  · rcases hc with rfl | ⟨p, hp, rfl⟩
    · have hnone := hpart 0
      rw [take_zero, lineWrites_nil, applyWrites_nil] at hnone
      rw [replayedRecords_flatten hls, hbase]
      exact hnone
    · obtain ⟨k, hk⟩ := replayedRecords_append_part hls hbatch (p := p) hp
      change allowed (replayedRecords json (some (ls.flatten ++ p)))
      rw [hk, hbase]
      exact hpart k

theorem safe_writeAndSync (hclean : Clean json base w d) (hI : CrashInv json base E g w d)
    (hbatch : ∀ l ∈ batch, IsLine newline l)
    (hpart : ∀ k, E w.health (applyWrites base (lineWrites json (batch.take k)))) :
    (writeAndSync batch.flatten).Safe Disk.device (CrashInv json base E g)
      (Written json base E batch w) w d := by
  rw [writeAndSync, safe_get_bind]
  refine ⟨hI, ?_⟩
  cases hfile : w.file with
  | none =>
    exact ⟨rfl, hI.surviving, fun h => absurd h (by simp), fun _ _ => hclean.appending⟩
  | some _ =>
    simp only [safe_ask_bind]
    refine ⟨hI, fun ok _ hdev => ?_⟩
    obtain ⟨f, hlog, written, -, hfull, rfl⟩ := hdev
    have hsurv := hclean.surviving_appended hbatch hpart hlog written
    obtain ⟨ls, hlog', hls, hbase, hlen⟩ := hclean.file
    obtain rfl : f = File.stored ls.flatten := some.inj (hlog.symm.trans hlog')
    have happ : Appending json base w
        { d with log := some ((File.stored ls.flatten).appended batch.flatten written) } :=
      ⟨hclean.stale, ls, _, written, rfl, rfl, hls, hbase, hlen⟩
    cases ok with
    | false => exact ⟨rfl, hsurv, fun h => absurd h (by simp), fun _ _ => happ⟩
    | true =>
      obtain rfl := hfull rfl
      simp only [if_true, safe_ask_bind]
      refine ⟨⟨hI.durable, hsurv, hI.unsound⟩, fun synced _ hdev => ?_⟩
      obtain ⟨_, hf', ⟨rfl, rfl⟩ | ⟨rfl, rfl⟩⟩ := hdev
      · obtain rfl := some.inj hf'
        have hall : ∀ l ∈ ls ++ batch, IsLine newline l := by
          intro l hl
          rcases mem_append.mp hl with hl | hl
          · exact hls l hl
          · exact hbatch l hl
        have hbase' : applyWrites (fun _ => none) (lineWrites json (ls ++ batch)) =
            applyWrites base (lineWrites json batch) := by
          rw [lineWrites_append, applyWrites_append, hbase]
        refine ⟨rfl, ?_, fun _ => ⟨hclean.stale, ls ++ batch, ?_, hall, hbase', ?_⟩,
          fun _ h => absurd h (by simp)⟩
        · -- the whole batch is stored: a crash leaves all of it
          intro b hb
          rcases hb with hb | ⟨c, hc, rfl⟩
          · exact absurd (hclean.stale ▸ hb) (Set.notMem_empty b)
          · obtain rfl : c = ls.flatten ++ batch.flatten := hc
            have hk := hpart batch.length
            rw [take_length] at hk
            rw [← flatten_append, replayedRecords_flatten hall, hbase']
            exact hk
        · simp [File.synced, File.appended, File.stored]
        · simp [hlen]
      · exact ⟨rfl, hsurv, fun h => absurd h (by simp), fun _ _ => happ⟩

theorem resized_durable {durable rest : Bytes} (h : f.content = durable ++ rest) :
    f.resized durable.length = ⟨durable, f.survivors ∪ {durable}⟩ := by
  have hcut : f.content.take durable.length ++
      replicate (durable.length - f.content.length) 0 = durable := by
    rw [h, take_left, length_append, Nat.sub_add_eq, Nat.sub_self, Nat.zero_sub]
    simp
  simp only [File.resized, hcut]

theorem safe_truncateToDurable (hE : Possible base E) (happ : Appending json base w d)
    (hI : CrashInv json base E g w d) :
    truncateToDurable.Safe Disk.device (CrashInv json base E g)
      (fun r w' d' => w' = w ∧ CrashInv json base E g w d' ∧ (r = .ok () → Clean json base w d'))
      w d := by
  rw [truncateToDurable, safe_get_bind]
  refine ⟨hI, ?_⟩
  cases w.file with
  | none => exact ⟨rfl, hI, fun h => absurd h (by simp)⟩
  | some _ =>
    simp only [safe_ask_bind]
    refine ⟨hI, fun _ _ hdev => ?_⟩
    obtain ⟨ls, f, _, hlog, hctnt, hls, hbase, hlen⟩ := happ.file
    obtain ⟨f', hlog', ⟨rfl, rfl⟩ | ⟨rfl, rfl⟩⟩ := hdev
    · obtain rfl : f' = f := some.inj (hlog'.symm.trans hlog)
      rw [hlen, resized_durable hctnt]
      have hrep : replayedRecords json (some ls.flatten) = base := by
        rw [replayedRecords_flatten hls, hbase]
      -- a crash leaves what it left before, or the durable lines
      have hI₁ : CrashInv json base E g w
          { d with log := some ⟨ls.flatten, f'.survivors ∪ {ls.flatten}⟩ } := by
        refine ⟨hI.durable, fun b hb => ?_, hI.unsound⟩
        rcases hb with hb | ⟨c, hc, rfl⟩
        · exact hI.surviving b (Or.inl hb)
        · rcases hc with hc | rfl
          · exact hI.surviving _ ((Disk.mem_survivors_of_log hlog).mpr (Or.inr ⟨c, hc, rfl⟩))
          · rw [hrep]
            exact hE.base _
      simp only [if_true, safe_ask_bind]
      refine ⟨hI₁, fun _ _ hdev => ?_⟩
      obtain ⟨_, hf₂, ⟨rfl, rfl⟩ | ⟨rfl, rfl⟩⟩ := hdev
      · obtain rfl := some.inj hf₂
        have hclean : Clean json base w { d with log := some (File.stored ls.flatten) } :=
          ⟨happ.stale, ls, rfl, hls, hbase, hlen⟩
        exact ⟨rfl, ⟨hI.durable, hclean.surviving (hE.base _), hI.unsound⟩, fun _ => hclean⟩
      · exact ⟨rfl, hI₁, fun h => absurd h (by simp)⟩
    · exact ⟨rfl, hI, fun h => absurd h (by simp)⟩

/-- The writer between two programs: the durable table stands for `base`, and a log
that claims to be sound is clean. -/
structure Resting (json : SerdeJson) (base : Records) (w : LogWriter) (d : Disk) : Prop where
  durable : DurableOk json base w
  sound : w.health = .sound → Clean json base w d

theorem Rewritten.resting {r : Except MqttError Unit}
    (h : Rewritten json base E r w d) : Resting json base w d := by
  refine ⟨h.durable, fun hsound => ?_⟩
  cases r with
  | ok _ => exact (h.ok rfl).2
  | error e => exact absurd hsound (h.error e rfl)

theorem safe_discardFailedAppend (hE : Possible base E) (hw : DurableOk json base w)
    (hsound : w.health = .sound) (happ : Appending json base w d)
    (hsurv : Surviving json (E w.health) d) :
    discardFailedAppend.Safe Disk.device (CrashInv json base E False)
      (fun _ w' d' => Resting json base w' d' ∧ Surviving json (E w'.health) d') w d := by
  have hI : CrashInv json base E False w d := ⟨hw, hsurv, False.elim⟩
  rw [discardFailedAppend, safe_bind]
  refine (safe_truncateToDurable hE happ hI).mono_post fun truncated w' d' h => ?_
  obtain ⟨rfl, hI', hok⟩ := h
  cases truncated with
  | ok _ => exact ⟨⟨hw, fun _ => hok rfl⟩, hI'.surviving⟩
  | error e =>
    have hw' : DurableOk json base { w' with health := .needsRepair } :=
      ⟨hw.line, hw.absent, hw.liveBytes⟩
    have hrepair : CrashInv json base E False { w' with health := .needsRepair } d' := by
      refine ⟨hw', hI'.surviving.weaken fun R hR => ?_, False.elim⟩
      rw [hsound] at hR
      exact hE.mono _ R hR
    simp only [safe_modify_bind]
    refine ⟨hI', ?_⟩
    rw [safe_bind]
    exact (safe_repair hE hrepair).mono_post fun r _ _ h => ⟨h.resting, h.surviving⟩

/-- What an append of a batch ensures. -/
structure Appended (json : SerdeJson) (base : Records) (E : Health → Records → Prop)
    (batch : List Bytes) (r : Except MqttError Unit) (w : LogWriter) (d : Disk) : Prop where
  ok : r = .ok () → w.health = .sound ∧
    Resting json (applyWrites base (lineWrites json batch)) w d
  error : ∀ e, r = .error e → Resting json base w d ∧ Surviving json (E w.health) d

theorem flatten_batchLines (lines : List LogLine) :
    lines.flatMap (fun line => line.line) = (batchLines lines).flatten := by
  rw [batchLines, flatMap_def]

theorem isLine_batchLines (hlines : ∀ l ∈ lines, LineOk json l) :
    ∀ l ∈ batchLines lines, IsLine newline l := by
  intro l hl
  obtain ⟨entry, hent, rfl⟩ := mem_map.mp hl
  exact (hlines entry hent).isLine

/-- A batch with no bytes has no lines. -/
theorem batch_eq_nil (hlines : ∀ l ∈ lines, LineOk json l)
    (h : (batchLines lines).flatten = []) : lines = [] := by
  cases lines with
  | nil => rfl
  | cons l lines =>
    obtain ⟨_, -, hline⟩ := (hlines l (by simp)).isLine
    simp [batchLines, hline] at h

/-- Recording the lines does not touch the health or the length. -/
theorem recordLines_frame (w : LogWriter) (lines : List LogLine) :
    (w.recordLines lines).health = w.health ∧ (w.recordLines lines).len = w.len := by
  induction lines generalizing w with
  | nil => exact ⟨rfl, rfl⟩
  | cons l lines ih => exact ih (w.recordDurable l.clientId l.line l.live)

theorem Clean.of_len {w' : LogWriter} (h : Clean json base w d)
    (hlen : w'.len = w.len) : Clean json base w' d := by
  obtain ⟨ls, hlog, hls, hbase, hw⟩ := h.file
  exact ⟨h.stale, ls, hlog, hls, hbase, hlen.trans hw⟩

/-- **The group commit on a sound log.**  At every point a crash leaves the durable
sessions and some first writes of the batch; it ends with the batch durable, or
with an error and the durable sessions as they were. -/
theorem safe_appendSound (hE : Possible base E) (hrest : Resting json base w d)
    (hsound : w.health = .sound) (hlines : ∀ l ∈ lines, LineOk json l)
    (hpart : ∀ k, E .sound (applyWrites base (lineWrites json ((batchLines lines).take k)))) :
    (appendSound lines).Safe Disk.device (CrashInv json base E False)
      (Appended json base E (batchLines lines)) w d := by
  have hclean := hrest.sound hsound
  have hI : CrashInv json base E False w d :=
    ⟨hrest.durable, hclean.surviving (hE.base _), False.elim⟩
  simp only [appendSound, flatten_batchLines]
  by_cases hemp : (batchLines lines).flatten = []
  · -- a batch of barriers only: nothing is written
    obtain rfl := batch_eq_nil hlines hemp
    simp only [hemp, ne_eq, not_true_eq_false, if_false]
    rw [safe_bind, safe_pure]
    simp only [safe_modify_bind, safe_pure]
    exact ⟨hI, hI, fun _ => ⟨hsound, hrest⟩, fun _ h => absurd h (by simp)⟩
  · have hbatch := isLine_batchLines hlines
    simp only [hemp, ne_eq, not_false_eq_true, if_true]
    rw [safe_bind]
    refine (safe_writeAndSync hclean hI hbatch (hsound ▸ hpart)).mono_post fun r w' _ h => ?_
    obtain ⟨rfl, hsurv, hok, herror⟩ := h
    cases r with
    | error e =>
      simp only [safe_bind]
      refine (safe_discardFailedAppend hE hrest.durable hsound (herror e rfl) hsurv).mono_post ?_
      intro _ _ _ h
      exact ⟨fun h' => absurd h' (by simp), fun _ _ => h⟩
    | ok _ =>
      have hclean' := hok rfl
      have hframe := recordLines_frame
        { w' with
          len := w'.len + (batchLines lines).flatten.length,
          flushes := w'.flushes + 1 } lines
      have hdurable := DurableOk.recordLines
        (w := { w' with len := w'.len + (batchLines lines).flatten.length,
                        flushes := w'.flushes + 1 })
        ⟨hrest.durable.line, hrest.durable.absent, hrest.durable.liveBytes⟩ hlines
      simp only [safe_modify_bind, safe_pure]
      refine ⟨⟨hrest.durable, hsurv, False.elim⟩,
        ⟨⟨hrest.durable.line, hrest.durable.absent, hrest.durable.liveBytes⟩, hsurv, False.elim⟩,
        fun _ => ⟨?_, hdurable, fun _ => ?_⟩,
        fun _ h => absurd h (by simp)⟩
      · rw [hframe.1]
        exact hsound
      · exact hclean'.of_len hframe.2

/-- The repair before an append: until it is done the log is not sound, and what a
crash leaves is what it could leave before. -/
theorem safe_prepare (hE : Possible base E) (hw : DurableOk json base w)
    (hunsound : w.health ≠ .sound) (hsurv : Surviving json (E w.health) d) :
    prepare.Safe Disk.device (CrashInv json base E True) (Rewritten json base E) w d := by
  have hI : CrashInv json base E True w d := ⟨hw, hsurv, fun _ => hunsound⟩
  rw [prepare, safe_get_bind, if_pos hunsound]
  exact ⟨hI, safe_repair hE hI⟩

end

end MqttLib.SessionLog
