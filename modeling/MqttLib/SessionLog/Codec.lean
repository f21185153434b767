/-
MqttLib.SessionLog.Codec

One record of the session log is one line: the CRC-32 of its JSON body in eight
hexadecimal digits, a blank, the body, a newline (`encode`).  `decode` reads a
line back and `replay` a whole file: a line that does not decode is counted and
skipped, an unterminated last piece is dropped.

JSON itself is `serde_json`'s.  It enters as `SerdeJson`, a pair of functions with
the two facts the log relies on: what was written reads back, and compact JSON
holds no newline byte.

What a line does to the stored sessions is a write in the sense of
`Foundation.LastWrite` (`lineWrite`), and replaying lines is applying their
writes in order (`replay_lines`).
-/

import MqttLib.Foundation.Lines
import MqttLib.Storage.Session
import Mathlib.Tactic.IntervalCases

namespace MqttLib.SessionLog

open Foundation Storage Protocol List Option

/-! ## Records and JSON -/

inductive Op where
  | put
  | remove
  deriving DecidableEq

/-- `RecordRef` as written and `Record` as read. -/
structure Record where
  op : Op
  id : String
  session : Option SessionRecord
  deriving DecidableEq

/-- The byte `b'\n'`. -/
def newline : UInt8 := 10

/-- `serde_json` at the two types the log uses. -/
structure SerdeJson where
  toVec : Record → Option Bytes
  fromSlice : Bytes → Option Record
  sessionFromSlice : Bytes → Option SessionRecord
  newline_free : ∀ r body, toVec r = some body → newline ∉ body
  round_trip : ∀ r body, toVec r = some body → fromSlice body = some r

/-! ## Checksum -/

/-- One entry of `CRC_TABLE`. -/
def crcEntry (index : UInt32) : UInt32 :=
  (range 8).foldl
    (fun crc _ => if crc &&& 1 == 1 then (0xEDB88320 : UInt32) ^^^ (crc >>> 1) else crc >>> 1) index

def crcTable : List UInt32 := (range 256).map fun index => crcEntry (UInt32.ofNat index)

def crc32 (bytes : Bytes) : UInt32 :=
  ~~~ bytes.foldl
    (fun crc byte => crcTable.getD ((crc ^^^ byte.toUInt32) &&& 0xFF).toNat 0 ^^^ (crc >>> 8))
    0xFFFFFFFF

/-- A lowercase hexadecimal digit. -/
def hexDigit (n : Nat) : UInt8 := UInt8.ofNat (if n < 10 then 48 + n else 87 + n)

/-- `format!("{:08x}", crc)`. -/
def hex8 (crc : UInt32) : Bytes :=
  [7, 6, 5, 4, 3, 2, 1, 0].map fun place => hexDigit (crc.toNat / 16 ^ place % 16)

/-- `char::to_digit(16)` on one byte. -/
def toDigit16 (b : UInt8) : Option Nat :=
  if 48 ≤ b.toNat ∧ b.toNat ≤ 57 then some (b.toNat - 48)
  else if 97 ≤ b.toNat ∧ b.toNat ≤ 102 then some (b.toNat - 87)
  else if 65 ≤ b.toNat ∧ b.toNat ≤ 70 then some (b.toNat - 55)
  else none

/-- The digit loop of `u32::from_str_radix`: an overflow is an error. -/
def digits16 : Nat → Bytes → Option UInt32
  | acc, [] => some (UInt32.ofNat acc)
  | acc, b :: bs => do
    let d ← toDigit16 b
    if acc * 16 + d < 2 ^ 32 then digits16 (acc * 16 + d) bs else none

/-- `u32::from_str_radix(_, 16)`: one leading plus sign is allowed. -/
def fromStrRadix16 : Bytes → Option UInt32
  | [] => none
  | [b] => if b = 43 then none else digits16 0 [b]
  | b :: bs => if b = 43 then digits16 0 bs else digits16 0 (b :: bs)

variable {n : Nat} {now : SystemTime} {json : SerdeJson} {record : Record} {loaded : Loaded}

theorem toDigit16_hexDigit (h : n < 16) : toDigit16 (hexDigit n) = some n := by
  interval_cases n <;> rfl

theorem hexDigit_ne_plus (h : n < 16) : hexDigit n ≠ 43 := by
  interval_cases n <;> decide

theorem newline_ne_hexDigit (h : n < 16) : hexDigit n ≠ newline := by
  interval_cases n <;> decide

/-- The digit loop on one written digit: the value of the places read so far gains
the next place. -/
theorem digits16_place (hn : n < 2 ^ 32) (place : Nat) (bs : Bytes) :
    digits16 (n / 16 ^ (place + 1)) (hexDigit (n / 16 ^ place % 16) :: bs) =
      digits16 (n / 16 ^ place) bs := by
  have hdigit : n / 16 ^ place % 16 < 16 := Nat.mod_lt _ (by decide)
  have hvalue : n / 16 ^ (place + 1) * 16 + n / 16 ^ place % 16 = n / 16 ^ place := by
    rw [Nat.pow_succ, ← Nat.div_div_eq_div_mul]
    omega
  have hbound : n / 16 ^ place < 2 ^ 32 := lt_of_le_of_lt (Nat.div_le_self _ _) hn
  rw [digits16, toDigit16_hexDigit hdigit]
  change (if n / 16 ^ (place + 1) * 16 + n / 16 ^ place % 16 < 2 ^ 32 then _ else none) = _
  rw [hvalue, if_pos hbound]

theorem fromStrRadix16_hex8 (crc : UInt32) : fromStrRadix16 (hex8 crc) = some crc := by
  have hlt : crc.toNat < 2 ^ 32 := crc.toNat_lt
  have hplus : hexDigit (crc.toNat / 16 ^ 7 % 16) ≠ 43 :=
    hexDigit_ne_plus (Nat.mod_lt _ (by decide))
  have hfirst : ∀ bs, digits16 0 (hexDigit (crc.toNat / 16 ^ 7 % 16) :: bs) =
      digits16 (crc.toNat / 16 ^ 7) bs := by
    intro bs
    have hzero : crc.toNat / 16 ^ (7 + 1) = 0 := Nat.div_eq_of_lt hlt
    rw [← digits16_place hlt 7 bs, hzero]
  simp only [hex8, map_cons, map_nil, fromStrRadix16, hplus, if_false]
  rw [hfirst, digits16_place hlt 6, digits16_place hlt 5,
    digits16_place hlt 4, digits16_place hlt 3, digits16_place hlt 2, digits16_place hlt 1,
    digits16_place hlt 0]
  simp [digits16]

/-! ## Lines -/

/-- What a replayed line says. -/
inductive Replayed where
  | put (id : String) (session : ClientSession)
  | remove (id : String)

/-- The write a replayed line performs on the stored sessions. -/
def Replayed.write : Replayed → String × Option SessionRecord
  | .put id session => (id, some session.toSessionRecord)
  | .remove id => (id, none)

/-- The last match of `decode`: an operation without its session, or a session under
another id, is damage. -/
def Record.replayed (record : Record) (now : SystemTime) : Option Replayed :=
  match record.op, record.session with
  | .put, some session =>
    if session.clientId = record.id then some (.put record.id (session.restore now)) else none
  | .remove, none => some (.remove record.id)
  | _, _ => none

theorem Record.replayed_write_now (record : Record) (now : SystemTime) :
    (record.replayed now).map Replayed.write = (record.replayed 0).map Replayed.write := by
  obtain ⟨op, id, session⟩ := record
  cases op with
  | remove => cases session <;> rfl
  | put =>
    cases session with
    | none => rfl
    | some session =>
      by_cases hid : session.clientId = id
      · simp [Record.replayed, hid, Replayed.write]
      · simp [Record.replayed, hid]

/-- A replayed session stands under its own id. -/
theorem Record.replayed_own {replayed : Replayed}
    (h : record.replayed now = some replayed) {id : String} {r : SessionRecord}
    (hwrite : replayed.write = (id, some r)) : r.clientId = id := by
  obtain ⟨op, _, session⟩ := record
  cases op with
  | remove =>
    cases session with
    | none =>
      cases h
      cases hwrite
    | some session => cases h
  | put =>
    cases session with
    | none => cases h
    | some session =>
      simp only [Record.replayed] at h
      split at h
      · rename_i hid
        cases h
        cases hwrite
        exact hid
      · cases h

/-- A replayed session is not connected. -/
theorem Record.replayed_connected {id : String}
    {session : ClientSession} (h : record.replayed now = some (.put id session)) :
    session.connected = false := by
  obtain ⟨op, _, stored⟩ := record
  cases op with
  | remove => cases stored <;> cases h
  | put =>
    cases stored with
    | none => cases h
    | some stored =>
      simp only [Record.replayed] at h
      split at h
      · cases h
        rfl
      · cases h

section

variable (json : SerdeJson)

def encode (clientId : String) (session : Option SessionRecord) : Except MqttError Bytes :=
  let op := if session.isSome then Op.put else Op.remove
  match json.toVec ⟨op, clientId, session⟩ with
  | none => .error (.io s!"Failed to encode session {clientId}")
  | some body => .ok (hex8 (crc32 body) ++ [32] ++ body ++ [newline])

/-- `decode` at the clock time `now`, which only the skipped fields see. -/
def decode (now : SystemTime) (line : Bytes) : Option Replayed :=
  if line.length < 9 then none
  else
    let hex := line.take 8
    let separator := (line.drop 8).take 1
    let body := line.drop 9
    if separator ≠ [32] then none
    else do
      let expected ← fromStrRadix16 hex
      if crc32 body ≠ expected then none
      else
        let record ← json.fromSlice body
        record.replayed now

/-- The write a terminated line stands for; `none` for a damaged one. -/
def lineWrite (segment : Bytes) : Option (String × Option SessionRecord) := do
  let line ← stripSep newline segment
  (decode json 0 line).map Replayed.write

end

section

variable {json : SerdeJson}

/-- The clock does not change what a line writes. -/
theorem decode_write_now (now : SystemTime) (line : Bytes) :
    (decode json now line).map Replayed.write = (decode json 0 line).map Replayed.write := by
  unfold decode
  by_cases hlen : line.length < 9
  · simp [hlen]
  by_cases hsep : (line.drop 8).take 1 = [32]
  · simp only [hlen, hsep, if_false, ne_eq, not_true_eq_false]
    cases fromStrRadix16 (line.take 8) with
    | none => rfl
    | some expected =>
      by_cases hcrc : crc32 (line.drop 9) = expected
      · cases json.fromSlice (line.drop 9) with
        | none => simp [hcrc]
        | some record => simpa [hcrc] using record.replayed_write_now now
      · simp [hcrc]
  · simp [hlen, hsep]

variable {line : Bytes} {clientId : String} {session : Option SessionRecord}

/-- A line that decodes holds a record. -/
theorem decode_eq_some {now : SystemTime} {replayed : Replayed}
    (h : decode json now line = some replayed) :
    ∃ record, json.fromSlice (line.drop 9) = some record ∧ record.replayed now = some replayed := by
  simp only [decode] at h
  split at h
  · cases h
  split at h
  · cases h
  obtain ⟨_, -, h⟩ := bind_eq_some_iff.mp h
  split at h
  · cases h
  exact bind_eq_some_iff.mp h

/-- A session that is read back stands under its own id. -/
theorem lineWrite_own {segment : Bytes} {id : String} {r : SessionRecord}
    (h : lineWrite json segment = some (id, some r)) : r.clientId = id := by
  obtain ⟨_, -, hline⟩ := bind_eq_some_iff.mp h
  obtain ⟨_, hdec, hwrite⟩ := map_eq_some_iff.mp hline
  obtain ⟨_, -, hrec⟩ := decode_eq_some hdec
  exact Record.replayed_own hrec hwrite

/-- The parts of an encoded line. -/
theorem encode_eq_ok (h : encode json clientId session = .ok line) :
    ∃ body, json.toVec ⟨if session.isSome then .put else .remove, clientId, session⟩ = some body ∧
      line = (hex8 (crc32 body) ++ [32] ++ body) ++ [newline] := by
  simp only [encode] at h
  cases hbody : json.toVec ⟨if session.isSome then .put else .remove, clientId, session⟩ with
  | none => simp [hbody] at h
  | some body =>
    rw [hbody] at h
    exact ⟨body, rfl, (Except.ok.inj h).symm⟩

theorem newline_not_mem_hex8 (crc : UInt32) : newline ∉ hex8 crc := by
  intro hmem
  obtain ⟨_, -, hdigit⟩ := mem_map.mp hmem
  exact newline_ne_hexDigit (Nat.mod_lt _ (by decide)) hdigit

theorem isLine_encode (h : encode json clientId session = .ok line) : IsLine newline line := by
  obtain ⟨_, hbody, rfl⟩ := encode_eq_ok h
  refine ⟨_, ?_, rfl⟩
  have hblank : newline ≠ 32 := by decide
  simp [newline_not_mem_hex8, json.newline_free _ _ hbody, hblank]

/-- Reading a line back: the checksum matches, and JSON returns the record. -/
theorem decode_hex8 (now : SystemTime) (body : Bytes) :
    decode json now (hex8 (crc32 body) ++ [32] ++ body) =
      (json.fromSlice body).bind fun record => record.replayed now := by
  have hlen : (hex8 (crc32 body)).length = 8 := rfl
  have htake : (hex8 (crc32 body) ++ [32] ++ body).take 8 = hex8 (crc32 body) := by
    rw [append_assoc, take_append_of_le_length (by omega), take_of_length_le (by omega)]
  have hsep : ((hex8 (crc32 body) ++ [32] ++ body).drop 8).take 1 = [32] := by
    rw [append_assoc, drop_append_of_le_length (by omega), drop_of_length_le (by omega)]
    rfl
  have hbody : (hex8 (crc32 body) ++ [32] ++ body).drop 9 = body := by
    rw [drop_append_of_le_length (by simp [hlen]), drop_of_length_le (by simp [hlen])]
    rfl
  have hlong : ¬ (hex8 (crc32 body) ++ [32] ++ body).length < 9 := by
    rw [length_append, length_append, hlen]
    simp
  simp only [decode, hlong, if_false, htake, hsep, hbody, fromStrRadix16_hex8]
  simp

/-- An encoded line writes what it was encoded from. -/
theorem lineWrite_encode (h : encode json clientId session = .ok line)
    (hid : ∀ r ∈ session, r.clientId = clientId) :
    lineWrite json line = some (clientId, session) := by
  obtain ⟨_, hbody, rfl⟩ := encode_eq_ok h
  have hread := json.round_trip _ _ hbody
  rw [lineWrite, stripSep_line]
  simp only [bind_eq_bind, bind_some, decode_hex8, hread]
  cases session with
  | none => rfl
  | some r =>
    have hr : r.clientId = clientId := hid r rfl
    simp [Record.replayed, hr, Replayed.write]

end

/-! ## Replay -/

/-- The sessions read so far, each with the line it was read from. -/
abbrev Loaded := Table String (ClientSession × Bytes)

structure ReplaySummary where
  damaged : Nat := 0
  tornBytes : Nat := 0
  deriving DecidableEq

/-- The loop of `replay` over the pieces of the file. -/
def replaySegments (json : SerdeJson) (now : SystemTime) :
    List Bytes → Loaded → ReplaySummary → Loaded × ReplaySummary
  | [], loaded, summary => (loaded, summary)
  | segment :: rest, loaded, summary =>
    match stripSep newline segment with
    | none => (loaded, { summary with tornBytes := segment.length })
    | some line =>
      match decode json now line with
      | some (.put id session) =>
        replaySegments json now rest (loaded.insert id (session, segment)) summary
      | some (.remove id) => replaySegments json now rest (loaded.erase id) summary
      | none => replaySegments json now rest loaded { summary with damaged := summary.damaged + 1 }

def replay (json : SerdeJson) (now : SystemTime) (bytes : Bytes) (loaded : Loaded) :
    Loaded × ReplaySummary :=
  replaySegments json now (splitInclusive newline bytes) loaded {}

namespace Loaded

/-- The stored sessions, without the fields that are not written. -/
def records (loaded : Loaded) : String → Option SessionRecord :=
  fun id => (loaded.lookup id).map fun entry => entry.1.toSessionRecord

/-- Every session is the one its line writes. -/
def Faithful (json : SerdeJson) (loaded : Loaded) : Prop :=
  ∀ id session segment, loaded.lookup id = some (session, segment) →
    IsLine newline segment ∧ lineWrite json segment = some (id, some session.toSessionRecord)

theorem records_insert (loaded : Loaded) (id : String) (session : ClientSession) (segment : Bytes) :
    records (loaded.insert id (session, segment)) =
      Function.update loaded.records id (some session.toSessionRecord) := by
  funext k
  by_cases hk : k = id
  · subst hk; simp [records]
  · simp [records, hk]

theorem records_erase (loaded : Loaded) (id : String) :
    records (loaded.erase id) = Function.update loaded.records id none := by
  funext k
  by_cases hk : k = id
  · subst hk; simp [records]
  · simp [records, hk]

theorem Faithful.insert (h : loaded.Faithful json)
    {id : String} (session : ClientSession) {segment : Bytes} (hline : IsLine newline segment)
    (hwrite : lineWrite json segment = some (id, some session.toSessionRecord)) :
    Faithful json (loaded.insert id (session, segment)) := by
  intro k session' segment' hk
  rcases Table.of_lookup_insert hk with ⟨rfl, hnew⟩ | ⟨-, hold⟩
  · cases hnew
    exact ⟨hline, hwrite⟩
  · exact h k session' segment' hold

theorem Faithful.erase (h : loaded.Faithful json)
    (id : String) : Faithful json (loaded.erase id) := by
  intro k session segment hk
  exact h k session segment (Table.of_lookup_erase hk).2

theorem faithful_empty (json : SerdeJson) : Faithful json ∅ := by
  intro id _ _ h
  simp at h

end Loaded

section

variable {json : SerdeJson} {now : SystemTime}

/-- What one terminated piece does in the loop of `replay`. -/
theorem replaySegments_line {segment : Bytes} (hline : IsLine newline segment) (rest : List Bytes)
    (loaded : Loaded) (summary : ReplaySummary) :
    ∃ loaded' summary',
      replaySegments json now (segment :: rest) loaded summary =
        replaySegments json now rest loaded' summary' ∧
      Loaded.records loaded' =
        applyWrites (Loaded.records loaded) (lineWrite json segment).toList ∧
      (loaded.Faithful json → loaded'.Faithful json) := by
  obtain ⟨body, hbody, rfl⟩ := hline
  have hline : IsLine newline (body ++ [newline]) := ⟨body, hbody, rfl⟩
  have hwrite : lineWrite json (body ++ [newline]) =
      (decode json now body).map Replayed.write := by
    rw [lineWrite, stripSep_line, decode_write_now]
    rfl
  cases hdec : decode json now body with
  | none =>
    refine ⟨loaded, { summary with damaged := summary.damaged + 1 }, ?_, ?_, id⟩
    · simp [replaySegments, hdec]
    · simp [hwrite, hdec]
  | some replayed =>
    rw [hdec] at hwrite
    cases replayed with
    | put id session =>
      refine ⟨loaded.insert id (session, body ++ [newline]), summary, ?_, ?_, ?_⟩
      · simp [replaySegments, hdec]
      · rw [Loaded.records_insert, hwrite]
        rfl
      · exact fun h => h.insert _ hline hwrite
    | remove id =>
      refine ⟨loaded.erase id, summary, ?_, ?_, ?_⟩
      · simp [replaySegments, hdec]
      · rw [Loaded.records_erase, hwrite]
        rfl
      · exact fun h => h.erase id

/-- The writes of the lines that decode, in order. -/
def lineWrites (json : SerdeJson) (ls : List Bytes) : List (String × Option SessionRecord) :=
  ls.flatMap fun l => (lineWrite json l).toList

@[simp] theorem lineWrites_nil : lineWrites json [] = [] := rfl

@[simp] theorem lineWrites_cons (l : Bytes) (ls : List Bytes) :
    lineWrites json (l :: ls) = (lineWrite json l).toList ++ lineWrites json ls := rfl

theorem lineWrites_append (ls ms : List Bytes) :
    lineWrites json (ls ++ ms) = lineWrites json ls ++ lineWrites json ms := by
  simp [lineWrites]

variable {t : Bytes} {ls : List Bytes}

/-- An unterminated rest ends the loop and reads nothing. -/
theorem replaySegments_torn (ht : newline ∉ t) (loaded : Loaded) (summary : ReplaySummary) :
    (replaySegments json now (splitInclusive newline t) loaded summary).1 = loaded := by
  by_cases hnil : t = []
  · subst hnil; rfl
  · rw [splitInclusive_of_not_mem ht hnil, replaySegments, stripSep_of_not_mem ht]

/-- Replaying terminated lines and an unterminated rest applies the lines' writes. -/
theorem replaySegments_lines (hls : ∀ l ∈ ls, IsLine newline l) (ht : newline ∉ t)
    (loaded : Loaded) (summary : ReplaySummary) :
    let result := (replaySegments json now (ls ++ splitInclusive newline t) loaded summary).1
    Loaded.records result = applyWrites (Loaded.records loaded) (lineWrites json ls) ∧
      (loaded.Faithful json → result.Faithful json) := by
  induction ls generalizing loaded summary with
  | nil =>
    rw [nil_append]
    simp only [replaySegments_torn ht]
    exact ⟨rfl, id⟩
  | cons l ls ih =>
    obtain ⟨hl, hrest⟩ := forall_mem_cons.mp hls
    obtain ⟨loaded', summary', hstep, hrec, hfaith⟩ :=
      replaySegments_line hl (ls ++ splitInclusive newline t) loaded summary
    obtain ⟨hrec', hfaith'⟩ := ih hrest loaded' summary'
    rw [cons_append, hstep]
    refine ⟨?_, fun h => hfaith' (hfaith h)⟩
    rw [hrec', hrec, lineWrites_cons, applyWrites_append]

/-- The spec of `replay`: cut the file into lines and a torn rest, and apply the
lines' writes to what was loaded before. -/
theorem replay_lines (hls : ∀ l ∈ ls, IsLine newline l) (ht : newline ∉ t) (loaded : Loaded) :
    Loaded.records (replay json now (ls.flatten ++ t) loaded).1 =
      applyWrites (Loaded.records loaded) (lineWrites json ls) := by
  rw [replay, splitInclusive_flatten_append hls]
  exact (replaySegments_lines hls ht loaded {}).1

/-- Whatever the file holds, each replayed session is the one its line writes. -/
theorem replay_faithful (bytes : Bytes) {loaded : Loaded} (h : loaded.Faithful json) :
    (replay json now bytes loaded).1.Faithful json := by
  obtain ⟨_, t, rfl, hls, ht⟩ := exists_lines newline bytes
  rw [replay, splitInclusive_flatten_append hls]
  exact (replaySegments_lines hls ht loaded {}).2 h

end

end MqttLib.SessionLog
