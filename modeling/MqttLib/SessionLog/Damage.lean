/-
MqttLib.SessionLog.Damage

What a damaged log still replays: a file cut anywhere gives the records that are whole in
it, and a line that has been overwritten costs its own record only.
-/

import MqttLib.SessionLog.Progress

namespace MqttLib.SessionLog

open Foundation Storage Protocol List

/-- A record as it is logged: a session under its own client id, or a removal. -/
def Encodes (json : SerdeJson) (record : RecordWrite) (line : Bytes) : Prop :=
  encode json record.1 record.2 = .ok line ∧ ∀ session ∈ record.2, session.clientId = record.1

/-- The checks of `decode` in front of the JSON. -/
def checksumMatches (line : Bytes) : Bool :=
  decide (9 ≤ line.length) && (line.drop 8).take 1 == [32] &&
    fromStrRadix16 (line.take 8) == some (crc32 (line.drop 9))

variable {json : SerdeJson} {records : List RecordWrite} {lines : List Bytes} {line : Bytes}

theorem decode_of_mismatch (now : SystemTime) (h : checksumMatches line = false) :
    decode json now line = none := by
  unfold decode
  split
  · rfl
  rename_i hlen
  dsimp only
  split
  · rfl
  rename_i hblank
  cases hhex : fromStrRadix16 (line.take 8) with
  | none => rfl
  | some _ =>
    refine if_pos fun hcrc => ?_
    unfold checksumMatches at h
    rw [hhex, hcrc, not_not.mp hblank] at h
    simp [Nat.le_of_not_lt hlen] at h

theorem isLine_of_encodes (h : Forall₂ (Encodes json) records lines) :
    ∀ line ∈ lines, IsLine newline line := by
  induction h with
  | nil => exact fun _ hmem => absurd hmem not_mem_nil
  | cons hhead _ ih => exact forall_mem_cons.mpr ⟨isLine_encode hhead.1, ih⟩

theorem lineWrites_of_encodes (h : Forall₂ (Encodes json) records lines) :
    lineWrites json lines = records := by
  induction h with
  | nil => rfl
  | cons hhead _ ih =>
    rw [lineWrites_cons, lineWrite_encode hhead.1 hhead.2, ih]
    rfl

/-- The number of lines that are whole in a prefix of the file, and the torn rest. -/
theorem exists_whole_lines (hlines : ∀ line ∈ lines, IsLine newline line) {p : Bytes}
    (hp : p <+: lines.flatten) :
    ∃ k ≤ lines.length, ∃ torn, p = (lines.take k).flatten ++ torn ∧ newline ∉ torn ∧
      ∀ line ∈ lines[k]?, p.length < ((lines.take k).flatten ++ line).length := by
  obtain ⟨k, torn, rfl, htorn⟩ := prefix_flatten_lines hlines hp
  have htake : lines.take k = lines.take (min k lines.length) := by
    rw [take_eq_take_min]
  refine ⟨min k lines.length, Nat.min_le_right _ _, torn, by rw [← htake], htorn, ?_⟩
  rw [← htake]
  intro line hline
  rw [length_append, length_append, Nat.add_lt_add_iff_left]
  by_contra hlong
  obtain ⟨hlt, rfl⟩ := List.getElem?_eq_some_iff.mp hline
  have hk : min k lines.length = k := by omega
  -- with room for the next line the rest would hold its newline
  have hrest : torn <+: lines[min k lines.length] ++ (lines.drop (k + 1)).flatten := by
    have hsplit : lines.flatten = (lines.take k).flatten ++ (lines.drop k).flatten := by
      rw [← flatten_append, take_append_drop]
    rw [hsplit, prefix_append_right_inj] at hp
    simp only [hk] at hlt ⊢
    rwa [drop_eq_getElem_cons hlt, flatten_cons] at hp
  obtain ⟨_, -, hbody⟩ := hlines _ (getElem_mem hlt)
  have hwhole := prefix_of_prefix_length_le (prefix_append _ _) hrest (Nat.le_of_not_lt hlong)
  rw [hbody] at hwhole
  exact htorn (hwhole.subset (mem_append_right _ (mem_singleton_self _)))

theorem replay_records (json : SerdeJson) (hlines : ∀ line ∈ lines, IsLine newline line)
    (now : SystemTime) {torn : Bytes} (htorn : newline ∉ torn) :
    Loaded.records (replay json now (lines.flatten ++ torn) ∅).1 =
      applyWrites (fun _ => none) (lineWrites json lines) := by
  rw [replay_lines hlines htorn]
  congr 1

/-- Replaying the log gives the records applied in order.  Replaying a part of the file from
its start gives those whose lines are whole in it.  With one line replaced by bytes that
fail the checksum, replaying gives the other records applied in order. -/
theorem replay_damaged (h : Forall₂ (Encodes json) records lines) (now : SystemTime) :
    Loaded.records (replay json now lines.flatten ∅).1 = applyWrites (fun _ => none) records ∧
    (∀ p, p <+: lines.flatten → ∃ k ≤ lines.length, (lines.take k).flatten <+: p ∧
      (∀ line ∈ lines[k]?, p.length < ((lines.take k).flatten ++ line).length) ∧
      Loaded.records (replay json now p ∅).1 = applyWrites (fun _ => none) (records.take k)) ∧
    ∀ i < lines.length, ∀ bytes, newline ∉ bytes → checksumMatches bytes = false →
      Loaded.records (replay json now (lines.set i (bytes ++ [newline])).flatten ∅).1 =
        applyWrites (fun _ => none) (records.eraseIdx i) := by
  have hlines := isLine_of_encodes h
  refine ⟨?_, fun p hp => ?_, fun i hi bytes hbytes hmismatch => ?_⟩
  · have hwhole := replay_records json hlines now not_mem_nil
    rwa [append_nil, lineWrites_of_encodes h] at hwhole
  · obtain ⟨k, hk, _, rfl, htorn, hnext⟩ := exists_whole_lines hlines hp
    refine ⟨k, hk, prefix_append _ _, hnext, ?_⟩
    rw [replay_records json (fun line hline => hlines line (mem_of_mem_take hline)) now htorn,
      lineWrites_of_encodes (forall₂_take k h)]
  · have hreplaced : ∀ line ∈ lines.set i (bytes ++ [newline]), IsLine newline line := by
      intro line hline
      rcases mem_or_eq_of_mem_set hline with hold | rfl
      · exact hlines line hold
      · exact ⟨bytes, hbytes, rfl⟩
    have hdamaged : lineWrite json (bytes ++ [newline]) = none := by
      rw [lineWrite, stripSep_line]
      exact congrArg (Option.map Replayed.write) (decode_of_mismatch 0 hmismatch)
    have hrest := replay_records json hreplaced now not_mem_nil
    rw [append_nil, set_eq_take_append_cons_drop, if_pos hi, lineWrites_append, lineWrites_cons,
      hdamaged, lineWrites_of_encodes (forall₂_take i h),
      lineWrites_of_encodes (forall₂_drop (i + 1) h)] at hrest
    rw [set_eq_take_append_cons_drop, if_pos hi, hrest, eraseIdx_eq_take_drop_succ]
    rfl

/-- The line body `serde_json` writes for the removal of the session. -/
def removedBody : Bytes := "\x7b\"op\":\"remove\",\"id\":\"a\"\x7d".toUTF8.data.toList

/-- A serializer that knows the session and its removal. -/
def removalJson : SerdeJson where
  toVec r :=
    if r = ⟨.put, "a", some connectedSession.toSessionRecord⟩ then some connectedBody
    else if r = ⟨.remove, "a", none⟩ then some removedBody
    else none
  fromSlice body :=
    if body = connectedBody then some ⟨.put, "a", some connectedSession.toSessionRecord⟩
    else if body = removedBody then some ⟨.remove, "a", none⟩
    else none
  sessionFromSlice _ := none
  newline_free := by
    intro r body hbody
    split_ifs at hbody <;> cases hbody
    · exact newline_connectedBody
    · decide +kernel
  round_trip := by
    intro r body hbody
    have hne : removedBody ≠ connectedBody := by decide +kernel
    split_ifs at hbody with hput hremove
    · cases hbody
      rw [if_pos rfl, hput]
    · cases hbody
      rw [if_neg hne, if_pos rfl, hremove]

/-- A session is stored and then removed: it is read back when the line of the removal has been
emptied. -/
theorem replay_damaged_removal : ∃ stored removed,
    encode removalJson "a" (some connectedSession.toSessionRecord) = .ok stored ∧
    encode removalJson "a" none = .ok removed ∧
    Loaded.records (replay removalJson 0 (stored ++ removed) ∅).1 "a" = none ∧
    Loaded.records (replay removalJson 0 (stored ++ [newline]) ∅).1 "a" =
      some connectedSession.toSessionRecord := by
  obtain ⟨stored, hstored⟩ :
      ∃ line, encode removalJson "a" (some connectedSession.toSessionRecord) = .ok line := ⟨_, rfl⟩
  obtain ⟨removed, hremoved⟩ : ∃ line, encode removalJson "a" none = .ok line := ⟨_, rfl⟩
  have hput : Encodes removalJson ("a", some connectedSession.toSessionRecord) stored :=
    ⟨hstored, fun _ h => Option.some.inj h ▸ rfl⟩
  have hremove : Encodes removalJson ("a", none) removed := ⟨hremoved, fun _ h => by cases h⟩
  obtain ⟨hall, -, hother⟩ := replay_damaged (.cons hput (.cons hremove .nil)) 0
  have hlost := hother 1 (by simp) [] not_mem_nil rfl
  simp only [set_cons_succ, set_cons_zero, flatten_cons, flatten_nil, append_nil, nil_append]
    at hall hlost
  exact ⟨stored, removed, hstored, hremoved, congrFun hall "a", congrFun hlost "a"⟩

end MqttLib.SessionLog
