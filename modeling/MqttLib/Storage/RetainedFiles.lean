/-
MqttLib.Storage.RetainedFiles

The retained messages of the file backend (`broker/storage/file_backend.rs`): one JSON file
for each topic, whose name is the topic with some characters escaped.  A name reads back as
the topic it was made from (`filenameToTopic_topicToFilename`), so different topics have
different files.

The files are a table from names, without the extension, to contents.  JSON is
`serde_json`'s; `expires_at` carries `#[serde(skip)]`, so it does not survive.
-/

import MqttLib.Protocol.Topic
import MqttLib.Storage.Messages

namespace MqttLib.Storage.RetainedFiles

open Foundation Protocol Storage List

/-! ## File names -/

/-- One character of `topic_to_filename`. -/
def escape : Char → List Char
  | '%' => ['%', '2', '5']
  | '/' => ['%', '2', 'F']
  | '+' => ['%', '2', 'B']
  | '#' => ['%', '2', '3']
  | '$' => ['%', '2', '4']
  | '\\' => ['%', '5', 'C']
  | ':' => ['%', '3', 'A']
  | '*' => ['%', '2', 'A']
  | '?' => ['%', '3', 'F']
  | '"' => ['%', '2', '2']
  | '<' => ['%', '3', 'C']
  | '>' => ['%', '3', 'E']
  | '|' => ['%', '7', 'C']
  | '\x00' => ['%', '0', '0']
  | ch => [ch]

def topicToFilename (topic : String) : String := String.ofList (topic.toList.flatMap escape)

/-- `char::to_digit(16)`. -/
def hexDigit (ch : Char) : Option Nat :=
  if '0' ≤ ch ∧ ch ≤ '9' then some (ch.toNat - 48)
  else if 'a' ≤ ch ∧ ch ≤ 'f' then some (ch.toNat - 87)
  else if 'A' ≤ ch ∧ ch ≤ 'F' then some (ch.toNat - 55)
  else none

/-- `u8::from_str_radix(hex, 16)` on at most two characters, which may have a sign. -/
def fromStrRadix (hex : List Char) : Option UInt8 :=
  let digits := match hex with
    | '+' :: digits => digits
    | digits => digits
  if digits.isEmpty then none
  else (digits.foldlM (fun value ch => (hexDigit ch).map (value * 16 + ·)) 0).map UInt8.ofNat

/-- What stands for the characters after a `%`. -/
def unescape (hex : List Char) : List Char :=
  match fromStrRadix hex with
  | some byte => [Char.ofNat byte.toNat]
  | none => '%' :: hex

/-- The loop of `filename_to_topic`. -/
def unescapeAll : List Char → List Char
  | [] => []
  | ch :: rest =>
    if ch = '%' then
      match rest with
      | first :: second :: rest => unescape [first, second] ++ unescapeAll rest
      | hex => unescape hex
    else ch :: unescapeAll rest

def filenameToTopic (filename : String) : String := String.ofList (unescapeAll filename.toList)

theorem unescapeAll_escape (ch : Char) (rest : List Char) :
    unescapeAll (escape ch ++ rest) = ch :: unescapeAll rest := by
  unfold escape
  split
  all_goals try rfl
  rename_i hpercent _ _ _ _ _ _ _ _ _ _ _ _ _
  show unescapeAll (ch :: rest) = _
  conv_lhs => unfold unescapeAll
  rw [if_neg hpercent]

/-- A file name reads back as its topic. -/
theorem filenameToTopic_topicToFilename (topic : String) :
    filenameToTopic (topicToFilename topic) = topic := by
  have hchars : ∀ chars : List Char, unescapeAll (chars.flatMap escape) = chars := by
    intro chars
    induction chars with
    | nil => rfl
    | cons _ chars ih => rw [flatMap_cons, unescapeAll_escape, ih]
  unfold filenameToTopic topicToFilename
  rw [String.toList_ofList, hchars, String.ofList_toList]

theorem topicToFilename_inj {topic topic' : String} :
    topicToFilename topic = topicToFilename topic' ↔ topic = topic' := by
  refine ⟨fun h => ?_, fun h => h ▸ rfl⟩
  rw [← filenameToTopic_topicToFilename topic, h, filenameToTopic_topicToFilename]

/-! ## Names in the directory -/

def fileName (topic : String) : String := topicToFilename topic ++ ".json"

/-- `Path::file_stem`: what stands before the last dot, unless that is nothing. -/
def fileStem (name : String) : String :=
  match name.toList.reverse.dropWhile (· ≠ '.') with
  | _ :: ch :: before => if name = ".." then name else String.ofList (ch :: before).reverse
  | _ => name

/-- `Path::with_extension`. -/
def withExtension (name extension : String) : String := fileStem name ++ "." ++ extension

/-- The temporary name of `write_atomic`, for a process and a count. -/
def tempName (topic : String) (process count : Nat) : String :=
  withExtension (fileName topic) ("tmp." ++ toString process ++ "." ++ toString count)

/-- The name of `quarantine_unreadable`. -/
def quarantineName (topic : String) : String := withExtension (fileName topic) "corrupt"

/-- What is done in the directory for one topic. -/
inductive FileStep (β : Type*) where
  /-- A temporary file is written, wholly or not. -/
  | writeTemp (process count : Nat) (text : β)
  | removeTemp (process count : Nat)
  | install (process count : Nat)
  | quarantine
  | remove

def rename {β : Type*} (files : Table String β) (source target : String) : Table String β :=
  match files.lookup source with
  | none => files
  | some text => (files.erase source).insert target text

def FileStep.run {β : Type*} (topic : String) (files : Table String β) : FileStep β → Table String β
  | .writeTemp process count text => files.insert (tempName topic process count) text
  | .removeTemp process count => files.erase (tempName topic process count)
  | .install process count => rename files (tempName topic process count) (fileName topic)
  | .quarantine => rename files (fileName topic) (quarantineName topic)
  | .remove => files.erase (fileName topic)

theorem getLast?_fileName (topic : String) : (fileName topic).toList.getLast? = some 'n' := by
  rw [fileName, String.toList_append, getLast?_append_of_ne_nil _ (by decide)]
  rfl

theorem fileName_ne_quarantineName (topic other : String) :
    fileName topic ≠ quarantineName other := by
  intro heq
  have hlast := getLast?_fileName topic
  rw [heq, quarantineName, withExtension, String.toList_append,
    getLast?_append_of_ne_nil _ (by decide)] at hlast
  cases hlast

theorem fileName_ne_tempName (topic other : String) (process count : Nat) :
    fileName topic ≠ tempName other process count := by
  intro heq
  have hdigits : (toString count).toList = Nat.toDigits 10 count := by simp
  have hlast := getLast?_fileName topic
  -- a temporary name ends in a digit
  rw [heq, tempName, withExtension, String.toList_append, String.toList_append,
    String.toList_append, hdigits, getLast?_append_of_ne_nil _ (by simp),
    getLast?_append_of_ne_nil _ Nat.toDigits_ne_nil] at hlast
  have hdigit := Nat.isDigit_of_mem_toDigits (by decide) (by decide) (mem_of_getLast? hlast)
  exact absurd hdigit (by decide)

theorem fileName_inj {topic other : String} (h : fileName topic = fileName other) :
    topic = other := by
  have hchars := congrArg String.toList h
  rw [fileName, fileName, String.toList_append, String.toList_append] at hchars
  exact topicToFilename_inj.mp (String.toList_inj.mp (append_cancel_right hchars))

theorem separator_notMem_escape (ch : Char) : '/' ∉ escape ch ∧ '\\' ∉ escape ch := by
  unfold escape
  split
  all_goals try decide
  simp only [mem_singleton]
  exact ⟨fun h => ‹¬ch = '/'› h.symm, fun h => ‹¬ch = '\\'› h.symm⟩

theorem lookup_rename_of_ne {β : Type*} {files : Table String β} {source target name : String}
    (hsource : name ≠ source) (htgt : name ≠ target) :
    (rename files source target).lookup name = files.lookup name := by
  unfold rename
  split
  · rfl
  · rw [Finmap.lookup_insert_of_ne _ htgt, Finmap.lookup_erase_ne hsource]

/-- The name of a topic's file: it gives back the topic, stays in the directory, and is neither the
name of another topic nor touched by what is done for one. -/
theorem retained_names_faithful {β : Type*} (topic : String) :
    filenameToTopic (topicToFilename topic) = topic ∧
    (∀ other, other ≠ topic →
      topicToFilename other ≠ topicToFilename topic ∧ fileName other ≠ fileName topic) ∧
    ('/' ∉ (fileName topic).toList ∧ '\\' ∉ (fileName topic).toList ∧
      fileName topic ≠ "." ∧ fileName topic ≠ "..") ∧
    (∀ other, fileName topic ≠ quarantineName other ∧
      ∀ process count, fileName topic ≠ tempName other process count) ∧
    ∀ other, other ≠ topic → ∀ (files : Table String β) (step : FileStep β),
      (step.run other files).lookup (fileName topic) = files.lookup (fileName topic) := by
  have hne : ∀ other, other ≠ topic → fileName topic ≠ fileName other :=
    fun other hother heq => hother (fileName_inj heq).symm
  have hmem : ∀ ch, ch ∈ (fileName topic).toList →
      (∃ c, ch ∈ escape c) ∨ ch ∈ ".json".toList := by
    intro ch hch
    rw [fileName, String.toList_append, mem_append, topicToFilename, String.toList_ofList,
      mem_flatMap] at hch
    exact hch.imp (fun ⟨c, _, hc⟩ => ⟨c, hc⟩) id
  have hlast : ∀ name, name.toList.getLast? ≠ some 'n' → fileName topic ≠ name :=
    fun name hname heq => hname (heq ▸ getLast?_fileName topic)
  refine ⟨filenameToTopic_topicToFilename topic, fun other hother =>
      ⟨fun heq => hother (topicToFilename_inj.mp heq), (hne other hother).symm⟩,
    ⟨fun h => ?_, fun h => ?_, hlast _ (by decide), hlast _ (by decide)⟩,
    fun other => ⟨fileName_ne_quarantineName topic other, fileName_ne_tempName topic other⟩,
    fun other hother files step => ?_⟩
  · rcases hmem _ h with ⟨c, hc⟩ | hc
    · exact (separator_notMem_escape c).1 hc
    · exact absurd hc (by decide)
  · rcases hmem _ h with ⟨c, hc⟩ | hc
    · exact (separator_notMem_escape c).2 hc
    · exact absurd hc (by decide)
  · have hfile := hne other hother
    have htemp := fileName_ne_tempName topic other
    cases step with
    | writeTemp process count _ => exact Finmap.lookup_insert_of_ne _ (htemp process count)
    | removeTemp process count => exact Finmap.lookup_erase_ne (htemp process count)
    | install process count => exact lookup_rename_of_ne (htemp process count) hfile
    | quarantine => exact lookup_rename_of_ne hfile (fileName_ne_quarantineName topic other)
    | remove => exact Finmap.lookup_erase_ne hfile

/-! ## Files -/

/-- `serde_json` at retained messages; `β` are the contents of files. -/
structure RetainedJson (β : Type*) where
  toVec : RetainedMessage → β
  fromSlice : β → Option RetainedMessage
  round_trip : ∀ m, fromSlice (toVec m) = some { m with expiresAt := none }

variable {β : Type*}

/-- `store_retained_message`: a name the file system does not take is an error, which the
router only logs. -/
def storeRetainedMessage (json : RetainedJson β) (accepts : String → Bool) (files : Table String β)
    (topic : String) (message : RetainedMessage) : Table String β :=
  let filename := topicToFilename topic
  if accepts filename then files.insert filename (json.toVec message) else files

def removeRetainedMessage (files : Table String β) (topic : String) : Table String β :=
  files.erase (topicToFilename topic)

/-- `get_retained_messages`, for the files as they are listed; an unreadable one is skipped. -/
def getRetainedMessages (json : RetainedJson β) (listing : List (String × β)) (topicFilter : String)
    (now : SystemTime) : List (String × RetainedMessage) :=
  listing.filterMap fun (filename, text) =>
    let topic := filenameToTopic filename
    if topicMatchesFilter topic topicFilter then
      match json.fromSlice text with
      | some message => if message.isExpired now then none else some (topic, message)
      | none => none
    else none

theorem topics_getRetainedMessages (json : RetainedJson β) (listing : List (String × β))
    (topicFilter : String) (now : SystemTime) :
    ((getRetainedMessages json listing topicFilter now).map Prod.fst).Sublist
      (listing.map fun e => filenameToTopic e.1) := by
  unfold getRetainedMessages
  refine Table.sublist_map_filterMap ?_ listing
  rintro ⟨_, _⟩ entry hread
  dsimp only at hread
  split at hread
  · split at hread
    · split at hread <;> cases hread
      rfl
    · cases hread
  · cases hread

end MqttLib.Storage.RetainedFiles
