/-
MqttLib.SessionLog.Writer

`LogWriter`: the half of the session log that owns the file.  Its methods are
programs over the directory of `Foundation.ReplacedFile`, so that every file
operation can fail and a crash can fall between any two of them.

`append` is the group commit: repair first when the log is not sound, write and
sync the batch, take a failed append back by truncating (or, where that fails,
by rewriting), and only then record the lines as durable.
-/

import MqttLib.SessionLog.Codec

namespace MqttLib.SessionLog

open Foundation Storage Protocol

inductive Health where
  | sound
  | needsRepair
  | damagedOriginal
  deriving DecidableEq

/-- An open handle; it is always one of the file under the log's name. -/
inductive LogFile where
  | handle
  deriving DecidableEq

/-- One encoded write of a batch. -/
structure LogLine where
  clientId : String
  line : Bytes
  live : Bool
  deriving DecidableEq

/-- `LogWriter`; its directory and path never change and are left out. -/
structure LogWriter where
  file : Option LogFile
  len : Nat
  durable : Table String Bytes
  liveBytes : Nat
  health : Health
  flushes : Nat

/-- Programs of the writer. -/
abbrev WriterM := Prog LogWriter FileOp FileOp.Resp

/-- `COMPACT_FLOOR`. -/
def compactFloor : Nat := 1 <<< 20

namespace LogWriter

open Prog

/-! ## In memory -/

def recordDurable (w : LogWriter) (clientId : String) (record : Bytes) (keep : Bool) : LogWriter :=
  let previous := w.durable.lookup clientId
  let durable := if keep then w.durable.insert clientId record else w.durable.erase clientId
  let liveBytes := previous.elim w.liveBytes fun previous => w.liveBytes - previous.length
  { w with
    durable := durable
    liveBytes := if keep then liveBytes + record.length else liveBytes }

/-- The last loop of `append`. -/
def recordLines (w : LogWriter) (lines : List LogLine) : LogWriter :=
  lines.foldl (fun w line => w.recordDurable line.clientId line.line line.live) w

def needsCompaction (w : LogWriter) : Bool :=
  decide (max compactFloor (w.liveBytes * 2) < w.len)

def markForRepair (w : LogWriter) : LogWriter :=
  if w.health = .sound then { w with health := .needsRepair } else w

/-! ## Rewriting the file -/

/-- The loop of `write_snapshot` over the lines. -/
def writeLines : List Bytes → WriterM Bool
  | [] => pure true
  | line :: lines => do
    let written ← ask (.writeTemp line)
    if written then writeLines lines else pure false

def writeSnapshot (lines : List Bytes) : WriterM (Except MqttError Unit) := do
  let created ← ask .createTemp
  if created then
    let written ← writeLines lines
    if written then
      let synced ← ask .syncTemp
      if synced then pure (.ok ()) else pure (.error (.io "Failed to sync"))
    else pure (.error (.io "Failed to write"))
  else pure (.error (.io "Failed to create"))

/-- `compact`: write the durable records to a temporary file and install it.  The
handle is closed before the rename, and the log is sound again only once the
directory is synced and the new file open. -/
def compact : WriterM (Except MqttError Unit) := do
  let w ← get
  let lines : List Bytes ← ask (FileOp.listing w.durable.values)
  let snapshot ← writeSnapshot lines
  match snapshot with
  | .error e =>
    let _ ← ask .removeTemp
    modify markForRepair
    pure (.error e)
  | .ok () =>
    modify fun w => { w with file := none }
    let renamed ← ask .renameTemp
    if renamed then
      let synced ← ask .syncDir
      let opened : Bool ← if synced then ask FileOp.openAppend else pure false
      if opened then
        modify fun w => { w with file := some .handle, len := w.liveBytes, health := .sound }
        pure (.ok ())
      else
        modify markForRepair
        pure (.error (.io (if synced then "Failed to open" else "Failed to sync")))
    else
      let _ ← ask .removeTemp
      modify markForRepair
      pure (.error (.io "Failed to install the compacted session log"))

/-- `preserve_copy`: the damaged file is kept under another name. -/
def preserveCopy : WriterM (Except MqttError Unit) := do
  let copied ← ask .copyAside
  let opened : Bool ← if copied then ask FileOp.openAside else pure false
  let kept : Bool ← if opened then ask FileOp.syncAside else pure false
  if kept then
    let synced ← ask .syncDir
    if synced then pure (.ok ()) else pure (.error (.io "Failed to sync"))
  else
    let _ ← ask .removeAside
    pure (.error (.io "Failed to preserve the damaged session log"))

def repair : WriterM (Except MqttError Unit) := do
  let w ← get
  if w.health = .damagedOriginal then
    let copy ← preserveCopy
    match copy with
    | .error e => pure (.error e)
    | .ok () =>
      modify fun w => { w with health := .needsRepair }
      compact
  else compact

/-! ## Appending -/

def writeAndSync (bytes : Bytes) : WriterM (Except MqttError Unit) := do
  let w ← get
  match w.file with
  | none => pure (.error (.io "session log is not open"))
  | some _ =>
    let written ← ask (.write bytes)
    if written then
      let synced ← ask .sync
      if synced then pure (.ok ()) else pure (.error (.io "Failed to sync the session log"))
    else pure (.error (.io "Failed to append to the session log"))

def truncateToDurable : WriterM (Except MqttError Unit) := do
  let w ← get
  match w.file with
  | none => pure (.error (.io "session log is not open"))
  | some _ =>
    let cut ← ask (.setLen w.len)
    let synced : Bool ← if cut then ask FileOp.sync else pure false
    if synced then pure (.ok ()) else pure (.error (.io "Failed to truncate the session log"))

def discardFailedAppend : WriterM Unit := do
  let truncated ← truncateToDurable
  match truncated with
  | .ok () => pure ()
  | .error _ =>
    modify fun w => { w with health := .needsRepair }
    let _ ← repair
    pure ()

/-- The part of `append` behind the repair. -/
def appendSound (lines : List LogLine) : WriterM (Except MqttError Unit) := do
  let bytes := lines.flatMap fun line => line.line
  let written ← if bytes ≠ [] then writeAndSync bytes else pure (.ok ())
  match written with
  | .error e =>
    discardFailedAppend
    pure (.error e)
  | .ok () =>
    modify fun w =>
      if bytes ≠ [] then { w with len := w.len + bytes.length, flushes := w.flushes + 1 } else w
    modify fun w => w.recordLines lines
    pure (.ok ())

/-- The first lines of `append`: a log that is not sound is repaired. -/
def prepare : WriterM (Except MqttError Unit) := do
  let w ← get
  if w.health ≠ .sound then repair else pure (.ok ())

def append (lines : List LogLine) : WriterM (Except MqttError Unit) := do
  let prepared ← prepare
  match prepared with
  | .error e => pure (.error e)
  | .ok () => appendSound lines

end LogWriter

/-! ## Opening -/

/-- `import_legacy_files` on what reading each file gave; unreadable and undecodable
files are put aside.  Also the number of imported files. -/
def importLegacyFiles (json : SerdeJson) (now : SystemTime) :
    List (Option Bytes) → Loaded → Loaded × Nat
  | [], loaded => (loaded, 0)
  | file :: files, loaded =>
    match file.bind json.sessionFromSlice with
    | none => importLegacyFiles json now files loaded
    | some session =>
      match encode json session.clientId (some session) with
      | .error _ => importLegacyFiles json now files loaded
      | .ok line =>
        let (rest, count) := importLegacyFiles json now files
          (loaded.insert session.clientId (session.restore now, line))
        (rest, count + 1)

/-- The writer `open_blocking` starts from, before its first repair. -/
def LogWriter.opened (loaded : Loaded) (summary : ReplaySummary) : LogWriter :=
  let durable := loaded.mapValues fun entry => entry.2
  { file := none
    len := 0
    durable := durable
    liveBytes := (durable.values.map List.length).sum
    health := if summary.damaged > 0 then .damagedOriginal else .needsRepair
    flushes := 0 }

/-- The end of `open_blocking`: a failed first repair is fatal only to an import. -/
def finishOpening (loaded : Loaded) (legacy : Option (List (Option Bytes))) (imported : Nat) :
    WriterM (Except MqttError (Table String ClientSession)) := do
  let repaired ← LogWriter.repair
  match repaired, legacy with
  | .error _, some _ => pure (.error (.io "Cannot migrate the sessions to the session log"))
  | _, _ =>
    let synced : Bool ← if imported > 0 then Prog.ask FileOp.syncDir else pure true
    if synced then pure (.ok (loaded.mapValues fun entry => entry.1))
    else pure (.error (.io "Failed to sync"))

/-- What is served once the log has been read, and how many files were imported. -/
def withLegacy (json : SerdeJson) (now : SystemTime) (legacy : Option (List (Option Bytes)))
    (replayed : Loaded) : Loaded × Nat :=
  match legacy with
  | some files => importLegacyFiles json now files replayed
  | none => (replayed, 0)

/-- `open_blocking`; `legacy` is what reading the per-session files of the old layout
gave, when they are to be imported. -/
def openBlocking (json : SerdeJson) (now : SystemTime) (legacy : Option (List (Option Bytes))) :
    WriterM (Except MqttError (Table String ClientSession)) := do
  let _ ← Prog.ask FileOp.removeTemp
  let contents : ReadResult ← Prog.ask FileOp.readAll
  let moved : Bool ← match contents with
    | .unreadable => Prog.ask FileOp.moveAside
    | _ => pure true
  if moved then
    let (replayed, summary) := match contents with
      | .bytes bytes => replay json now bytes ∅
      | _ => (∅, {})
    let (loaded, imported) := withLegacy json now legacy replayed
    Prog.set (LogWriter.opened loaded summary)
    finishOpening loaded legacy imported
  else pure (.error (.io "Session log is unreadable and cannot be moved aside"))

end MqttLib.SessionLog
