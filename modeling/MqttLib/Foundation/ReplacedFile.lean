/-
MqttLib.Foundation.ReplacedFile

A directory with one file that is appended to in place and now and then
replaced by a rename, as a device for `Prog`.  Every operation may fail.

What a crash leaves is explicit.  A file has the content a reader sees and the
set of contents a crash may leave (`File.survivors`): an append or truncation
that has not been synced may survive, an append also in part, byte by byte.  A
rename takes effect as a whole, but until the directory is synced a crash may
bring back what stood under the name before (`Disk.stale`).
-/

import MqttLib.Foundation.FaultyProgram
import Mathlib.Data.Set.Lattice
import Mathlib.Data.Multiset.Basic

namespace MqttLib.Foundation

abbrev Bytes := List UInt8

/-- A file: what a reader sees, and what a crash may leave of it. -/
structure File where
  content : Bytes
  survivors : Set Bytes

namespace File

/-- Bytes were appended and not synced: a crash may leave any part of them. -/
def appended (f : File) (bytes written : Bytes) : File where
  content := f.content ++ written
  survivors := f.survivors ∪ {b | ∃ p, p <+: bytes ∧ b = f.content ++ p}

def synced (f : File) : File where
  content := f.content
  survivors := {f.content}

/-- `set_len`: cut, or fill with zero bytes; unsynced. -/
def resized (f : File) (n : Nat) : File where
  content := f.content.take n ++ List.replicate (n - f.content.length) 0
  survivors := f.survivors ∪ {f.content.take n ++ List.replicate (n - f.content.length) 0}

/-- A file whose bytes are all safely stored. -/
def stored (bytes : Bytes) : File := ⟨bytes, {bytes}⟩

end File

/-- The directory: the file under the name, the temporary file written beside it,
and what a crash may still bring back under the name. -/
structure Disk where
  log : Option File
  temp : Option File
  stale : Set (Option Bytes)

/-- What a crash may leave under the name; `none` is no file. -/
def Disk.survivors (d : Disk) : Set (Option Bytes) :=
  d.stale ∪ match d.log with
    | some f => some '' f.survivors
    | none => {none}

/-- How reading the file under the name ended. -/
inductive ReadResult where
  | bytes (content : Bytes)
  | notFound
  | unreadable

/-- Operations on the directory. -/
inductive FileOp where
  | write (bytes : Bytes)
  | sync
  | setLen (n : Nat)
  | createTemp
  | writeTemp (bytes : Bytes)
  | syncTemp
  | removeTemp
  | renameTemp
  | syncDir
  | openAppend
  | readAll
  | moveAside
  | copyAside
  | openAside
  | syncAside
  | removeAside
  /-- Not a file operation: the order in which an unordered table is listed. -/
  | listing (values : Multiset Bytes)

/-- Answers: `true` is success. -/
@[reducible]
def FileOp.Resp : FileOp → Type
  | .readAll => ReadResult
  | .listing _ => List Bytes
  | _ => Bool

namespace Disk

/-- The file under the name replaced by `f`; the old one may come back. -/
def replaced (d : Disk) (f temp : Option File) : Disk where
  log := f
  temp := temp
  stale := d.survivors

/-- The behaviour of the directory. -/
def device : Prog.Device FileOp Disk FileOp.Resp
  | .write bytes, d, ok, d' => ∃ f, d.log = some f ∧ ∃ written, written <+: bytes ∧
      (ok = true → written = bytes) ∧ d' = { d with log := some (f.appended bytes written) }
  | .sync, d, ok, d' => ∃ f, d.log = some f ∧
      ((ok = true ∧ d' = { d with log := some f.synced }) ∨ (ok = false ∧ d' = d))
  | .setLen n, d, ok, d' => ∃ f, d.log = some f ∧
      ((ok = true ∧ d' = { d with log := some (f.resized n) }) ∨ (ok = false ∧ d' = d))
  | .createTemp, d, ok, d' =>
      (ok = true ∧ d' = { d with temp := some ⟨[], {[]}⟩ }) ∨ (ok = false ∧ d' = d)
  | .writeTemp bytes, d, ok, d' => ∃ f, d.temp = some f ∧ ∃ written, written <+: bytes ∧
      (ok = true → written = bytes) ∧ d' = { d with temp := some (f.appended bytes written) }
  | .syncTemp, d, ok, d' => ∃ f, d.temp = some f ∧
      ((ok = true ∧ d' = { d with temp := some f.synced }) ∨ (ok = false ∧ d' = d))
  | .removeTemp, d, ok, d' =>
      (ok = true ∧ d' = { d with temp := none }) ∨ (ok = false ∧ d' = d)
  | .renameTemp, d, ok, d' =>
      (ok = true ∧ d.temp.isSome ∧ d' = d.replaced d.temp none) ∨ (ok = false ∧ d' = d)
  | .syncDir, d, ok, d' => (ok = true ∧ d' = { d with stale := ∅ }) ∨ (ok = false ∧ d' = d)
  | .openAppend, d, ok, d' => (ok = true → d.log.isSome) ∧ d' = d
  | .readAll, d, r, d' => d' = d ∧ match r with
      | .bytes content => ∃ f, d.log = some f ∧ f.content = content
      | .notFound => d.log = none
      | .unreadable => True
  | .moveAside, d, ok, d' => (ok = true ∧ d' = d.replaced none d.temp) ∨ (ok = false ∧ d' = d)
  | .copyAside, d, _, d' => d' = d
  | .openAside, d, _, d' => d' = d
  | .syncAside, d, _, d' => d' = d
  | .removeAside, d, _, d' => d' = d
  | .listing values, d, r, d' =>
      let order : List Bytes := r
      (order : Multiset Bytes) = values ∧ d' = d

/-- The directory where nothing fails; `order` lists tables. -/
def perform (order : Multiset Bytes → Option (List Bytes)) :
    (o : FileOp) → Disk → Option (FileOp.Resp o × Disk)
  | .write bytes, d => d.log.map fun f => (true, { d with log := some (f.appended bytes bytes) })
  | .sync, d => d.log.map fun f => (true, { d with log := some f.synced })
  | .setLen n, d => d.log.map fun f => (true, { d with log := some (f.resized n) })
  | .createTemp, d => some (true, { d with temp := some ⟨[], {[]}⟩ })
  | .writeTemp bytes, d =>
    d.temp.map fun f => (true, { d with temp := some (f.appended bytes bytes) })
  | .syncTemp, d => d.temp.map fun f => (true, { d with temp := some f.synced })
  | .removeTemp, d => some (true, { d with temp := none })
  | .renameTemp, d => if d.temp.isSome then some (true, d.replaced d.temp none) else none
  | .syncDir, d => some (true, { d with stale := ∅ })
  | .openAppend, d => if d.log.isSome then some (true, d) else none
  | .readAll, d => some (d.log.elim .notFound fun f => .bytes f.content, d)
  | .moveAside, d => some (true, d.replaced none d.temp)
  | .copyAside, d => some (true, d)
  | .openAside, d => some (true, d)
  | .syncAside, d => some (true, d)
  | .removeAside, d => some (true, d)
  | .listing values, d => (order values).map fun lines => (lines, d)

theorem device_of_perform {order : Multiset Bytes → Option (List Bytes)}
    (horder : ∀ values lines, order values = some lines → (lines : Multiset Bytes) = values)
    (o : FileOp) (d : Disk) (r : FileOp.Resp o) (d' : Disk)
    (h : perform order o d = some (r, d')) : device o d r d' := by
  cases o with
  | write bytes | writeTemp bytes =>
    obtain ⟨f, hf, heq⟩ := Option.map_eq_some_iff.mp h
    cases heq
    exact ⟨f, hf, bytes, List.prefix_rfl, fun _ => rfl, rfl⟩
  | sync | setLen n | syncTemp =>
    obtain ⟨f, hf, heq⟩ := Option.map_eq_some_iff.mp h
    cases heq
    exact ⟨f, hf, .inl ⟨rfl, rfl⟩⟩
  | renameTemp =>
    simp only [perform] at h
    split at h
    · rename_i htemp
      cases h
      exact .inl ⟨rfl, htemp, rfl⟩
    · cases h
  | openAppend =>
    simp only [perform] at h
    split at h
    · rename_i hlog
      cases h
      exact ⟨fun _ => hlog, rfl⟩
    · cases h
  | readAll =>
    cases h
    refine ⟨rfl, ?_⟩
    cases hlog : d.log with
    | none => rfl
    | some f => exact ⟨f, rfl, rfl⟩
  | listing values =>
    obtain ⟨lines, hlines, heq⟩ := Option.map_eq_some_iff.mp h
    cases heq
    exact ⟨horder values _ hlines, rfl⟩
  | createTemp | removeTemp | syncDir | moveAside =>
    cases h
    exact .inl ⟨rfl, rfl⟩
  | copyAside | openAside | syncAside | removeAside =>
    cases h
    rfl

/-- A directory as a crash leaves it: one certain content under the name. -/
def settled (bytes : Option Bytes) : Disk where
  log := bytes.map File.stored
  temp := none
  stale := ∅

/-! ## What survives -/

theorem mem_survivors_of_log {d : Disk} {f : File} (hlog : d.log = some f) {b : Option Bytes} :
    b ∈ d.survivors ↔ b ∈ d.stale ∨ ∃ c ∈ f.survivors, some c = b := by
  simp [survivors, hlog]

theorem survivors_congr {d d' : Disk} (hlog : d'.log = d.log) (hstale : d'.stale = d.stale) :
    d'.survivors ⊆ d.survivors := by
  rw [survivors, survivors, hlog, hstale]

theorem survivors_replaced_stored (d : Disk) (bytes : Bytes) (t : Option File) :
    (d.replaced (some (File.stored bytes)) t).survivors = d.survivors ∪ {some bytes} := by
  simp [replaced, survivors, File.stored]

/-- Syncing the directory can only rule contents out. -/
theorem survivors_sync_dir_subset (d : Disk) :
    ({ d with stale := ∅ } : Disk).survivors ⊆ d.survivors := by
  intro b hb
  rcases hb with hb | hb
  · exact absurd hb (Set.notMem_empty b)
  · exact .inr hb

@[simp] theorem survivors_settled (bytes : Option Bytes) : (settled bytes).survivors = {bytes} := by
  cases bytes <;> simp [survivors, settled, File.stored]

end Disk

end MqttLib.Foundation
