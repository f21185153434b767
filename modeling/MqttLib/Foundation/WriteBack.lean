/-
MqttLib.Foundation.WriteBack

A write-back buffer in front of a store of records.  Stores and removals are kept
in memory and written out in batches; the buffer remembers which records it has
written, and drops a pair of store and removal of a record it believes is not in
the store.

What happens to one record is an automaton on one cell (`Cell`).  Its belief starts
as "not in the store", so a record that was there from the beginning is treated
differently until something about it has been written out.  `Cell.file_eq_iff` says
for which sequences of operations the store ends up as if they had been applied
directly.
-/

import MqttLib.Foundation.LastWrite

namespace MqttLib.Foundation

open List

/-! ## One record -/

/-- What can happen to one record; `take` is the end of a batch. -/
inductive CellOp (ν : Type*) where
  | store (v : ν)
  | remove
  | clear
  | take
  deriving DecidableEq

namespace CellOp

variable {ν : Type*}

/-- The value after an operation applied directly. -/
def applied (value : Option ν) : CellOp ν → Option ν
  | .store v => some v
  | .remove => none
  | .clear => none
  | .take => value

def isTake : CellOp ν → Bool
  | .take => true
  | _ => false

end CellOp

/-- A record in the store, and what the buffer has for it: whether it believes the
record written, an entry not yet written, and whether its group is to be cleared
first. -/
structure Cell (ν : Type*) where
  file : Option ν
  known : Bool
  entry : Option (Option ν)
  cleared : Bool

namespace Cell

variable {ν : Type*} {value : Option ν} {ops : List (CellOp ν)}

/-- What the store will hold once the buffer is written out. -/
def effective (c : Cell ν) : Option ν :=
  c.entry.getD (if c.cleared then none else c.file)

def step (c : Cell ν) : CellOp ν → Cell ν
  | .store v => { c with entry := some (some v) }
  | .remove =>
    match c.entry, c.known with
    | some (some _), false => { c with entry := none }
    | _, _ => { c with entry := some none }
  | .clear => { c with entry := none, known := false, cleared := true }
  | .take =>
    { file := c.effective
      known := c.entry.elim c.known Option.isSome
      entry := none
      cleared := false }

def run (c : Cell ν) (ops : List (CellOp ν)) : Cell ν := ops.foldl step c

/-- The record with nothing buffered for it. -/
def fresh (file : Option ν) : Cell ν := ⟨file, false, none, false⟩

/-- The value with all operations applied directly. -/
def applied (file : Option ν) (ops : List (CellOp ν)) : Option ν := ops.foldl CellOp.applied file

theorem run_snoc (c : Cell ν) (ops : List (CellOp ν)) (op : CellOp ν) :
    c.run (ops ++ [op]) = (c.run ops).step op := by
  simp [run]

theorem applied_snoc (file : Option ν) (ops : List (CellOp ν)) (op : CellOp ν) :
    applied file (ops ++ [op]) = op.applied (applied file ops) := by
  simp [applied]

/-! ### A buffer that knows the record -/

/-- The belief is right, or about to become so, and the buffer has the value. -/
structure Agrees (c : Cell ν) (value : Option ν) : Prop where
  known : if c.cleared then c.known = false else c.known = c.file.isSome
  value : c.effective = value

theorem Agrees.step {c : Cell ν} (h : c.Agrees value) (op : CellOp ν) :
    (c.step op).Agrees (op.applied value) := by
  obtain ⟨hknown, hvalue⟩ := h
  obtain ⟨file, known, entry, cleared⟩ := c
  cases op with
  | store v => exact ⟨hknown, rfl⟩
  | clear => exact ⟨rfl, rfl⟩
  | remove =>
    -- a dropped pair is right because the record is not in the store
    rcases entry with _ | _ | v
    · exact ⟨hknown, rfl⟩
    · exact ⟨hknown, rfl⟩
    · cases known with
      | true => exact ⟨hknown, rfl⟩
      | false =>
        refine ⟨hknown, ?_⟩
        cases cleared with
        | true => rfl
        | false =>
          have habsent : file.isSome = false := hknown.symm
          show file = none
          simpa using habsent
  | take =>
    refine ⟨?_, hvalue⟩
    rcases entry with _ | _ | v
    · cases cleared with
      | true => exact hknown
      | false => exact hknown
    · rfl
    · rfl

theorem agrees_run {c : Cell ν} (h : c.Agrees value) (ops : List (CellOp ν)) :
    (c.run ops).Agrees (ops.foldl CellOp.applied value) := by
  induction ops generalizing c value with
  | nil => exact h
  | cons op ops ih => exact ih (h.step op)

/-! ### A record the buffer does not know -/

/-- The operations without the ends of batches. -/
def writes (ops : List (CellOp ν)) : List (CellOp ν) := ops.filter fun op => !op.isTake

/-- The last operations were a store and the removal of what it stored. -/
def EndsUndone (ops : List (CellOp ν)) : Prop := ∃ front v, ops = front ++ [.store v, .remove]

/-- No batch has taken anything about the record, and its group was not cleared: at the
end of every batch there was no operation yet, or the last two undid each other. -/
structure Lingers (ops : List (CellOp ν)) : Prop where
  clear : .clear ∉ ops
  take : ∀ front, front ++ [.take] <+: ops → writes front = [] ∨ EndsUndone (writes front)

/-- The removal of a record from before never reaches the store. -/
def Lost (ops : List (CellOp ν)) : Prop := Lingers ops ∧ EndsUndone (writes ops)

theorem writes_snoc_take (ops : List (CellOp ν)) : writes (ops ++ [.take]) = writes ops := by
  simp [writes, CellOp.isTake]

theorem writes_snoc {op : CellOp ν} (hop : op ≠ .take) (ops : List (CellOp ν)) :
    writes (ops ++ [op]) = writes ops ++ [op] := by
  have hkeep : op.isTake = false := by cases op <;> simp_all [CellOp.isTake]
  simp [writes, hkeep]

theorem lingers_nil : Lingers ([] : List (CellOp ν)) :=
  ⟨not_mem_nil, fun front h => by simp at h⟩

theorem lingers_snoc (ops : List (CellOp ν)) (op : CellOp ν) :
    Lingers (ops ++ [op]) ↔ Lingers ops ∧ op ≠ .clear ∧
      (op = .take → writes ops = [] ∨ EndsUndone (writes ops)) := by
  constructor
  · intro h
    refine ⟨⟨fun hmem => h.clear (mem_append_left _ hmem), fun front hfront => ?_⟩, ?_, ?_⟩
    · exact h.take front (hfront.trans (prefix_append _ _))
    · rintro rfl
      exact h.clear (mem_append_right _ mem_cons_self)
    · rintro rfl
      exact h.take ops (prefix_refl _)
  · rintro ⟨h, hclear, htake⟩
    refine ⟨fun hmem => ?_, fun front hfront => ?_⟩
    · rcases mem_append.mp hmem with hmem | hmem
      · exact h.clear hmem
      · exact hclear (mem_singleton.mp hmem).symm
    · rcases prefix_concat_iff.mp hfront with heq | hfront
      · obtain ⟨rfl, hop⟩ := append_inj' heq rfl
        exact htake (singleton_inj.mp hop).symm
      · exact h.take front hfront

/-- What the buffer holds for a record it does not know, from the last two operations. -/
def bufferedEntry (ws : List (CellOp ν)) : Option (Option ν) :=
  match ws.reverse with
  | .store v :: _ => some (some v)
  | .remove :: .store _ :: _ => none
  | .remove :: _ => some none
  | _ => none

theorem bufferedEntry_store (ws : List (CellOp ν)) (v : ν) :
    bufferedEntry (ws ++ [.store v]) = some (some v) := by
  simp [bufferedEntry]

/-- A removal takes back the store before it, or is kept itself. -/
theorem bufferedEntry_remove (ws : List (CellOp ν)) :
    bufferedEntry (ws ++ [.remove]) =
      match bufferedEntry ws with
      | some (some _) => none
      | _ => some none := by
  unfold bufferedEntry
  rw [reverse_concat]
  rcases ws.reverse with _ | ⟨op, rest⟩
  · rfl
  · cases op with
    | store v => rfl
    | clear => rfl
    | take => rfl
    | remove =>
      rcases rest with _ | ⟨op', rest⟩
      · rfl
      · cases op' <;> rfl

theorem writes_cases (h : .clear ∉ ops) :
    writes ops = [] ∨ (∃ front v, writes ops = front ++ [.store v]) ∨ EndsUndone (writes ops) ∨
      (¬ EndsUndone (writes ops) ∧ ∃ front, writes ops = front ++ [.remove]) := by
  have hlast : ∀ op ∈ writes ops, op ≠ .clear ∧ op ≠ .take := by
    intro op hop
    obtain ⟨hmem, hkeep⟩ := mem_filter.mp hop
    refine ⟨fun heq => h (heq ▸ hmem), fun heq => ?_⟩
    subst heq
    simp [CellOp.isTake] at hkeep
  rcases eq_nil_or_concat (writes ops) with hnil | ⟨front, op, hconcat⟩
  · exact .inl hnil
  rw [concat_eq_append] at hconcat
  obtain ⟨hclear, htake⟩ := hlast op (hconcat ▸ mem_append_right _ mem_cons_self)
  cases op with
  | clear => exact absurd rfl hclear
  | take => exact absurd rfl htake
  | store v => exact .inr (.inl ⟨front, v, hconcat⟩)
  | remove =>
    by_cases hund : EndsUndone (writes ops)
    · exact .inr (.inr (.inl hund))
    · exact .inr (.inr (.inr ⟨hund, front, hconcat⟩))

theorem bufferedEntry_undone {ws : List (CellOp ν)} (h : EndsUndone ws) :
    bufferedEntry ws = none := by
  obtain ⟨front, v, rfl⟩ := h
  have hsplit : front ++ [.store v, .remove] = (front ++ [.store v]) ++ [.remove] := by simp
  rw [hsplit, bufferedEntry_remove, bufferedEntry_store]

theorem bufferedEntry_removed {front : List (CellOp ν)}
    (h : ¬ EndsUndone (front ++ [.remove])) : bufferedEntry (front ++ [.remove]) = some none := by
  rw [bufferedEntry_remove]
  rcases hent : bufferedEntry front with _ | _ | v
  · rfl
  · rfl
  · -- a buffered value comes from a store just before
    refine absurd ?_ h
    unfold bufferedEntry at hent
    split at hent
    · rename_i v' rest hrev
      refine ⟨rest.reverse, v', ?_⟩
      have hfront : front = rest.reverse ++ [.store v'] := by
        rw [← reverse_reverse front, hrev, reverse_cons]
      rw [hfront, append_assoc]
      rfl
    · cases hent
    · cases hent
    · cases hent

theorem applied_writes (file : Option ν) (ops : List (CellOp ν)) :
    applied file ops = applied file (writes ops) := by
  induction ops using reverseRecOn with
  | nil => rfl
  | append_singleton ops op ih =>
    rw [applied_snoc, ih]
    by_cases hop : op = .take
    · subst hop
      rw [writes_snoc_take]
      rfl
    · rw [writes_snoc hop, applied_snoc]

/-- The buffer's entry for a lingering record, where it has one, is its value. -/
theorem applied_of_bufferedEntry {file : Option ν} (h : .clear ∉ ops)
    (hent : bufferedEntry (writes ops) = some value) :
    applied file ops = value := by
  rw [applied_writes]
  rcases writes_cases h with hnil | ⟨front, v, hstore⟩ | hund | ⟨hund, front, hremove⟩
  · rw [hnil] at hent
    cases hent
  · rw [hstore, bufferedEntry_store] at hent
    rw [hstore, applied_snoc]
    exact Option.some.inj hent
  · rw [bufferedEntry_undone hund] at hent
    cases hent
  · rw [hremove] at hund hent ⊢
    rw [bufferedEntry_removed hund] at hent
    rw [applied_snoc]
    exact Option.some.inj hent

/-- A record from before lingers unknown with what the buffer has for it, or the buffer
agrees with the operations. -/
theorem run_cases (x : ν) (ops : List (CellOp ν)) :
    (Lingers ops ∧ (fresh (some x)).run ops = ⟨some x, false, bufferedEntry (writes ops), false⟩) ∨
      (¬ Lingers ops ∧ ((fresh (some x)).run ops).Agrees (applied (some x) ops)) := by
  induction ops using reverseRecOn with
  | nil => exact .inl ⟨lingers_nil, rfl⟩
  | append_singleton ops op ih =>
    rw [run_snoc, applied_snoc, lingers_snoc]
    rcases ih with ⟨hling, hrun⟩ | ⟨hknown, hagrees⟩
    · rw [hrun]
      cases op with
      | store v =>
        refine .inl ⟨⟨hling, by simp, by simp⟩, ?_⟩
        rw [writes_snoc (by simp), bufferedEntry_store]
        rfl
      | remove =>
        refine .inl ⟨⟨hling, by simp, by simp⟩, ?_⟩
        rw [writes_snoc (by simp), bufferedEntry_remove]
        rcases bufferedEntry (writes ops) with _ | _ | v <;> rfl
      | clear => exact .inr ⟨fun h => h.2.1 rfl, rfl, rfl⟩
      | take =>
        by_cases hidle : writes ops = [] ∨ EndsUndone (writes ops)
        · refine .inl ⟨⟨hling, by simp, fun _ => hidle⟩, ?_⟩
          have hnone : bufferedEntry (writes ops) = none := by
            rcases hidle with hnil | hund
            · rw [hnil]
              rfl
            · exact bufferedEntry_undone hund
          rw [writes_snoc_take, hnone]
          rfl
        · refine .inr ⟨fun h => hidle (h.2.2 rfl), ?_⟩
          obtain ⟨value, hent⟩ : ∃ value, bufferedEntry (writes ops) = some value := by
            rcases writes_cases hling.clear with
              hnil | ⟨front, v, hstore⟩ | hund | ⟨hund, front, hremove⟩
            · exact absurd (.inl hnil) hidle
            · exact ⟨some v, by rw [hstore, bufferedEntry_store]⟩
            · exact absurd (.inr hund) hidle
            · rw [hremove] at hund ⊢
              exact ⟨none, bufferedEntry_removed hund⟩
          rw [hent]
          refine ⟨rfl, ?_⟩
          show value = applied (some x) ops
          rw [applied_of_bufferedEntry hling.clear hent]
    · exact .inr ⟨fun h => hknown h.1, hagrees.step op⟩

/-- Once everything is written out, the record in the store is as if the operations had
been applied directly, unless it was there from before and its removal is lost. -/
theorem file_eq_iff (file : Option ν) (ops : List (CellOp ν)) :
    ((fresh file).run (ops ++ [.take])).file = applied file ops ↔ (file.isSome → ¬ Lost ops) := by
  rw [run_snoc]
  show ((fresh file).run ops).effective = applied file ops ↔ _
  cases file with
  | none =>
    have hfresh : (fresh (none : Option ν)).Agrees none := ⟨rfl, rfl⟩
    have hagrees := agrees_run hfresh ops
    exact iff_of_true hagrees.value (fun h => by cases h)
  | some x =>
    rcases run_cases x ops with ⟨hling, hrun⟩ | ⟨hknown, hagrees⟩
    · rw [hrun]
      show (bufferedEntry (writes ops)).getD (some x) = applied (some x) ops ↔ _
      rcases writes_cases hling.clear with
        hnil | ⟨front, v, hstore⟩ | hund | ⟨hund, front, hremove⟩
      · refine iff_of_true ?_ fun _ hlost => ?_
        · rw [applied_writes, hnil]
          rfl
        · obtain ⟨-, front, v, hends⟩ := hlost
          rw [hnil] at hends
          simp at hends
      · refine iff_of_true ?_ fun _ hlost => ?_
        · rw [applied_of_bufferedEntry hling.clear (hstore ▸ bufferedEntry_store front v), hstore,
            bufferedEntry_store]
          rfl
        · obtain ⟨-, _, _, hends⟩ := hlost
          rw [hstore] at hends
          have hlast := congrArg getLast? hends
          simp at hlast
      · -- the pair is dropped, and the record from before stays
        refine iff_of_false ?_ fun h => h rfl ⟨hling, hund⟩
        rw [bufferedEntry_undone hund, applied_writes]
        obtain ⟨front, v, hends⟩ := hund
        rw [hends]
        simp [applied, CellOp.applied]
      · refine iff_of_true ?_ fun _ hlost => hund hlost.2
        have hent : bufferedEntry (writes ops) = some none := by
          rw [hremove] at hund ⊢
          exact bufferedEntry_removed hund
        rw [applied_of_bufferedEntry hling.clear hent, hent]
        rfl
    · exact iff_of_true hagrees.value fun _ hlost => hknown hlost.1

end Cell

/-! ## A buffer for many records -/

/-- Entries not yet written, and the keys believed to be in the store. -/
structure Buffer (κ μ : Type*) where
  entries : Table κ (Option μ) := ∅
  onDisk : Finset κ := ∅

namespace Buffer

variable {κ μ ν : Type*} [DecidableEq κ]

def store (b : Buffer κ μ) (k : κ) (m : μ) : Buffer κ μ :=
  { b with entries := b.entries.insert k (some m) }

/-- Whether a stored value is waiting that was never written. -/
def unwritten (b : Buffer κ μ) (k : κ) : Bool :=
  ((b.entries.lookup k).any fun entry => entry.isSome) && !decide (k ∈ b.onDisk)

def remove (b : Buffer κ μ) (k : κ) : Buffer κ μ :=
  if b.unwritten k then { b with entries := b.entries.erase k }
  else { b with entries := b.entries.insert k none }

/-- Forget every key that fails the test. -/
def retain (b : Buffer κ μ) (p : κ → Bool) : Buffer κ μ where
  entries := b.entries.retain p
  onDisk := b.onDisk.filter fun k => p k

/-- The loop over a batch that updates the beliefs. -/
def mark (order : List (κ × Option μ)) (onDisk : Finset κ) : Finset κ :=
  order.foldl (fun s e => if e.2.isSome then insert e.1 s else s.erase e.1) onDisk

/-- The buffer after its entries were taken. -/
def taken (b : Buffer κ μ) (order : List (κ × Option μ)) : Buffer κ μ where
  entries := ∅
  onDisk := mark order b.onDisk

/-- The automaton's view of one key; `text` is what is written for a value. -/
def cell (text : μ → ν) (b : Buffer κ μ) (cleared : Bool) (file : Option ν) (k : κ) : Cell ν where
  file := file
  known := decide (k ∈ b.onDisk)
  entry := (b.entries.lookup k).map fun entry => entry.map text
  cleared := cleared

theorem mem_mark_of_not_mem (order : List (κ × Option μ)) (s : Finset κ) {k : κ}
    (h : k ∉ order.map Prod.fst) : k ∈ mark order s ↔ k ∈ s := by
  induction order generalizing s with
  | nil => rfl
  | cons e order ih =>
    rw [map_cons, mem_cons, not_or] at h
    rw [mark, foldl_cons, ← mark, ih _ h.2]
    split <;> simp [h.1]

theorem mem_mark (order : List (κ × Option μ)) (s : Finset κ) {k : κ} {entry : Option μ}
    (hnd : (order.map Prod.fst).Nodup) (hmem : (k, entry) ∈ order) :
    k ∈ mark order s ↔ entry.isSome := by
  induction order generalizing s with
  | nil => cases hmem
  | cons e order ih =>
    rw [map_cons, nodup_cons] at hnd
    rw [mark, foldl_cons, ← mark]
    rcases mem_cons.mp hmem with rfl | hmem
    · rw [mem_mark_of_not_mem _ _ hnd.1]
      split <;> simp_all
    · exact ih _ hnd.2 hmem

section

variable (text : μ → ν) (b : Buffer κ μ) (cleared : Bool) (file : Option ν)

theorem cell_store (k k' : κ) (m : μ) : (b.store k m).cell text cleared file k' =
    (if k' = k then some (.store (text m)) else none).elim (b.cell text cleared file k')
      (b.cell text cleared file k').step := by
  unfold cell store
  split_ifs with h
  · subst h
    rw [Finmap.lookup_insert]
    rfl
  · rw [Finmap.lookup_insert_of_ne _ h]
    rfl

theorem cell_remove (k k' : κ) : (b.remove k).cell text cleared file k' =
    (if k' = k then some .remove else none).elim (b.cell text cleared file k')
      (b.cell text cleared file k').step := by
  unfold remove unwritten
  by_cases h : k' = k
  · subst h
    rcases hent : b.entries.lookup k' with _ | _ | m
    · simp [cell, Cell.step, hent]
    · simp [cell, Cell.step, hent]
    · by_cases hdisk : k' ∈ b.onDisk <;> simp [cell, Cell.step, hent, hdisk]
  · split <;> simp [cell, h]

theorem cell_retain (p : κ → Bool) (k : κ) :
    (b.retain p).cell text (cleared || !p k) file k =
      if p k then b.cell text cleared file k else (b.cell text cleared file k).step .clear := by
  by_cases hp : p k
  · simp [retain, cell, Table.lookup_retain, hp]
  · simp [retain, cell, Table.lookup_retain, hp, Cell.step]

theorem cell_taken {order : List (κ × Option μ)} (horder : b.entries.Lists order) (k : κ) :
    (b.taken order).cell text false (b.cell text cleared file k).effective k =
      (b.cell text cleared file k).step .take := by
  rcases hent : b.entries.lookup k with _ | entry
  · have hnot : k ∉ order.map Prod.fst := by
      intro hmem
      obtain ⟨⟨k', v⟩, hkv, rfl⟩ := mem_map.mp hmem
      rw [(horder.mem k' v).mp hkv] at hent
      cases hent
    simp [taken, cell, Cell.step, hent, mem_mark_of_not_mem order b.onDisk hnot]
  · have hmem := (horder.mem k entry).mpr hent
    have hmark := mem_mark order b.onDisk horder.nodup hmem
    simp [taken, cell, Cell.step, hent, hmark]

end

/-- Writing out a batch: what the store then holds under each key. -/
theorem applyWrites_map_lists (text : μ → ν) {m : Table κ (Option μ)}
    {order : List (κ × Option μ)} (horder : m.Lists order) (d : κ → Option ν) (k : κ) :
    applyWrites d (order.map fun e => (e.1, e.2.map text)) k =
      ((m.lookup k).map fun entry => entry.map text).getD (d k) := by
  have hlists : (m.mapValues fun entry => entry.map text).Lists
      (order.map fun e => (e.1, e.2.map text)) := by
    refine ⟨?_, fun k v => ?_⟩
    · rw [map_map]
      exact horder.nodup
    · rw [Table.lookup_mapValues, Option.map_eq_some_iff, mem_map]
      constructor
      · rintro ⟨⟨k', v'⟩, hmem, heq⟩
        cases heq
        exact ⟨v', (horder.mem k' v').mp hmem, rfl⟩
      · rintro ⟨v', hv', rfl⟩
        exact ⟨(k, v'), (horder.mem k v').mpr hv', rfl⟩
  rw [applyWrites_lists hlists, Table.lookup_mapValues]

end Buffer

end MqttLib.Foundation
