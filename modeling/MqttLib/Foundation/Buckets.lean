/-
MqttLib.Foundation.Buckets

A table of lists.  Every list is non-empty, and its members differ in an identity that
stands for them: placing a member replaces the one with its identity, or comes last.
-/

import MqttLib.Foundation.LastWrite

namespace MqttLib.Foundation

open List Table

variable {κ α ι : Type*} [DecidableEq κ]

/-! ## One bucket -/

section

variable [DecidableEq ι]

/-- Replaces the member with the same identity, or adds the new one at the end. -/
def place (identity : α → ι) (a : α) : List α → List α
  | [] => [a]
  | b :: l => if identity b = identity a then a :: l else b :: place identity a l

variable {identity : α → ι} {a b : α} {l : List α}

/-- The identities are those that were there, and the new one. -/
theorem map_place : (place identity a l).map identity =
    if identity a ∈ l.map identity then l.map identity else l.map identity ++ [identity a] := by
  induction l with
  | nil => rfl
  | cons b l ih =>
    unfold place
    by_cases hb : identity b = identity a
    · rw [if_pos hb, if_pos (by simp [hb])]
      simp [hb]
    · rw [if_neg hb, map_cons, ih]
      by_cases hmem : identity a ∈ l.map identity
      · rw [if_pos hmem, if_pos (by simp only [map_cons, mem_cons]; exact .inr hmem)]
        rfl
      · have hnot : identity a ∉ (b :: l).map identity := by
          simp only [map_cons, mem_cons, not_or]
          exact ⟨Ne.symm hb, hmem⟩
        rw [if_neg hmem, if_neg hnot]
        rfl

theorem nodup_place (hnd : (l.map identity).Nodup) : ((place identity a l).map identity).Nodup := by
  rw [map_place]
  split
  · exact hnd
  · rename_i hnot
    rw [nodup_append]
    refine ⟨hnd, nodup_singleton _, fun i hi j hj heq => hnot ?_⟩
    rw [mem_singleton] at hj
    rw [← hj, ← heq]
    exact hi

theorem mem_place (hnd : (l.map identity).Nodup) :
    b ∈ place identity a l ↔ b = a ∨ (b ∈ l ∧ identity b ≠ identity a) := by
  induction l with
  | nil => simp [place]
  | cons c l ih =>
    rw [map_cons, nodup_cons] at hnd
    unfold place
    by_cases hc : identity c = identity a
    · rw [if_pos hc, mem_cons, mem_cons]
      constructor
      · rintro (rfl | hb)
        · exact .inl rfl
        · refine .inr ⟨.inr hb, fun heq => hnd.1 ?_⟩
          rw [hc, ← heq]
          exact mem_map_of_mem hb
      · rintro (rfl | ⟨rfl | hb, hne⟩)
        · exact .inl rfl
        · exact absurd hc hne
        · exact .inr hb
    · rw [if_neg hc, mem_cons, mem_cons, ih hnd.2]
      constructor
      · rintro (rfl | rfl | ⟨hb, hne⟩)
        · exact .inr ⟨.inl rfl, hc⟩
        · exact .inl rfl
        · exact .inr ⟨.inr hb, hne⟩
      · rintro (rfl | ⟨rfl | hb, hne⟩)
        · exact .inr (.inl rfl)
        · exact .inl rfl
        · exact .inr (.inr ⟨hb, hne⟩)

end

/-! ## The table -/

/-- The members of one key, or nothing if there are none. -/
def nonempty? (l : List α) : Option (List α) := if l.isEmpty then none else some l

theorem nonempty?_eq_some {l l' : List α} : nonempty? l = some l' ↔ l = l' ∧ l' ≠ [] := by
  unfold nonempty?
  cases l with
  | nil => simp
  | cons a l =>
    simp only [isEmpty_cons, Bool.false_eq_true, if_false, Option.some.injEq]
    constructor
    · rintro rfl
      exact ⟨rfl, cons_ne_nil _ _⟩
    · exact fun h => h.1

/-- An empty table has no lists.  The default proofs of `Buckets` are by name, so that its empty
values are the same term in every module. -/
theorem nonempty_empty (k : κ) (l : List α) (h : (∅ : Table κ (List α)).lookup k = some l) :
    l ≠ [] := by
  cases h

theorem distinct_empty {identity : α → ι} (k : κ) (l : List α)
    (h : (∅ : Table κ (List α)).lookup k = some l) : (l.map identity).Nodup := by
  cases h

structure Buckets (κ : Type*) {α ι : Type*} [DecidableEq κ] (identity : α → ι) where
  table : Table κ (List α) := ∅
  nonempty : ∀ k l, table.lookup k = some l → l ≠ [] := by exact nonempty_empty
  distinct : ∀ k l, table.lookup k = some l → (l.map identity).Nodup := by exact distinct_empty

namespace Buckets

variable {identity : α → ι} {b : Buckets κ identity} {k k' : κ} {a a' : α} {l : List α}
  {p : κ → α → Bool}

/-- The members of a key. -/
def get (b : Buckets κ identity) (k : κ) : List α := (b.table.lookup k).getD []

theorem get_eq_of_lookup (h : b.table.lookup k = some l) : b.get k = l := by
  unfold get
  rw [h]
  rfl

/-- A key with members is in the table. -/
theorem lookup_of_mem (h : a ∈ b.get k) : b.table.lookup k = some (b.get k) := by
  unfold get at h ⊢
  cases hlook : b.table.lookup k with
  | none =>
    rw [hlook] at h
    cases h
  | some l => rfl

theorem nodup_get (b : Buckets κ identity) (k : κ) : ((b.get k).map identity).Nodup := by
  unfold get
  cases hlook : b.table.lookup k with
  | none => exact nodup_nil
  | some l => exact b.distinct k l hlook

/-- Sets the members of a key. -/
def set (b : Buckets κ identity) (k : κ) (l : List α) (hl : (l.map identity).Nodup) :
    Buckets κ identity where
  table := b.table.set k (nonempty? l)
  nonempty k' l' hlookup := by
    by_cases hk : k' = k
    · rw [hk, lookup_set_self] at hlookup
      exact (nonempty?_eq_some.mp hlookup).2
    · rw [lookup_set_of_ne _ _ hk] at hlookup
      exact b.nonempty k' l' hlookup
  distinct k' l' hlookup := by
    by_cases hk : k' = k
    · rw [hk, lookup_set_self] at hlookup
      rw [← (nonempty?_eq_some.mp hlookup).1]
      exact hl
    · rw [lookup_set_of_ne _ _ hk] at hlookup
      exact b.distinct k' l' hlookup

theorem get_set_self (hl : (l.map identity).Nodup) : (b.set k l hl).get k = l := by
  unfold get set
  dsimp only
  rw [lookup_set_self]
  unfold nonempty?
  cases l <;> rfl

theorem get_set_of_ne (hl : (l.map identity).Nodup) (hk : k' ≠ k) :
    (b.set k l hl).get k' = b.get k' := by
  unfold get set
  dsimp only
  rw [lookup_set_of_ne _ _ hk]

/-- Keeps the members that pass a test. -/
def filter (b : Buckets κ identity) (p : κ → α → Bool) : Buckets κ identity where
  table := b.table.filterMapEntries fun k l => nonempty? (l.filter (p k))
  nonempty k l hlookup := by
    rw [lookup_filterMapEntries] at hlookup
    obtain ⟨l', -, hl⟩ := Option.bind_eq_some_iff.mp hlookup
    exact (nonempty?_eq_some.mp hl).2
  distinct k l hlookup := by
    rw [lookup_filterMapEntries] at hlookup
    obtain ⟨l', hl', hl⟩ := Option.bind_eq_some_iff.mp hlookup
    rw [← (nonempty?_eq_some.mp hl).1]
    exact (b.distinct k l' hl').sublist (filter_sublist.map _)

theorem get_filter : (b.filter p).get k = (b.get k).filter (p k) := by
  unfold get filter
  dsimp only
  rw [lookup_filterMapEntries]
  cases b.table.lookup k with
  | none => rfl
  | some l =>
    show (nonempty? (l.filter (p k))).getD [] = _
    unfold nonempty?
    cases hfilt : l.filter (p k) with
    | nil => simp [hfilt]
    | cons x _ => simp [hfilt]

theorem mem_filter : a ∈ (b.filter p).get k ↔ a ∈ b.get k ∧ p k a := by
  rw [get_filter, List.mem_filter]

section

variable [DecidableEq ι]

/-- Places a member under a key. -/
def place (b : Buckets κ identity) (k : κ) (a : α) : Buckets κ identity :=
  b.set k (Foundation.place identity a (b.get k)) (nodup_place (b.nodup_get k))

/-- Removes the member with an identity. -/
def remove (b : Buckets κ identity) (k : κ) (i : ι) : Buckets κ identity :=
  b.set k ((b.get k).filter fun a => identity a ≠ i)
    ((b.nodup_get k).sublist (filter_sublist.map _))

theorem mem_place : a' ∈ (b.place k a).get k' ↔
    (k' = k ∧ a' = a) ∨ (a' ∈ b.get k' ∧ ¬ (k' = k ∧ identity a' = identity a)) := by
  unfold place
  by_cases hk : k' = k
  · subst hk
    rw [get_set_self, Foundation.mem_place (b.nodup_get k')]
    simp
  · rw [get_set_of_ne _ hk]
    simp [hk]

theorem mem_remove {i : ι} : a' ∈ (b.remove k i).get k' ↔
    a' ∈ b.get k' ∧ ¬ (k' = k ∧ identity a' = i) := by
  unfold remove
  by_cases hk : k' = k
  · subst hk
    rw [get_set_self, List.mem_filter]
    simp
  · rw [get_set_of_ne _ hk]
    simp [hk]

end

end Buckets

end MqttLib.Foundation
