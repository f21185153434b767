/-
MqttLib.Foundation.Lines

Records kept in one sequence, each closed by a separator that occurs nowhere
else in it.  `splitInclusive` cuts a sequence behind every separator, as
`slice::split_inclusive` does; the last piece is unterminated when the sequence
does not end in a separator.

Two facts make such a file recoverable: the pieces of a concatenation of lines
are the lines (`splitInclusive_flatten_append`), and a prefix of it is a
concatenation of its first lines and an unterminated rest
(`prefix_flatten_lines`).
-/

import Mathlib.Data.List.Infix

namespace MqttLib.Foundation

variable {α : Type*} {sep : α} {ls : List (List α)}

/-- Cut behind every `sep`; a piece keeps its separator. -/
def splitInclusive [DecidableEq α] (sep : α) : List α → List (List α)
  | [] => []
  | b :: bs =>
    if b = sep then [b] :: splitInclusive sep bs
    else match splitInclusive sep bs with
      | [] => [[b]]
      | piece :: rest => (b :: piece) :: rest

/-- The piece without its closing separator, if it has one. -/
def stripSep [DecidableEq α] (sep : α) (piece : List α) : Option (List α) :=
  if piece.getLast? = some sep then some piece.dropLast else none

/-- A terminated record: the separator closes it and occurs nowhere else. -/
def IsLine (sep : α) (l : List α) : Prop := ∃ body, sep ∉ body ∧ l = body ++ [sep]

@[simp] theorem stripSep_line [DecidableEq α] (sep : α) (body : List α) :
    stripSep sep (body ++ [sep]) = some body := by
  simp [stripSep]

theorem stripSep_of_not_mem [DecidableEq α] {t : List α} (h : sep ∉ t) : stripSep sep t = none := by
  rw [stripSep, if_neg]
  intro hl
  exact h (List.mem_of_getLast? hl)

theorem splitInclusive_line_append [DecidableEq α] {body : List α} (h : sep ∉ body)
    (rest : List α) :
    splitInclusive sep (body ++ sep :: rest) = (body ++ [sep]) :: splitInclusive sep rest := by
  induction body with
  | nil => simp [splitInclusive]
  | cons b body ih =>
    obtain ⟨hb, hbody⟩ : ¬ sep = b ∧ sep ∉ body := by simpa using h
    simp [splitInclusive, ih hbody, Ne.symm hb]

/-- Terminated records come back as the pieces, in front of whatever follows. -/
theorem splitInclusive_flatten_append [DecidableEq α] (h : ∀ l ∈ ls, IsLine sep l) (rest : List α) :
    splitInclusive sep (ls.flatten ++ rest) = ls ++ splitInclusive sep rest := by
  induction ls with
  | nil => simp
  | cons l ls ih =>
    obtain ⟨⟨_, hbody, rfl⟩, hls⟩ := List.forall_mem_cons.mp h
    have hsplit := splitInclusive_line_append hbody (ls.flatten ++ rest)
    simpa [ih hls] using hsplit

theorem splitInclusive_of_not_mem [DecidableEq α] {t : List α} (h : sep ∉ t) (hne : t ≠ []) :
    splitInclusive sep t = [t] := by
  induction t with
  | nil => exact absurd rfl hne
  | cons b t ih =>
    obtain ⟨hb, ht⟩ : ¬ sep = b ∧ sep ∉ t := by simpa using h
    cases t with
    | nil => simp [splitInclusive, Ne.symm hb]
    | cons c t => simp only [splitInclusive, Ne.symm hb, if_false] at ih ⊢
                  rw [ih ht (by simp)]

/-- A prefix of a terminated record is the record or has no separator. -/
theorem prefix_line {l p : List α} (h : IsLine sep l) (hp : p <+: l) : p = l ∨ sep ∉ p := by
  obtain ⟨_, hbody, rfl⟩ := h
  rcases List.prefix_concat_iff.mp (by simpa using hp) with rfl | hp
  · exact Or.inl (by simp)
  · exact Or.inr fun hmem => hbody (hp.subset hmem)

/-- A prefix of a sequence of terminated records: some of the first records, and
an unterminated rest. -/
theorem prefix_flatten_lines (h : ∀ l ∈ ls, IsLine sep l) {p : List α} (hp : p <+: ls.flatten) :
    ∃ k t, p = (ls.take k).flatten ++ t ∧ sep ∉ t := by
  induction ls generalizing p with
  | nil => exact ⟨0, [], by simpa using hp, by simp⟩
  | cons l ls ih =>
    obtain ⟨hl, hls⟩ := List.forall_mem_cons.mp h
    obtain ⟨r, hr⟩ := hp
    rcases List.append_eq_append_iff.mp hr with ⟨c, rfl, -⟩ | ⟨q, rfl, hq⟩
    · rcases prefix_line hl (List.prefix_append p c) with hpl | hsep
      · exact ⟨1, [], by simpa using hpl, by simp⟩
      · exact ⟨0, p, by simp, hsep⟩
    · obtain ⟨k, t, rfl, ht⟩ := ih hls ⟨r, hq.symm⟩
      exact ⟨k + 1, t, by simp, ht⟩

/-- Every sequence is some terminated records and an unterminated rest. -/
theorem exists_lines (sep : α) (bs : List α) :
    ∃ (ls : List (List α)) (t : List α), bs = ls.flatten ++ t ∧ (∀ l ∈ ls, IsLine sep l) ∧
      sep ∉ t := by
  induction bs with
  | nil => exact ⟨[], [], by simp⟩
  | cons b bs ih =>
    obtain ⟨ls, t, rfl, hls, ht⟩ := ih
    by_cases hb : b = sep
    · subst hb
      have hhead : IsLine b [b] := ⟨[], by simp, rfl⟩
      exact ⟨[b] :: ls, t, by simp, List.forall_mem_cons.mpr ⟨hhead, hls⟩, ht⟩
    · cases ls with
      | nil => exact ⟨[], b :: t, by simp, by simp, by simp [ht, Ne.symm hb]⟩
      | cons l ls =>
        obtain ⟨⟨body, hbody, rfl⟩, hrest⟩ := List.forall_mem_cons.mp hls
        have hhead : IsLine sep (b :: (body ++ [sep])) :=
          ⟨b :: body, by simp [hbody, Ne.symm hb], rfl⟩
        exact ⟨(b :: (body ++ [sep])) :: ls, t, by simp,
          List.forall_mem_cons.mpr ⟨hhead, hrest⟩, ht⟩

end MqttLib.Foundation
