/-
MqttLib.Foundation.Selection

A loop that keeps the best element seen so far: an element replaces the best one only
if its score is strictly higher, so among equals the first one stays.
-/

import Mathlib.Order.Basic
import Mathlib.Data.List.Basic

namespace MqttLib.Foundation

open Option List

section

variable {α : Type*} (score : α → Int)

/-- One step of the loop: the best element with its score, and the next element. -/
def improve (best : Option α × Int) (x : α) : Option α × Int :=
  if score x > best.2 then (some x, score x) else best

/-- The loop over a list, from the score no element may stay at or below. -/
def select (floor : Int) (l : List α) : Option α × Int := l.foldl (improve score) (none, floor)

variable {score} {few many : Option α × Int}

/-- The loop over more elements has kept the same element, or one of the added ones. -/
def KeptAdded (p : α → Bool) (few many : Option α × Int) : Prop :=
  few = many ∨ few.2 ≤ many.2 ∧ ∃ x, many.1 = some x ∧ p x = false

theorem KeptAdded.common {p : α → Bool} (h : KeptAdded p few many)
    (x : α) : KeptAdded p (improve score few x) (improve score many x) := by
  rcases h with rfl | ⟨hle, y, hy, hnot⟩
  · exact .inl rfl
  unfold improve
  by_cases hmany : score x > many.2
  · have hfew : score x > few.2 := by omega
    rw [if_pos hmany, if_pos hfew]
    exact .inl rfl
  · rw [if_neg hmany]
    refine .inr ⟨?_, y, hy, hnot⟩
    split
    · show score x ≤ many.2
      omega
    · exact hle

theorem KeptAdded.added {p : α → Bool} (h : KeptAdded p few many)
    {x : α} (hx : p x = false) : KeptAdded p few (improve score many x) := by
  unfold improve
  by_cases hmany : score x > many.2
  · rw [if_pos hmany]
    have hle : few.2 ≤ many.2 := by
      rcases h with rfl | ⟨hle, -⟩
      · exact Int.le_refl _
      · exact hle
    refine .inr ⟨?_, x, rfl, hx⟩
    show few.2 ≤ score x
    omega
  · rw [if_neg hmany]
    exact h

/-- Selecting among more elements selects the same element, or one of the added ones. -/
theorem select_filter_or_added (score : α → Int) {p q : α → Bool} {l : List α}
    (hsub : ∀ x ∈ l, p x → q x) (floor : Int) :
    KeptAdded p (select score floor (l.filter p)) (select score floor (l.filter q)) := by
  unfold select
  -- both loops run together over the whole list
  suffices h : ∀ few many, KeptAdded p few many →
      KeptAdded p ((l.filter p).foldl (improve score) few)
        ((l.filter q).foldl (improve score) many) from h _ _ (.inl rfl)
  induction l with
  | nil => exact fun few many h => h
  | cons x _ ih =>
    intro few many h
    have hrest := ih fun y hy => hsub y (mem_cons_of_mem x hy)
    cases hp : p x with
    | true =>
      have hq := hsub x mem_cons_self hp
      rw [filter_cons_of_pos hp, filter_cons_of_pos hq]
      exact hrest _ _ (h.common x)
    | false =>
      rw [filter_cons_of_neg (by simp [hp])]
      cases hq : q x with
      | true =>
        rw [filter_cons_of_pos hq]
        exact hrest _ _ (h.added hp)
      | false =>
        rw [filter_cons_of_neg (by simp [hq])]
        exact hrest _ _ h

/-- The loop ends with what it started with, or with the first of the best elements. -/
theorem foldl_improve (score : α → Int) (l : List α) (best : Option α × Int) :
    (l.foldl (improve score) best = best ∧ ∀ y ∈ l, score y ≤ best.2) ∨
      ∃ before x after, l = before ++ x :: after ∧
        l.foldl (improve score) best = (some x, score x) ∧ best.2 < score x ∧
        (∀ y ∈ before, score y < score x) ∧ ∀ y ∈ after, score y ≤ score x := by
  induction l generalizing best with
  | nil => exact .inl ⟨rfl, by simp⟩
  | cons y l ih =>
    rw [foldl_cons]
    by_cases hless : score y > best.2
    · have himp : improve score best y = (some y, score y) := if_pos hless
      rw [himp]
      refine .inr ?_
      rcases ih (some y, score y) with
        ⟨heq, hall⟩ | ⟨before, x, after, rfl, heq, hgain, hbefore, hafter⟩
      · exact ⟨[], y, l, rfl, heq, hless, by simp, hall⟩
      · exact ⟨y :: before, x, after, rfl, heq, Int.lt_trans hless hgain,
          forall_mem_cons.mpr ⟨hgain, hbefore⟩, hafter⟩
    · have himp : improve score best y = best := if_neg hless
      rw [himp]
      have hle : score y ≤ best.2 := Int.not_lt.mp hless
      rcases ih best with ⟨heq, hall⟩ | ⟨before, x, after, rfl, heq, hgain, hbefore, hafter⟩
      · exact .inl ⟨heq, forall_mem_cons.mpr ⟨hle, hall⟩⟩
      · exact .inr ⟨y :: before, x, after, rfl, heq, hgain,
          forall_mem_cons.mpr ⟨Int.lt_of_le_of_lt hle hgain, hbefore⟩, hafter⟩

variable {floor : Int} {l : List α}

/-- Nothing is selected exactly if no element is above the floor. -/
theorem select_eq_none_iff : (select score floor l).1 = none ↔ ∀ y ∈ l, score y ≤ floor := by
  unfold select
  rcases foldl_improve score l (none, floor) with
    ⟨heq, hall⟩ | ⟨before, x, after, rfl, heq, hgain, -⟩
  · rw [heq]
    exact iff_of_true rfl hall
  · rw [heq]
    exact iff_of_false nofun fun hall => absurd (hall x (by simp)) (Int.not_le.mpr hgain)

/-- The selected element is the first of the best ones. -/
theorem select_eq_some_iff {x : α} : (select score floor l).1 = some x ↔
    ∃ before after, l = before ++ x :: after ∧ floor < score x ∧
      (∀ y ∈ before, score y < score x) ∧ ∀ y ∈ after, score y ≤ score x := by
  unfold select
  constructor
  · intro h
    rcases foldl_improve score l (none, floor) with
      ⟨heq, -⟩ | ⟨before, y, after, hl, heq, hgain, hall⟩
    · rw [heq] at h
      cases h
    · rw [heq] at h
      cases h
      exact ⟨before, after, hl, hgain, hall⟩
  · rintro ⟨before, after, rfl, hgain, hbefore, hafter⟩
    rw [foldl_append, foldl_cons]
    have hless : (before.foldl (improve score) (none, floor)).2 < score x := by
      rcases foldl_improve score before (none, floor) with ⟨heq, -⟩ | ⟨_, y, _, rfl, heq, -⟩
      · rwa [heq]
      · rw [heq]
        exact hbefore y (by simp)
    have himp : improve score (before.foldl (improve score) (none, floor)) x = (some x, score x) :=
      if_pos hless
    rw [himp]
    rcases foldl_improve score after (some x, score x) with ⟨heq, -⟩ | ⟨_, y, _, rfl, -, hmore, -⟩
    · rw [heq]
    · exact absurd (hafter y (by simp)) (Int.not_le.mpr hmore)

/-- What is selected is one of the elements. -/
theorem mem_of_select {x : α} (h : (select score floor l).1 = some x) : x ∈ l := by
  obtain ⟨before, after, rfl, -⟩ := select_eq_some_iff.mp h
  simp

end

end MqttLib.Foundation
