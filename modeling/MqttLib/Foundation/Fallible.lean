/-
MqttLib.Foundation.Fallible

Sequences of fallible steps: the whole succeeds if every step does.
-/

import Mathlib.Logic.Basic

namespace MqttLib.Foundation

universe u

variable {ε : Type*} {α β : Type u} {f : α → Except ε β}

theorem bind_eq_ok {x : Except ε α} {b : β} : (x >>= f) = .ok b ↔ ∃ a, x = .ok a ∧ f a = .ok b := by
  cases x with
  | error e => exact ⟨fun h => (by cases h), fun ⟨_, h, _⟩ => (by cases h)⟩
  | ok a => exact ⟨fun h => ⟨a, rfl, h⟩, fun ⟨_, h, hf⟩ => (by cases h; exact hf)⟩

/-- Steps over a list that all succeed, each with its result. -/
theorem mem_zip_of_mapM {l : List α} {results : List β} (h : l.mapM f = .ok results) (a : α)
    (r : β) :
    (a, r) ∈ l.zip results ↔ a ∈ l ∧ f a = .ok r := by
  induction l generalizing results with
  | nil => simp
  | cons b l ih =>
    rw [List.mapM_cons] at h
    obtain ⟨_, hb, hrest⟩ := bind_eq_ok.mp h
    obtain ⟨_, hmapM, hpure⟩ := bind_eq_ok.mp hrest
    obtain rfl := Except.ok.inj hpure
    rw [List.zip_cons_cons, List.mem_cons, List.mem_cons, ih hmapM]
    constructor
    · rintro (heq | ⟨hmem, hr⟩)
      · cases heq
        exact ⟨.inl rfl, hb⟩
      · exact ⟨.inr hmem, hr⟩
    · rintro ⟨rfl | hmem, hr⟩
      · rw [hb] at hr
        rw [Except.ok.inj hr]
        exact .inl rfl
      · exact .inr ⟨hmem, hr⟩

/-- Steps that all succeed over a list succeed together. -/
theorem exists_mapM_iff {l : List α} :
    (∃ results, l.mapM f = .ok results) ↔ ∀ a ∈ l, ∃ r, f a = .ok r := by
  induction l with
  | nil => exact ⟨fun _ a ha => (by cases ha), fun _ => ⟨[], rfl⟩⟩
  | cons b l ih =>
    rw [List.forall_mem_cons, ← ih]
    constructor
    · rintro ⟨results, h⟩
      rw [List.mapM_cons] at h
      obtain ⟨r, hb, hrest⟩ := bind_eq_ok.mp h
      obtain ⟨rest, hmapM, -⟩ := bind_eq_ok.mp hrest
      exact ⟨⟨r, hb⟩, rest, hmapM⟩
    · rintro ⟨⟨r, hb⟩, rest, hmapM⟩
      refine ⟨r :: rest, ?_⟩
      rw [List.mapM_cons, hb, hmapM]
      rfl

end MqttLib.Foundation
