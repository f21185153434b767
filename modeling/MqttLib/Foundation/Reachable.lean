/-
MqttLib.Foundation.Reachable

Executable transition systems: a step function that answers `none` where an action is not
enabled, the states its runs reach when every step meets a condition, and the rule that
what every such step preserves holds in all of them.  A step of one of many components
updates a function; what holds of each component afterwards is shown for that one and for
the others.
-/

import Mathlib.Logic.Function.Basic

namespace MqttLib.Foundation

open Function (update update_self update_of_ne)

/-- After a step of one component. -/
@[elab_as_elim]
theorem forall_update {κ β : Type*} [DecidableEq κ] {f f' : κ → β} {g : κ} {b : β}
    {motive : κ → β → Prop} (hf : f' = update f g b) (self : motive g b)
    (other : ∀ k, k ≠ g → motive k (f k)) (k : κ) : motive k (f' k) := by
  subst hf
  by_cases hk : k = g
  · subst hk
    rwa [update_self]
  · rw [update_of_ne hk]
    exact other k hk

variable {σ α : Type*} {act : σ → α → Option σ} {condition : σ → α → Prop} {s₀ s s' : σ}

/-- What a run whose steps all meet the condition reaches. -/
inductive Reachable (act : σ → α → Option σ) (condition : σ → α → Prop) (s₀ : σ) : σ → Prop where
  | start : Reachable act condition s₀ s₀
  | step {s s' : σ} {a : α} (run : Reachable act condition s₀ s) (met : condition s a)
      (enabled : act s a = some s') : Reachable act condition s₀ s'

/-- An invariant of the steps is an invariant of the runs. -/
theorem Reachable.invariant {p : σ → Prop} (hrun : Reachable act condition s₀ s) (hstart : p s₀)
    (hstep : ∀ s a s', p s → condition s a → act s a = some s' → p s') : p s := by
  induction hrun with
  | start => exact hstart
  | step _ met enabled ih => exact hstep _ _ _ ih met enabled

/-- A run that meets a condition meets a weaker one. -/
theorem Reachable.mono {weaker : σ → α → Prop} (hrun : Reachable act condition s₀ s)
    (himp : ∀ s a, condition s a → weaker s a) : Reachable act weaker s₀ s := by
  induction hrun with
  | start => exact .start
  | step _ met enabled ih => exact ih.step (himp _ _ met) enabled

/-- Runs a list of actions. -/
def follow (act : σ → α → Option σ) : σ → List α → Option σ
  | s, [] => some s
  | s, a :: actions => (act s a).bind fun s' => follow act s' actions

theorem follow_append {first rest : List α} (hfirst : follow act s first = some s') :
    follow act s (first ++ rest) = follow act s' rest := by
  induction first generalizing s with
  | nil =>
    cases hfirst
    rfl
  | cons a first ih =>
    obtain ⟨t, hstep, hnext⟩ := Option.bind_eq_some_iff.mp hfirst
    rw [List.cons_append, follow, hstep]
    exact ih hnext

/-- What every step preserves holds after a list of actions. -/
theorem follow_invariant {invariant : σ → Prop} {actions : List α}
    (hfollow : follow act s actions = some s') (hstart : invariant s)
    (hstep : ∀ s, ∀ a ∈ actions, ∀ s', invariant s → act s a = some s' → invariant s') :
    invariant s' := by
  induction actions generalizing s with
  | nil =>
    cases hfollow
    exact hstart
  | cons a actions ih =>
    obtain ⟨t, hfirst, hrest⟩ := Option.bind_eq_some_iff.mp hfollow
    refine ih hrest (hstep s a List.mem_cons_self t hstart hfirst) ?_
    exact fun s b hb => hstep s b (List.mem_cons_of_mem a hb)

/-- A list of actions that meet the condition in any state. -/
theorem Reachable.follow {actions : List α} (hrun : Reachable act condition s₀ s)
    (hmet : ∀ a ∈ actions, ∀ t, condition t a)
    (hfollow : Foundation.follow act s actions = some s') : Reachable act condition s₀ s' :=
  follow_invariant hfollow hrun fun s a ha _ hs henabled => hs.step (hmet a ha s) henabled

/-- A list of actions that each meet the condition in the state they are taken in. -/
theorem Reachable.follow_guarded [∀ s a, Decidable (condition s a)] {actions : List α}
    (hrun : Reachable act condition s₀ s)
    (hfollow : Foundation.follow (fun s a => if condition s a then act s a else none) s actions =
      some s') : Reachable act condition s₀ s' := by
  refine follow_invariant hfollow hrun fun s a _ s' hs hstep => ?_
  obtain ⟨hmet, henabled⟩ := Option.ite_none_right_eq_some.mp hstep
  exact hs.step hmet henabled

end MqttLib.Foundation
