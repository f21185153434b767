/-
MqttLib.Foundation.Census

How many members of an indexed family have a property, and how that number changes when
one member does.  The families are infinite; what is counted is finite.  A sum over some of the
members changes likewise.
-/

import Mathlib.Algebra.Order.BigOperators.Group.Finset
import Mathlib.Data.Set.Card

namespace MqttLib.Foundation

open Function

variable {ι α κ : Type*} {p q : α → Prop} {f : ι → α} {i : ι} {a : α}

/-- How many members have the property. -/
noncomputable def census (p : α → Prop) (f : ι → α) : Nat := {i | p (f i)}.ncard

theorem census_congr (h : ∀ i, p (f i) ↔ q (f i)) : census p f = census q f := by
  unfold census
  exact congrArg Set.ncard (Set.ext h)

theorem census_eq_zero (h : ∀ i, ¬ p (f i)) : census p f = 0 := by
  unfold census
  rw [show {i | p (f i)} = ∅ from Set.eq_empty_iff_forall_notMem.mpr h]
  exact Set.ncard_empty ι

section Update

variable [DecidableEq ι]

/-- At most the changed member is added. -/
theorem finite_update (hfinite : {k | p (f k)}.Finite) : {k | p (update f i a k)}.Finite := by
  refine (hfinite.insert i).subset ?_
  intro k hk
  by_cases hki : k = i
  · exact Set.mem_insert_iff.mpr (Or.inl hki)
  · rw [Set.mem_ofPred_eq, update_of_ne hki] at hk
    exact Set.mem_insert_of_mem i hk

/-- The member keeps or still lacks the property. -/
theorem census_update_same (h : p a ↔ p (f i)) : census p (update f i a) = census p f := by
  unfold census
  congr 1
  ext k
  by_cases hki : k = i
  · subst hki
    rw [Set.mem_ofPred_eq, Set.mem_ofPred_eq, update_self]
    exact h
  · rw [Set.mem_ofPred_eq, Set.mem_ofPred_eq, update_of_ne hki]

/-- The member gets the property. -/
theorem census_update_gain (hfinite : {k | p (f k)}.Finite) (hpre : ¬ p (f i)) (hafter : p a) :
    census p (update f i a) = census p f + 1 := by
  have hset : {k | p (update f i a k)} = insert i {k | p (f k)} := by
    ext k
    by_cases hki : k = i
    · subst hki
      simp [hafter]
    · simp [hki]
  unfold census
  rw [hset]
  exact Set.ncard_insert_of_notMem hpre hfinite

/-- The member loses the property. -/
theorem census_update_lose (hfinite : {k | p (f k)}.Finite) (hpre : p (f i)) (hafter : ¬ p a) :
    census p (update f i a) + 1 = census p f := by
  have hnow : ¬ p (update f i a i) := by
    rw [update_self]
    exact hafter
  -- changing the member back is a gain
  have hback := census_update_gain (finite_update hfinite) hnow hpre
  rw [update_idem, update_eq_self] at hback
  exact hback.symm

end Update

/-- Two properties that exclude each other. -/
theorem census_or (hp : {i | p (f i)}.Finite) (hq : {i | q (f i)}.Finite)
    (hdisjoint : ∀ i, p (f i) → ¬ q (f i)) :
    census (fun a => p a ∨ q a) f = census p f + census q f := by
  have hdisjoint' : Disjoint {i | p (f i)} {i | q (f i)} := Set.disjoint_left.mpr hdisjoint
  exact Set.ncard_union_eq hdisjoint' hp hq

/-- The members with the property, counted by a label. -/
theorem sum_census [DecidableEq κ] (label : α → κ) (labels : Finset κ)
    (hfinite : {i | p (f i)}.Finite) (hlabel : ∀ i, p (f i) → label (f i) ∈ labels) :
    ∑ l ∈ labels, census (fun a => p a ∧ label a = l) f = census p f := by
  unfold census
  rw [Set.ncard_eq_toFinset_card _ hfinite,
    Finset.card_eq_sum_card_fiberwise (t := labels) (f := fun i => label (f i))]
  · refine Finset.sum_congr rfl ?_
    intro l _
    rw [← Set.ncard_coe_finset]
    congr 1
    ext i
    simp
  · intro i hi
    exact hlabel i (by simpa using hi)

/-- The sum over a family of which one member is replaced. -/
theorem sum_update_add {ι β M : Type*} [DecidableEq ι] [AddCommMonoid M] {t : Finset ι} {i : ι}
    (hi : i ∈ t) (f : β → M) (s : ι → β) (b : β) :
    (∑ j ∈ t, f (update s i b j)) + f (s i) = (∑ j ∈ t, f (s j)) + f b := by
  have hrest : ∑ j ∈ t.erase i, f (update s i b j) = ∑ j ∈ t.erase i, f (s j) := by
    apply Finset.sum_congr rfl
    intro j hj
    rw [update_of_ne (Finset.ne_of_mem_erase hj)]
  rw [← Finset.add_sum_erase t _ hi, ← Finset.add_sum_erase t (fun j => f (s j)) hi, hrest,
    update_self]
  ac_rfl

end MqttLib.Foundation
