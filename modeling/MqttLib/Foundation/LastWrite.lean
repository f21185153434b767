/-
MqttLib.Foundation.LastWrite

Key-value stores under sequences of writes, where a write sets a key or removes
it and the last write to a key decides.  Abstractly a store is a function
`κ → Option ν`; concretely it is a finite table (`Finmap`), and `Table.set` on
tables is function update on their lookups (`Table.lookup_set`).

Beside the algebra of `applyWrites` this has the undo log: a sequence of changes
that each remember the value they replaced (`Chain`) is taken back exactly by
restoring those values in reverse (`undoAll_of_chain`).
-/

import Mathlib.Data.Finmap

namespace MqttLib.Foundation

open Function Finmap Multiset

variable {κ ν : Type*} [DecidableEq κ] {ws : List (κ × Option ν)} {k k' : κ}

/-! ## Writes on abstract stores -/

/-- Apply writes in order; `none` removes the key. -/
def applyWrites (m : κ → Option ν) (ws : List (κ × Option ν)) : κ → Option ν :=
  ws.foldl (fun m w => update m w.1 w.2) m

@[simp] theorem applyWrites_nil (m : κ → Option ν) : applyWrites m [] = m := rfl

@[simp] theorem applyWrites_cons (m : κ → Option ν) (w : κ × Option ν) (ws) :
    applyWrites m (w :: ws) = applyWrites (update m w.1 w.2) ws := rfl

theorem applyWrites_append (m : κ → Option ν) (ws vs : List (κ × Option ν)) :
    applyWrites m (ws ++ vs) = applyWrites (applyWrites m ws) vs := by
  simp [applyWrites, List.foldl_append]

theorem applyWrites_of_not_mem (m : κ → Option ν)
    (h : ∀ w ∈ ws, w.1 ≠ k) : applyWrites m ws k = m k := by
  induction ws generalizing m with
  | nil => rfl
  | cons w ws ih =>
    obtain ⟨hw, hws⟩ := List.forall_mem_cons.mp h
    rw [applyWrites_cons, ih _ hws, update_of_ne (Ne.symm hw)]

/-- On the keys that are written, the store before does not matter. -/
theorem applyWrites_congr {m m' : κ → Option ν}
    (h : (∃ w ∈ ws, w.1 = k) ∨ m k = m' k) : applyWrites m ws k = applyWrites m' ws k := by
  induction ws generalizing m m' with
  | nil => simpa using h
  | cons w ws ih =>
    refine ih ?_
    by_cases hk : k = w.1
    · subst hk; exact .inr (by simp)
    · rcases h with ⟨v, hv, rfl⟩ | h
      · rcases List.mem_cons.mp hv with rfl | hv
        · exact absurd rfl hk
        · exact .inl ⟨v, hv, rfl⟩
      · exact .inr (by simp [hk, h])

/-- A key that is written with one value only holds it. -/
theorem applyWrites_eq_of_forall {m : κ → Option ν}
    {v : Option ν} (hmem : ∃ w ∈ ws, w.1 = k) (hval : ∀ w ∈ ws, w.1 = k → w.2 = v) :
    applyWrites m ws k = v := by
  induction ws generalizing m with
  | nil => simp at hmem
  | cons w ws ih =>
    obtain ⟨hw, hws⟩ := List.forall_mem_cons.mp hval
    rw [applyWrites_cons]
    by_cases hlater : ∃ w' ∈ ws, w'.1 = k
    · exact ih hlater hws
    · have hnone : ∀ w' ∈ ws, w'.1 ≠ k := fun w' hw' hk => hlater ⟨w', hw', hk⟩
      rw [applyWrites_of_not_mem _ hnone]
      obtain ⟨w', hw', rfl⟩ := hmem
      rcases List.mem_cons.mp hw' with rfl | hw'
      · rw [update_self, hw rfl]
      · exact absurd rfl (hnone w' hw')

/-- Writing the same sequence again changes nothing. -/
theorem applyWrites_idem (m : κ → Option ν) (ws : List (κ × Option ν)) :
    applyWrites (applyWrites m ws) ws = applyWrites m ws := by
  funext k
  by_cases h : ∃ w ∈ ws, w.1 = k
  · exact applyWrites_congr (.inl h)
  · exact applyWrites_of_not_mem _ fun w hw hk => h ⟨w, hw, hk⟩

/-- After a sequence with a write to its key, that key holds this write's value or
that of a later write to it. -/
theorem applyWrites_holds_last (m : κ → Option ν) (ws vs : List (κ × Option ν)) (w : κ × Option ν) :
    applyWrites m (ws ++ w :: vs) w.1 = w.2 ∨
      ∃ v ∈ vs, v.1 = w.1 ∧ applyWrites m (ws ++ w :: vs) w.1 = v.2 := by
  rw [applyWrites_append, applyWrites_cons]
  generalize applyWrites m ws = m'
  induction vs generalizing m' w with
  | nil => exact .inl (by simp)
  | cons v vs ih =>
    rw [applyWrites_cons]
    by_cases hv : v.1 = w.1
    · rcases ih v (update m' w.1 w.2) with h | ⟨u, hu, huv, h⟩
      · exact .inr ⟨v, by simp, hv, by rw [← hv]; exact hv ▸ h⟩
      · exact .inr ⟨u, by simp [hu], huv.trans hv, hv ▸ h⟩
    · rw [update_comm (Ne.symm hv)]
      rcases ih w (update m' v.1 v.2) with h | ⟨u, hu, huw, h⟩
      · exact .inl h
      · exact .inr ⟨u, by simp [hu], huw, h⟩

/-! ## Finite tables -/

/-- A finite key-value table. -/
abbrev Table (κ ν : Type*) := Finmap (fun _ : κ => ν)

namespace Table

variable {m m' : Table κ ν}

/-- Set a key, or remove it. -/
def set (m : Table κ ν) (k : κ) : Option ν → Table κ ν
  | some v => m.insert k v
  | none => m.erase k

theorem lookup_set (m : Table κ ν) (k : κ) (v : Option ν) :
    (fun k' => (m.set k v).lookup k') = update (fun k' => m.lookup k') k v := by
  funext k'
  by_cases h : k' = k
  · subst h; cases v <;> simp [set]
  · cases v <;> simp [set, h]

@[simp] theorem lookup_set_self (m : Table κ ν) (k : κ) (v : Option ν) :
    (m.set k v).lookup k = v := by
  simpa using congrFun (lookup_set m k v) k

theorem lookup_set_of_ne (m : Table κ ν) (v : Option ν) (h : k' ≠ k) :
    (m.set k v).lookup k' = m.lookup k' := by
  simpa [h] using congrFun (lookup_set m k v) k'

theorem of_lookup_insert {v w : ν} (h : (m.insert k v).lookup k' = some w) :
    k' = k ∧ w = v ∨ k' ≠ k ∧ m.lookup k' = some w := by
  by_cases hk : k' = k
  · rw [hk, lookup_insert] at h
    exact .inl ⟨hk, (Option.some.inj h).symm⟩
  · rw [lookup_insert_of_ne _ hk] at h
    exact .inr ⟨hk, h⟩

theorem of_lookup_erase {w : ν}
    (h : (m.erase k).lookup k' = some w) : k' ≠ k ∧ m.lookup k' = some w := by
  by_cases hk : k' = k
  · rw [hk, lookup_erase] at h
    cases h
  · exact ⟨hk, (lookup_erase_ne hk).symm.trans h⟩

/-- An entry replaces an entry. -/
theorem exists_lookup_insert (v : ν) (h : ∃ w, m.lookup k' = some w) :
    ∃ w, (m.insert k v).lookup k' = some w := by
  by_cases hk : k' = k
  · exact ⟨v, hk ▸ lookup_insert m⟩
  · rwa [lookup_insert_of_ne _ hk]

/-- Putting back what a change replaced. -/
theorem set_set_lookup (m : Table κ ν) (k : κ) (v : Option ν) :
    (m.set k v).set k (m.lookup k) = m := by
  apply ext_lookup
  intro k'
  by_cases h : k' = k
  · subst h; simp
  · rw [lookup_set_of_ne _ _ h, lookup_set_of_ne _ _ h]

/-- The same keys with other values. -/
def mapValues {μ : Type*} (f : ν → μ) (m : Table κ ν) : Table κ μ where
  entries := m.entries.map fun e => ⟨e.1, f e.2⟩
  nodupKeys := by
    have hkeys := Multiset.nodup_keys.mpr m.nodupKeys
    rw [← Multiset.nodup_keys]
    simpa [Multiset.keys] using hkeys

theorem lookup_mapValues {μ : Type*} (f : ν → μ) (m : Table κ ν) (k : κ) :
    (m.mapValues f).lookup k = (m.lookup k).map f := by
  ext v
  rw [Option.map_eq_some_iff, lookup_eq_some_iff]
  constructor
  · intro hmem
    obtain ⟨⟨_, v'⟩, he, heq⟩ := mem_map.mp hmem
    cases heq
    exact ⟨v', lookup_eq_some_iff.mpr he, rfl⟩
  · rintro ⟨v', hv', rfl⟩
    exact mem_map.mpr ⟨⟨k, v'⟩, lookup_eq_some_iff.mp hv', rfl⟩

/-- The values, in no particular order. -/
def values (m : Table κ ν) : Multiset ν := m.entries.map fun e => e.2

theorem mem_values {v : ν} : v ∈ m.values ↔ ∃ k, m.lookup k = some v := by
  simp only [values, mem_map]
  constructor
  · rintro ⟨⟨k, _⟩, he, rfl⟩
    exact ⟨k, lookup_eq_some_iff.mpr he⟩
  · rintro ⟨k, hk⟩
    exact ⟨⟨k, v⟩, lookup_eq_some_iff.mp hk, rfl⟩

theorem values_insert_of_lookup_none (h : m.lookup k = none) (v : ν) :
    values (m.insert k v) = v ::ₘ m.values := by
  rw [values, entries_insert_of_notMem (lookup_eq_none.mp h), map_cons]
  rfl

theorem insert_erase (m : Table κ ν) (k : κ) (v : ν) : insert k v (m.erase k) = m.insert k v := by
  apply ext_lookup
  intro k'
  by_cases h : k' = k
  · subst h; simp
  · simp [h]

/-- Taking one key's value out. -/
theorem values_erase_of_lookup {v : ν} (h : m.lookup k = some v) :
    m.values = v ::ₘ values (m.erase k) := by
  have hback : insert k v (m.erase k) = m := by
    apply ext_lookup
    intro k'
    by_cases hk : k' = k
    · subst hk; simp [h]
    · simp [hk]
  conv_lhs => rw [← hback]
  exact values_insert_of_lookup_none (lookup_erase k m) v

/-- The entries whose keys pass a test. -/
def retain (m : Table κ ν) (p : κ → Bool) : Table κ ν where
  entries := m.entries.filter fun e => p e.1
  nodupKeys := by
    have hkeys := nodup_keys.mpr m.nodupKeys
    rw [← nodup_keys]
    exact nodup_of_le (map_le_map (filter_le _ _)) hkeys

theorem lookup_retain (m : Table κ ν) (p : κ → Bool) (k : κ) :
    (m.retain p).lookup k = if p k then m.lookup k else none := by
  ext v
  rw [lookup_eq_some_iff]
  change _ ∈ m.entries.filter (fun e => p e.1) ↔ _
  rw [mem_filter, ← lookup_eq_some_iff]
  by_cases hp : p k <;> simp [hp]

theorem sublist_map_filterMap {α β γ : Type*} {f : α → Option β} {g : α → γ} {h : β → γ}
    (hf : ∀ a b, f a = some b → h b = g a) (l : List α) :
    ((l.filterMap f).map h).Sublist (l.map g) := by
  induction l with
  | nil => exact List.Sublist.refl _
  | cons a l ih =>
    rw [List.filterMap_cons, List.map_cons]
    split
    · exact ih.cons _
    · rename_i b hb
      rw [List.map_cons, hf a b hb]
      exact ih.cons_cons _

/-- Every entry replaced or dropped. -/
def filterMapEntries {μ : Type*} (f : κ → ν → Option μ) (m : Table κ ν) : Table κ μ where
  entries := m.entries.filterMap fun e => (f e.1 e.2).map fun v => ⟨e.1, v⟩
  nodupKeys := by
    have hkeys := nodup_keys.mpr m.nodupKeys
    rw [← nodup_keys]
    refine nodup_of_le ?_ hkeys
    obtain ⟨entries, hentries⟩ := Quot.exists_rep m.entries
    rw [← hentries]
    refine List.Sublist.subperm (sublist_map_filterMap ?_ entries)
    rintro ⟨k, w⟩ e he
    obtain ⟨v, -, rfl⟩ := Option.map_eq_some_iff.mp he
    rfl

theorem lookup_filterMapEntries {μ : Type*} (f : κ → ν → Option μ) (m : Table κ ν) (k : κ) :
    (m.filterMapEntries f).lookup k = (m.lookup k).bind (f k) := by
  ext v
  rw [lookup_eq_some_iff]
  show (⟨k, v⟩ : Sigma fun _ : κ => μ) ∈ m.entries.filterMap
    (fun e => (f e.1 e.2).map fun v => (⟨e.1, v⟩ : Sigma fun _ : κ => μ)) ↔ _
  rw [mem_filterMap, Option.bind_eq_some_iff]
  constructor
  · rintro ⟨⟨_, w⟩, hmem, heq⟩
    obtain ⟨_, hv', heq⟩ := Option.map_eq_some_iff.mp heq
    cases heq
    exact ⟨w, lookup_eq_some_iff.mpr hmem, hv'⟩
  · rintro ⟨w, hlook, hv⟩
    exact ⟨⟨k, w⟩, lookup_eq_some_iff.mp hlook, by rw [hv]; rfl⟩

/-- A listing of a table, in some order. -/
structure Lists (m : Table κ ν) (order : List (κ × ν)) : Prop where
  nodup : (order.map Prod.fst).Nodup
  mem : ∀ k v, (k, v) ∈ order ↔ m.lookup k = some v

theorem lists_empty : Lists (∅ : Table κ ν) [] :=
  ⟨List.nodup_nil, fun k v => by simp⟩

theorem lists_singleton (k : κ) (v : ν) : Lists (insert k v ∅) [(k, v)] := by
  refine ⟨List.nodup_singleton _, fun k' _ => ?_⟩
  by_cases hk : k' = k
  · subst hk
    simp [eq_comm]
  · simp [hk]

/-- Every table can be listed. -/
theorem exists_lists (m : Table κ ν) : ∃ order, Lists m order := by
  obtain ⟨entries, hents⟩ := Quot.exists_rep m.entries
  have hkeys : (entries.map Sigma.fst).Nodup := by
    have hnd := nodup_keys.mpr m.nodupKeys
    rw [← hents] at hnd
    exact hnd
  refine ⟨entries.map fun e => (e.1, e.2), ?_, fun k v => ?_⟩
  · rw [List.map_map]
    exact hkeys
  · rw [lookup_eq_some_iff, ← hents]
    show _ ↔ (⟨k, v⟩ : Sigma fun _ : κ => ν) ∈ entries
    rw [List.mem_map]
    constructor
    · rintro ⟨e, he, heq⟩
      cases heq
      exact he
    · exact fun he => ⟨_, he, rfl⟩

/-- A table filled entry by entry. -/
def ofEntries (entries : List (κ × ν)) : Table κ ν :=
  entries.foldl (fun m e => m.insert e.1 e.2) ∅

/-- Entries with different keys are all in the table, and nothing else. -/
theorem lookup_ofEntries {entries : List (κ × ν)} (hnd : (entries.map Prod.fst).Nodup) (k : κ)
    (v : ν) : (ofEntries entries).lookup k = some v ↔ (k, v) ∈ entries := by
  induction entries using List.reverseRecOn with
  | nil => simp [ofEntries]
  | append_singleton entries e ih =>
    rw [List.map_append, List.nodup_append] at hnd
    obtain ⟨hnd', -, hne⟩ := hnd
    have hfill : ofEntries (entries ++ [e]) = (ofEntries entries).insert e.1 e.2 := by
      unfold ofEntries
      rw [List.foldl_append]
      rfl
    rw [hfill, List.mem_append, List.mem_singleton]
    by_cases hk : k = e.1
    · have hfresh : (k, v) ∉ entries := fun hmem =>
        hne k (List.mem_map_of_mem (f := Prod.fst) hmem) e.1 (by simp) hk
      rw [hk, lookup_insert]
      subst hk
      constructor
      · intro h
        exact .inr (by rw [← Option.some.inj h])
      · rintro (h | h)
        · exact absurd h hfresh
        · rw [← h]
    · rw [lookup_insert_of_ne _ hk, ih hnd']
      constructor
      · exact .inl
      · rintro (h | h)
        · exact h
        · exact absurd (congrArg Prod.fst h) hk

theorem insert_eq_self_iff {v w : ν} (h : m.lookup k = some v) : m.insert k w = m ↔ w = v := by
  constructor
  · intro heq
    rw [← heq, lookup_insert] at h
    exact Option.some.inj h
  · rintro rfl
    refine ext_lookup fun k' => ?_
    by_cases hk : k' = k
    · rw [hk, lookup_insert, h]
    · exact lookup_insert_of_ne _ hk

theorem erase_of_lookup_none (h : m.lookup k = none) : m.erase k = m := by
  apply ext_lookup
  intro k'
  by_cases hk : k' = k
  · subst hk; simp [h]
  · simp [hk]

end Table

/-! ## Undo logs -/

/-- A change that remembers the value it replaced. -/
structure Change (κ ν : Type*) where
  key : κ
  new : Option ν
  old : Option ν

/-- The changes lead from `m` to `m'`, and each remembers what it replaced. -/
def Chain (m : Table κ ν) : List (Change κ ν) → Table κ ν → Prop
  | [], m' => m = m'
  | c :: cs, m' => c.old = m.lookup c.key ∧ Chain (m.set c.key c.new) cs m'

/-- Restore the remembered values, newest first. -/
def undoAll (m : Table κ ν) (cs : List (Change κ ν)) : Table κ ν :=
  cs.foldr (fun c m => m.set c.key c.old) m

theorem chain_append {cs ds : List (Change κ ν)} :
    Chain m (cs ++ ds) m' ↔ ∃ mid, Chain m cs mid ∧ Chain mid ds m' := by
  induction cs generalizing m with
  | nil => simp [Chain]
  | cons c cs ih => simp [Chain, ih, and_assoc]

theorem undoAll_of_chain {cs : List (Change κ ν)} (h : Chain m cs m') : undoAll m' cs = m := by
  induction cs generalizing m with
  | nil => exact h.symm
  | cons c cs ih =>
    obtain ⟨hold, hrest⟩ := h
    change (undoAll m' cs).set c.key c.old = m
    rw [ih hrest, hold, Table.set_set_lookup]

/-- Writing out a table leaves each of its values, in whatever order it is listed. -/
theorem applyWrites_lists {m : Table κ (Option ν)} {order : List (κ × Option ν)}
    (h : m.Lists order) (d : κ → Option ν) (k : κ) :
    applyWrites d order k = (m.lookup k).getD (d k) := by
  cases hlook : m.lookup k with
  | none =>
    refine applyWrites_of_not_mem d fun w hw hk => ?_
    have hmem := (h.mem w.1 w.2).mp hw
    rw [hk, hlook] at hmem
    cases hmem
  | some v =>
    refine applyWrites_eq_of_forall ⟨(k, v), (h.mem k v).mpr hlook, rfl⟩ fun w hw hk => ?_
    have hmem := (h.mem w.1 w.2).mp hw
    rw [hk, hlook] at hmem
    exact (Option.some.inj hmem).symm

/-! ## Ordered records -/

variable {α β : Type*} {R : α → β → Prop} {as : List α} {bs : List β}

theorem exists_of_forall₂ (h : List.Forall₂ R as bs) {a : α} (ha : a ∈ as) : ∃ b ∈ bs, R a b := by
  induction h with
  | nil => cases ha
  | cons hhead _ ih =>
    rcases List.mem_cons.mp ha with rfl | ha
    · exact ⟨_, List.mem_cons_self, hhead⟩
    · obtain ⟨b, hb, hr⟩ := ih ha
      exact ⟨b, List.mem_cons_of_mem _ hb, hr⟩

theorem forall₂_filterMap {f : α → Option β} {R : α → β → Prop}
    (hR : ∀ a b, f a = some b → R a b) (l : List α) :
    List.Forall₂ R (l.filter fun a => (f a).isSome) (l.flatMap fun a => (f a).toList) := by
  induction l with
  | nil => exact .nil
  | cons a l ih =>
    cases ha : f a with
    | none => simpa [ha] using ih
    | some b => simpa [ha] using And.intro (hR a b ha) ih

theorem exists_append_of_forall₂ {as' : List α} (h : List.Forall₂ R (as ++ as') bs) :
    ∃ cs cs', List.Forall₂ R as cs ∧ List.Forall₂ R as' cs' ∧ bs = cs ++ cs' := by
  have htake := List.forall₂_take as.length h
  have hdrop := List.forall₂_drop as.length h
  rw [List.take_left] at htake
  rw [List.drop_left] at hdrop
  exact ⟨_, _, htake, hdrop, (List.take_append_drop _ bs).symm⟩

/-- Numbered items that all stand for items of a longer numbered list stand for some part
of it, in order. -/
theorem exists_sublist_of_pairwise {f : α → Nat} {g : β → Nat} (hR : ∀ a b, R a b → f a = g b)
    (has : as.Pairwise fun a a' => f a < f a') (hbs : bs.Pairwise fun b b' => g b < g b')
    (h : ∀ a ∈ as, ∃ b ∈ bs, R a b) : ∃ cs, cs.Sublist bs ∧ List.Forall₂ R as cs := by
  induction bs generalizing as with
  | nil =>
    cases as with
    | nil => exact ⟨[], .refl _, .nil⟩
    | cons a as =>
      obtain ⟨b, hb, -⟩ := h a List.mem_cons_self
      cases hb
  | cons b bs ih =>
    obtain ⟨hb, hbs'⟩ := List.pairwise_cons.mp hbs
    cases as with
    | nil => exact ⟨[], List.nil_sublist _, .nil⟩
    | cons a as =>
      obtain ⟨ha, has'⟩ := List.pairwise_cons.mp has
      -- whoever stands for something past `b` is numbered past `b`
      have htail : ∀ a' ∈ a :: as, g b < f a' → ∃ b' ∈ bs, R a' b' := by
        intro a' ha' hlt
        obtain ⟨b', hb', hr⟩ := h a' ha'
        rcases List.mem_cons.mp hb' with rfl | hb'
        · exact absurd (hR _ _ hr) (by omega)
        · exact ⟨b', hb', hr⟩
      obtain ⟨b', hb', hr⟩ := h a List.mem_cons_self
      have hab := hR _ _ hr
      rcases List.mem_cons.mp hb' with rfl | hb'
      · obtain ⟨cs, hsub, hforall⟩ := ih has' hbs' fun a' ha' =>
          htail a' (List.mem_cons_of_mem _ ha') (by have := ha a' ha'; omega)
        exact ⟨b' :: cs, hsub.cons_cons _, .cons hr hforall⟩
      · have hpast : g b < f a := hab ▸ hb b' hb'
        obtain ⟨cs, hsub, hforall⟩ := ih has hbs' fun a' ha' => by
          refine htail a' ha' ?_
          rcases List.mem_cons.mp ha' with rfl | hmem
          · exact hpast
          · exact hpast.trans (ha a' hmem)
        exact ⟨cs, hsub.cons _, hforall⟩

end MqttLib.Foundation
