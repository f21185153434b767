/-
MqttLib.Protocol.TopicAlias

The topic aliases of a connection (`session/topic_alias.rs`).
-/

import MqttLib.Foundation.LastWrite
import MqttLib.Foundation.Reachable
import Mathlib.Order.Interval.Finset.Nat

namespace MqttLib.Protocol

open Foundation Finmap

structure TopicAliasManager where
  topicAliasMaximum : Nat
  aliasToTopic : Table Nat String
  topicToAlias : Table String Nat
  nextAlias : Nat

namespace TopicAliasManager

def new (topicAliasMaximum : Nat) : TopicAliasManager := ⟨topicAliasMaximum, ∅, ∅, 1⟩

variable (m : TopicAliasManager)

def aliasAfter (a : Nat) : Nat := if a ≥ m.topicAliasMaximum then 1 else a + 1

/-- The loop of `get_or_create_alias`; nothing if it has not ended after the rounds given. -/
def freeAlias : Nat → Nat → Option Nat
  | 0, _ => none
  | rounds + 1, a => if a ∈ m.aliasToTopic then freeAlias rounds (m.aliasAfter a) else some a

/-- Both insertions of a pair. -/
def enter (a : Nat) (topic : String) : TopicAliasManager :=
  { m with
    aliasToTopic := m.aliasToTopic.insert a topic
    topicToAlias := m.topicToAlias.insert topic a }

def getOrCreateAlias (topic : String) : Option (Option Nat × TopicAliasManager) :=
  match m.topicToAlias.lookup topic with
  | some a => some (some a, m)
  | none =>
    if m.topicAliasMaximum = 0 ∨ m.aliasToTopic.keys.card ≥ m.topicAliasMaximum then some (none, m)
    else (m.freeAlias m.topicAliasMaximum m.nextAlias).map fun a =>
      (some a, { m.enter a topic with nextAlias := m.aliasAfter a })

/-- The old topic of an alias loses its entry. -/
def forget (a : Nat) : TopicAliasManager :=
  { m with
    topicToAlias := match m.aliasToTopic.lookup a with
      | some oldTopic => m.topicToAlias.erase oldTopic
      | none => m.topicToAlias }

/-- Whether the alias is accepted, and the tables afterwards. -/
def registerAlias (a : Nat) (topic : String) : Bool × TopicAliasManager :=
  if a = 0 ∨ a > m.topicAliasMaximum then (false, m) else (true, (m.forget a).enter a topic)

def getTopic (a : Nat) : Option String := m.aliasToTopic.lookup a

def getAlias (topic : String) : Option Nat := m.topicToAlias.lookup topic

def clear : TopicAliasManager :=
  { m with aliasToTopic := ∅, topicToAlias := ∅, nextAlias := 1 }

inductive Call where
  | getOrCreateAlias (topic : String)
  | registerAlias (a : Nat) (topic : String)
  | clear

def act : Call → Option TopicAliasManager
  | .getOrCreateAlias topic => (m.getOrCreateAlias topic).map Prod.snd
  | .registerAlias a topic => some (m.registerAlias a topic).2
  | .clear => some m.clear

abbrev Valid (a : Nat) : Prop := 1 ≤ a ∧ a ≤ m.topicAliasMaximum

/-- What holds in every run. -/
structure Sound : Prop where
  range : ∀ a topic, m.getTopic a = some topic → m.Valid a
  resolves : ∀ topic a, m.getAlias topic = some a → m.getTopic a = some topic
  next : m.Valid m.nextAlias

/-- Every topic some alias resolves to has an alias. -/
def Covered : Prop := ∀ a topic, m.getTopic a = some topic → ∃ b, m.getAlias topic = some b

/-- No other alias still resolves to the topic that loses its entry. -/
def Frees (a : Nat) (topic : String) : Prop := ∀ oldTopic other, m.getTopic a = some oldTopic →
  m.getTopic other = some oldTopic → oldTopic = topic ∨ other = a

def Keeps : Call → Prop
  | .registerAlias a topic => m.Frees a topic
  | _ => True

variable {m} {m' : TopicAliasManager} {call : Call} {a : Nat} {topic : String}

theorem aliasAfter_range (hmax : 0 < m.topicAliasMaximum) (a : Nat) :
    m.Valid (m.aliasAfter a) := by
  unfold aliasAfter
  split <;> omega

/-- An unused alias is met before the rounds are over. -/
theorem freeAlias_isSome {rounds target : Nat} (hfree : target ∉ m.aliasToTopic)
    (htarget : m.Valid target) (ha : m.Valid a)
    (hrounds : (if a ≤ target then target - a else m.topicAliasMaximum - a + target) < rounds) :
    ∃ free, m.freeAlias rounds a = some free := by
  -- every used alias that is passed brings the target one closer
  induction rounds generalizing a with
  | zero => omega
  | succ rounds ih =>
    rw [freeAlias]
    split
    · next hused =>
      have hne : a ≠ target := fun heq => hfree (heq ▸ hused)
      refine ih (aliasAfter_range (by omega) a) ?_
      unfold aliasAfter
      split_ifs at hrounds ⊢ <;> omega
    · exact ⟨a, rfl⟩

theorem freeAlias_unused {rounds free : Nat} (h : m.freeAlias rounds a = some free)
    (ha : m.Valid a) :
    free ∉ m.aliasToTopic ∧ m.Valid free := by
  induction rounds generalizing a with
  | zero => cases h
  | succ rounds ih =>
    rw [freeAlias] at h
    split at h
    · exact ih h (aliasAfter_range (by omega) a)
    · next hunused =>
      cases h
      exact ⟨hunused, ha⟩

/-- The search ends: fewer aliases are used than there are. -/
theorem Sound.freeAlias_isSome (hs : m.Sound)
    (hfew : ¬(m.topicAliasMaximum = 0 ∨ m.aliasToTopic.keys.card ≥ m.topicAliasMaximum)) :
    ∃ free, m.freeAlias m.topicAliasMaximum m.nextAlias = some free := by
  have hcard : m.aliasToTopic.keys.card < (Finset.Icc 1 m.topicAliasMaximum).card := by
    rw [Nat.card_Icc]
    omega
  obtain ⟨target, hin, hfree⟩ := Finset.exists_mem_notMem_of_card_lt_card hcard
  have htarget := Finset.mem_Icc.mp hin
  have hnext := hs.next
  refine TopicAliasManager.freeAlias_isSome (mt mem_keys.mpr hfree) htarget hnext ?_
  split <;> omega

/-- The tables after an alias is given to a topic. -/
def assign (m : TopicAliasManager) (a : Nat) (topic : String) (next : Nat) : TopicAliasManager :=
  { (m.forget a).enter a topic with nextAlias := next }

theorem getTopic_assign {next : Nat} (b : Nat) :
    (m.assign a topic next).getTopic b = if b = a then some topic else m.getTopic b := by
  split
  · next h => exact h ▸ lookup_insert _
  · next h => exact lookup_insert_of_ne _ h

theorem getAlias_assign {next : Nat} (t : String) : (m.assign a topic next).getAlias t =
    if t = topic then some a else if m.getTopic a = some t then none else m.getAlias t := by
  split
  · next h => exact h ▸ lookup_insert _
  · next h =>
    refine (lookup_insert_of_ne _ h).trans ?_
    unfold forget getAlias getTopic
    cases m.aliasToTopic.lookup a with
    | none => rfl
    | some oldTopic =>
      by_cases hold : t = oldTopic
      · subst hold
        simp
      · simp [hold, Ne.symm hold]

theorem Sound.assign {next : Nat} (hs : m.Sound) (ha : m.Valid a)
    (hnext : m.Valid next) : (m.assign a topic next).Sound := by
  refine ⟨fun b t h => ?_, fun t b h => ?_, hnext⟩
  · rw [getTopic_assign] at h
    split at h
    · next hb => exact hb ▸ ha
    · exact hs.range b t h
  · rw [getAlias_assign] at h
    rw [getTopic_assign]
    split at h
    · next ht =>
      cases h
      rw [if_pos rfl, ht]
    · obtain ⟨hne, h⟩ := Option.ite_none_left_eq_some.mp h
      have htopic := hs.resolves t b h
      rw [if_neg fun hb : b = a => hne (hb ▸ htopic), htopic]

/-- What `get_or_create_alias` can do. -/
theorem Sound.getOrCreateAlias_cases (hs : m.Sound) (topic : String) :
    m.getOrCreateAlias topic = some (m.getAlias topic, m) ∨
      ∃ a, m.getTopic a = none ∧ m.Valid a ∧
        m.getOrCreateAlias topic = some (some a, m.assign a topic (m.aliasAfter a)) := by
  unfold getOrCreateAlias getAlias
  cases m.topicToAlias.lookup topic with
  | some a => exact .inl rfl
  | none =>
    dsimp only
    split
    · exact .inl rfl
    · next hfew =>
      obtain ⟨a, ha⟩ := hs.freeAlias_isSome hfew
      obtain ⟨hunused, hrange⟩ := freeAlias_unused ha hs.next
      have hnone : m.aliasToTopic.lookup a = none := lookup_eq_none.mpr hunused
      refine .inr ⟨a, hnone, hrange, ?_⟩
      rw [ha, TopicAliasManager.assign, forget, hnone]
      rfl

/-- What a call can do. -/
theorem Sound.act_cases (hs : m.Sound) (hstep : m.act call = some m') :
    (m' = m ∨ m' = m.clear) ∧ m.Keeps call ∨ ∃ a topic next, m' = m.assign a topic next ∧
      m.Valid a ∧ m.Valid next ∧
      (m.Frees a topic ↔ m.Keeps call) := by
  cases call with
  | getOrCreateAlias topic =>
    obtain hcreate | ⟨a, hnone, ha, hcreate⟩ := hs.getOrCreateAlias_cases topic
    all_goals
      rw [act, hcreate] at hstep
      cases hstep
    · exact .inl ⟨.inl rfl, trivial⟩
    · refine .inr ⟨a, topic, _, rfl, ha, aliasAfter_range (by omega) a, ?_⟩
      exact iff_of_true (fun _ _ hold => nomatch hnone.symm.trans hold) trivial
  | registerAlias a topic =>
    cases hstep
    unfold registerAlias
    split
    · next hbad =>
      refine .inl ⟨.inl rfl, fun oldTopic other h => ?_⟩
      have := hs.range a oldTopic h
      omega
    · exact .inr ⟨a, topic, _, rfl, by omega, hs.next, .rfl⟩
  | clear =>
    cases hstep
    exact .inl ⟨.inr rfl, trivial⟩

theorem Sound.act (hs : m.Sound) (hstep : m.act call = some m') :
    m'.Sound ∧ m'.topicAliasMaximum = m.topicAliasMaximum := by
  obtain ⟨rfl | rfl, -⟩ | ⟨a, topic, next, rfl, ha, hnext, -⟩ := hs.act_cases hstep
  · exact ⟨hs, rfl⟩
  · exact ⟨⟨nofun, nofun, le_rfl, hs.next.1.trans hs.next.2⟩, rfl⟩
  · exact ⟨hs.assign ha hnext, rfl⟩

end TopicAliasManager

end MqttLib.Protocol
