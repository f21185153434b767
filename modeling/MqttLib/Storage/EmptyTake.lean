/-
MqttLib.Storage.EmptyTake

What an empty batch says about the queue it was taken from (`take` of `client_queue.rs`): the
entries whose message cannot be read count against the limit.
-/

import MqttLib.Storage.QueueRecords

namespace MqttLib.Storage.EmptyTake

open Foundation ClientQueue QueueRecords List

/-- The loop reaches the end of the queue if no entry stands behind as many unexpired ones as the
limit. -/
theorem takeLoop_rest_eq_nil_iff (now : SystemTime) (limit : Nat)
    (entries : List (QueueEntry QueuedMessage)) :
    (takeLoop now limit entries).2.2 = [] ↔
      ∀ i < entries.length, (entries.take i).countP (fun entry => !entry.isExpired now) <
        limit := by
  fun_induction takeLoop now limit entries with
  | case1 limit => simp
  | case2 entry entries =>
    exact iff_of_false (cons_ne_nil _ _) fun h => Nat.not_lt_zero _ (h 0 (by simp))
  | case3 limit entry entries hexpired taken expired rest hloop ih =>
    rw [hloop] at ih
    rw [ih, length_cons, Nat.forall_lt_succ_left]
    simp [hexpired]
  | case4 limit entry entries hlive taken expired rest hloop ih =>
    rw [hloop] at ih
    rw [ih, length_cons, Nat.forall_lt_succ_left]
    simp [hlive]

section

variable [Queueable QueuedMessage]

/-- `take`: the locked section, the reads after it, and what is published at the end.  The
bodies on disk are read by `read`, and the messages looked at again at `later`. -/
def take (q : ClientQueue QueuedMessage) (read : String → Option QueuedMessage)
    (now later : SystemTime) (limit : Nat) : List QueuedMessage × ClientQueue QueuedMessage :=
  let (taken, queue, _) := q.takeEntries now limit
  let messages := taken.filterMap (readEntry read later)
  (messages, (queue.markDraining taken).settleTake messages)

theorem entries_take (q : ClientQueue QueuedMessage) (read : String → Option QueuedMessage)
    (now later : SystemTime) (limit : Nat) :
    (take q read now later limit).2.entries = (takeLoop now limit q.entries).2.2 := by
  unfold take settleTake markDraining
  dsimp only
  split <;> split <;> rfl

/-- That a batch is empty means that no live message was in the queue and none is left exactly
if one of the entries it counts can be read, or no entry stands behind as many unexpired ones as
the limit. -/
theorem take_empty_iff (q : ClientQueue QueuedMessage) (read : String → Option QueuedMessage)
    (now later : SystemTime) (limit : Nat) :
    ((take q read now later limit).1 = [] →
      (∀ entry ∈ q.entries, entry.isExpired now = false → readEntry read later entry = none) ∧
        (take q read now later limit).2.entries = []) ↔
    ((∃ entry ∈ (q.entries.filter fun entry => !entry.isExpired now).take limit,
        readEntry read later entry ≠ none) ∨
      ∀ i < q.entries.length,
        (q.entries.take i).countP (fun entry => !entry.isExpired now) < limit) := by
  have hnone : (take q read now later limit).1 = [] ↔
      ∀ entry ∈ (q.entries.filter fun entry => !entry.isExpired now).take limit,
        readEntry read later entry = none := by
    rw [← (takeLoop_spec now limit q.entries).1]
    exact filterMap_eq_nil_iff
  rw [hnone, entries_take, ← takeLoop_rest_eq_nil_iff]
  constructor
  · intro h
    by_cases hread : ∃ entry ∈ (q.entries.filter fun entry => !entry.isExpired now).take limit,
        readEntry read later entry ≠ none
    · exact .inl hread
    · push Not at hread
      exact .inr (h hread).2
  · rintro (⟨entry, hmem, hsome⟩ | hempty) hall
    · exact absurd (hall entry hmem) hsome
    · refine ⟨fun entry hmem hlive => ?_, hempty⟩
      obtain ⟨htakes, hdropped, hperm, -⟩ := takeLoop_spec now limit q.entries
      have hparts := hperm.symm.subset hmem
      rw [hempty, append_nil, mem_append] at hparts
      rcases hparts with htaken | hexpired
      · exact hall entry (htakes ▸ htaken)
      · rw [hdropped entry hexpired] at hlive
        cases hlive

end

/-- A file that cannot be read in front of a live message uses up a batch of one. -/
theorem take_stops_at_unreadable : ∃ q : ClientQueue QueuedMessage,
    (take q (fun _ => none) 0 0 1).1 = [] ∧
    (take q (fun _ => none) 0 0 1).2.entries.filterMap (readEntry (fun _ => none) 0) =
      [lasting] :=
  ⟨{ entries := [⟨0, 400, none, none, some "0.json"⟩, newEntry 1 lasting] }, rfl, rfl⟩

end MqttLib.Storage.EmptyTake
