/-
MqttLib.Client.AckOrder

The order of the acknowledgements (`AckOrder` of `client/direct/ack.rs`).
-/

import MqttLib.Client.Inbound

namespace MqttLib.Client.Inbound.AckOrder

open Foundation List

/-- `discard`, without the generation, which counts the discards. -/
def discard (o : AckOrder) : AckOrder := ⟨o.head + o.slots.length, []⟩

structure History where
  order : AckOrder := {}
  /-- How many numbers were reserved before the last discard. -/
  base : Nat := 0
  /-- The numbers reserved since then, with the requests they were released with. -/
  log : List (Option AckRequest) := []
  /-- What has come out since then. -/
  out : List AckRequest := []

inductive Action where
  | reserve
  | release (request : AckRequest)
  | discard

/-- A number is released once, unless it is from before the discard. -/
def act (s : History) : Action → Option History
  | .reserve => some { s with order := s.order.reserve.2, log := s.log ++ [none] }
  | .release request =>
    let s' := { s with
      order := (s.order.release request).2, out := s.out ++ (s.order.release request).1 }
    if request.seq < s.base then some s'
    else if s.log[request.seq - s.base]? = some none then
      some { s' with log := s.log.set (request.seq - s.base) (some request) }
    else none
  | .discard => some { order := s.order.discard, base := s.base + s.log.length }

/-- What has come out and the slots make up the log. -/
structure Ordered (s : History) : Prop where
  head : s.order.head = s.base + s.out.length
  log : s.out.map some ++ s.order.slots = s.log
  front : s.order.slots.head?.join = none
  numbered : ∀ i r, s.log[i]? = some (some r) → r.seq = s.base + i

/-- The filled slots in front come out. -/
theorem filled_slots (slots : List (Option AckRequest)) :
    ((slots.takeWhile Option.isSome).filterMap id).length = (slots.takeWhile Option.isSome).length ∧
      ((slots.takeWhile Option.isSome).filterMap id).map some ++ slots.dropWhile Option.isSome =
        slots ∧ (slots.dropWhile Option.isSome).head?.join = none := by
  induction slots with
  | nil => exact ⟨rfl, rfl, rfl⟩
  | cons slot slots ih =>
    cases slot with
    | none => exact ⟨rfl, rfl, rfl⟩
    | some request => exact ⟨congrArg (· + 1) ih.1, congrArg (some request :: ·) ih.2.1, ih.2.2⟩

theorem Ordered.act {s s' : History} {a : Action} (hs : Ordered s) (hact : act s a = some s') :
    Ordered s' := by
  have hhead := hs.head
  have hlen := congrArg length hs.log
  rw [length_append, length_map] at hlen
  cases a with
  | reserve =>
    cases hact
    refine ⟨hhead, (append_assoc ..).symm.trans (congrArg (· ++ [none]) hs.log), ?_,
      fun i r hr => hs.numbered i r (by grind)⟩
    have hfront := hs.front
    unfold AckOrder.reserve
    cases hslots : s.order.slots with
    | nil => rfl
    | cons _ slots =>
      rw [hslots] at hfront
      exact hfront
  | release request =>
    dsimp only [AckOrder.act, AckOrder.release] at hact
    split at hact
    · rw [if_pos (by omega)] at hact
      cases hact
      exact ⟨by simpa using hhead, by simpa using hs.log, hs.front, hs.numbered⟩
    rename_i hbase
    obtain ⟨hnone, hact⟩ := Option.ite_none_right_eq_some.mp hact
    cases hact
    have hbound : request.seq - s.base < s.log.length := (List.getElem?_eq_some_iff.mp hnone).1
    -- what has come out was released before
    have hge : s.order.head ≤ request.seq := by
      by_contra hlt
      rw [← hs.log, getElem?_append_left (by simp; omega)] at hnone
      simp at hnone
    have hset : s.out.map some ++ s.order.slots.set (request.seq - s.order.head) (some request) =
        s.log.set (request.seq - s.base) (some request) := by
      rw [← hs.log, set_append_right _ _ (by simp; omega), length_map,
        show request.seq - s.base - s.out.length = request.seq - s.order.head by omega]
    rw [if_neg (by omega), if_pos (by omega)]
    obtain ⟨hfilled, hsplit, hfront⟩ :=
      filled_slots (s.order.slots.set (request.seq - s.order.head) (some request))
    refine ⟨?_, ?_, hfront, fun i r hr => ?_⟩
    · simp only [length_append]
      omega
    · dsimp only
      rw [map_append, append_assoc, hsplit, hset]
    · by_cases hi : request.seq - s.base = i
      · rw [← hi, getElem?_set_self hbound] at hr
        cases hr
        dsimp only
        omega
      · rw [getElem?_set_ne hi] at hr
        exact hs.numbered i r hr
  | discard =>
    cases hact
    refine ⟨?_, rfl, rfl, by simp⟩
    show s.order.head + s.order.slots.length = s.base + s.log.length + 0
    omega

/-- In every interleaving: numbers are reserved one after the other, and what has come out since
the last discard is the requests of the first numbers reserved since then, in their order, up
to the first number that is not released. -/
theorem acks_in_order {s : History} (hrun : Reachable act (fun _ _ => True) {} s) :
    s.order.reserve.1 = s.base + s.log.length ∧ (∀ i r, s.out[i]? = some r → r.seq = s.base + i) ∧
      s.out.map some = s.log.take s.out.length ∧ s.log[s.out.length]?.join = none := by
  have hstart : Ordered {} := ⟨rfl, rfl, rfl, by simp⟩
  obtain ⟨hhead, hlog, hfront, hnumbered⟩ :=
    hrun.invariant hstart fun _ _ _ hs _ hact => hs.act hact
  rw [← hlog] at hnumbered ⊢
  refine ⟨?_, fun i r hr => hnumbered i r ?_, by simp [take_left'], ?_⟩
  · show s.order.head + s.order.slots.length = _
    simp
    omega
  · rw [getElem?_append_left (by simpa using (List.getElem?_eq_some_iff.mp hr).1), getElem?_map, hr]
    rfl
  · rw [getElem?_append_right (by simp), length_map, Nat.sub_self, ← head?_eq_getElem?]
    exact hfront

/-- The second number is released before the first, and one from before a discard is stale. -/
theorem acks_in_order_stale : ∃ s, Reachable act (fun _ _ => True) {} s ∧
    s.out.map AckRequest.seq = [1, 2] ∧ s.out.map some = s.log.take s.out.length := by
  have hstart : Reachable act (fun _ _ => True) {} {} := .start
  have hrun := hstart.follow (fun _ _ _ => trivial)
    (show follow act _ [.reserve, .discard, .reserve, .reserve, .release ⟨2, 7, .ack⟩,
      .release ⟨0, 8, .ack⟩, .release ⟨1, 9, .ack⟩] = some _ from rfl)
  exact ⟨_, hrun, rfl, (acks_in_order hrun).2.2.1⟩

end MqttLib.Client.Inbound.AckOrder
