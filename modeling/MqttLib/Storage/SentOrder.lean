/-
MqttLib.Storage.SentOrder

`load_persisted_inflight` (`broker/client_handler/publish.rs`) after a restart: the records
of the messages that were sent and not acknowledged go back to the front of the queue.  A
record has no number of its own; the order of the sends is rebuilt from the second in which
the record was stored and the packet identifier.
-/

import Mathlib.Data.List.Sort
import Mathlib.Data.Prod.Lex
import MqttLib.Storage.QueueRecords

namespace MqttLib.Storage.SentOrder

open ClientQueue List

/-! ## The reload -/

/-- `get_inflight_messages`: expired records are left out. -/
def getInflightMessages (now : SystemTime) (records : List InflightMessage) :
    List InflightMessage :=
  records.filter fun m => !m.isExpired now

def sortKey (m : InflightMessage) : Nat ×ₗ Nat := toLex (m.storedAtSecs.toNat, m.packetId.toNat)

def isUnacked (m : InflightMessage) : Bool :=
  m.direction = .outbound && m.phase = .awaitingPubrec

/-- The message as it goes back to the queue. -/
def resent (clientId : String) (now : SystemTime) (m : InflightMessage) : QueuedMessage :=
  { QueuedMessage.new (m.toPublishPacket now) clientId m.qos
    (some m.packetId) now with dup := true }

/-- The records that go back, in the order in which the loop meets them. -/
def unacked (now : SystemTime) (records : List InflightMessage) : List InflightMessage :=
  ((getInflightMessages now records).insertionSort fun a b => sortKey a ≤ sortKey b).filter
    isUnacked

/-- `load_persisted_inflight`, as far as the queue sees it. -/
def loadPersistedInflight [Queueable QueuedMessage] (clientId : String) (now : SystemTime)
    (records : List InflightMessage) (q : ClientQueue QueuedMessage) (epoch : Nat) :
    ClientQueue QueuedMessage :=
  (q.requeueFrontInEpoch ((unacked now records).map (resent clientId now)) epoch).1

/-- The entries of messages at the front of a queue. -/
def front [Queueable QueuedMessage] (q : ClientQueue QueuedMessage)
    (messages : List QueuedMessage) : List (QueueEntry QueuedMessage) :=
  numbered ((q.entries.head?.map QueueEntry.seq).getD q.seq - messages.length) messages

/-! ## The queue -/

section

variable [Queueable QueuedMessage] {q : ClientQueue QueuedMessage}

theorem length_front (messages : List QueuedMessage) :
    (front q messages).length = messages.length := length_numbered _ messages

/-- What is shed is missing from the entries. -/
theorem length_insertFront (messages : List QueuedMessage) : (q.insertFront messages).2.1.length +
    (q.insertFront messages).1.entries.length = messages.length + q.entries.length := by
  have hsplit := congrArg length (shed_append q.limits (front q messages ++ q.entries).reverse
    (q.bytes + ((front q messages).map QueueEntry.bytes).sum))
  rw [length_append, length_reverse, length_append, length_front] at hsplit
  rw [← hsplit, ← (shed _ _ _).2.length_reverse]
  rfl

/-- Messages stand at the front if these were put back, the queue had not been cleared and
nothing was shed. -/
theorem entries_requeue_iff {others messages : List QueuedMessage} {epoch : Nat}
    (hlen : others.length = messages.length) :
    (q.requeueFrontInEpoch others epoch).1.entries = front q messages ++ q.entries ↔
      others = messages ∧
        (messages = [] ∨ q.epoch = epoch ∧ q.HasRoom messages) := by
  by_cases hemp : messages = []
  · subst hemp
    rw [length_eq_zero_iff.mp hlen]
    exact iff_of_true rfl ⟨rfl, .inl rfl⟩
  have hsome : others ≠ [] := by
    rintro rfl
    exact hemp (length_eq_zero_iff.mp hlen.symm)
  unfold requeueFrontInEpoch
  rw [if_neg (by simpa using hsome)]
  by_cases hepoch : q.epoch = epoch
  · rw [if_neg (not_not.mpr hepoch)]
    constructor
    · intro hents
      have hkept : (q.insertFront others).2.1 = [] := by
        have h := length_insertFront (q := q) others
        rw [hents, length_append, length_front] at h
        exact length_eq_zero_iff.mp (by omega)
      have hfront : front q others ++ q.entries = front q messages ++ q.entries :=
        (entries_enforceLimits hkept).symm.trans hents
      have hsame : others = messages := by
        have h := congrArg (filterMap QueueEntry.body) (append_cancel_right hfront)
        rwa [front, front, filterMap_body_numbered, filterMap_body_numbered] at h
      exact ⟨hsame, .inr ⟨hepoch, hsame ▸ insertFront_sheds_none_iff.mp hkept⟩⟩
    · rintro ⟨rfl, h | h⟩
      · exact absurd h hemp
      · exact entries_enforceLimits (insertFront_sheds_none_iff.mpr h.2)
  · rw [if_pos hepoch]
    refine iff_of_false (fun hents => hemp ?_) fun h => ?_
    · have h : q.entries.length = _ := congrArg length hents
      rw [length_append, length_front] at h
      exact length_eq_zero_iff.mp (by omega)
    · exact h.2.elim hemp fun h => hepoch h.1

end

/-! ## The order -/

section

variable {now : SystemTime} {records sent others : List InflightMessage}

theorem perm_unacked (hrecs : records.Perm (sent ++ others))
    (hsent : ∀ m ∈ sent, isUnacked m) (hoth : ∀ m ∈ others, isUnacked m = false) :
    (unacked now records).Perm (getInflightMessages now sent) := by
  have hlist : (getInflightMessages now records).Perm
      (getInflightMessages now sent ++ getInflightMessages now others) := by
    unfold getInflightMessages
    rw [← filter_append]
    exact hrecs.filter _
  refine (((perm_insertionSort _ _).trans hlist).filter isUnacked).trans (.of_eq ?_)
  have hkept : (getInflightMessages now sent).filter isUnacked = getInflightMessages now sent :=
    filter_eq_self.mpr fun m hm => hsent m (mem_of_mem_filter hm)
  have hnone : (getInflightMessages now others).filter isUnacked = [] :=
    filter_eq_nil_iff.mpr fun m hm => by simp [hoth m (mem_of_mem_filter hm)]
  rw [filter_append, hkept, hnone, append_nil]

theorem pairwise_unacked (now : SystemTime) (records : List InflightMessage) :
    (unacked now records).Pairwise fun a b => sortKey a ≤ sortKey b := by
  have : Std.Total fun a b : InflightMessage => sortKey a ≤ sortKey b := ⟨fun a b => le_total _ _⟩
  have : IsTrans InflightMessage fun a b => sortKey a ≤ sortKey b := ⟨fun _ _ _ => le_trans⟩
  exact (pairwise_insertionSort _ _).filter _

theorem packetId_eq_of_sortKey {a b : InflightMessage} (h : sortKey a = sortKey b) :
    a.packetId = b.packetId :=
  UInt16.toNat_inj.mp (congrArg (fun key => (ofLex key).2) h)

/-- After a restart the messages that were sent and not acknowledged, and have not expired,
stand at the front of the queue in the order of the sends exactly if each was stored in a
later second than the one before, or in the same second under a greater identifier. -/
theorem sent_order_iff [Queueable QueuedMessage] (hrecords : records.Perm (sent ++ others))
    (hsent : ∀ m ∈ sent, isUnacked m = true) (hothers : ∀ m ∈ others, isUnacked m = false)
    (hids : (sent.map InflightMessage.packetId).Nodup) (clientId : String)
    (q : ClientQueue QueuedMessage) (epoch : Nat) :
    let live := getInflightMessages now sent
    let messages := live.map (resent clientId now)
    (loadPersistedInflight clientId now records q epoch).entries = front q messages ++ q.entries ↔
      live.Pairwise (fun a b => sortKey a < sortKey b) ∧
        (messages = [] ∨ q.epoch = epoch ∧ q.HasRoom messages) := by
  intro live messages
  have hperm : (unacked now records).Perm live := perm_unacked hrecords hsent hothers
  have hlive : (live.map InflightMessage.packetId).Nodup := hids.sublist (filter_sublist.map _)
  have hinj {a b : InflightMessage} (ha : a ∈ live) (hb : b ∈ live)
      (h : a.packetId = b.packetId) : a = b := inj_on_of_nodup_map hlive ha hb h
  have horder : (unacked now records).map (resent clientId now) = messages ↔
      live.Pairwise fun a b => sortKey a < sortKey b := by
    constructor
    · -- the identifiers in the queue tell the records apart
      intro hmap
      have hsame : unacked now records = live := by
        refine ext_getElem hperm.length_eq fun i h₁ h₂ =>
          hinj (hperm.subset (getElem_mem h₁)) (getElem_mem h₂) ?_
        have h := congrArg (fun l => (l[i]?.bind QueuedMessage.packetId)) hmap
        simpa [messages, h₁, h₂, resent, QueuedMessage.new] using h
      have hsorted := pairwise_unacked now records
      rw [hsame] at hsorted
      refine hsorted.imp₂ (fun a b hle hne => lt_of_le_of_ne hle fun h =>
        hne (packetId_eq_of_sortKey h)) (pairwise_map.mp hlive)
    · intro hlt
      refine congrArg _ (hperm.eq_of_pairwise (fun a b ha hb hab hba => ?_)
        (pairwise_unacked now records) (hlt.imp le_of_lt))
      exact hinj (hperm.subset ha) hb (packetId_eq_of_sortKey (le_antisymm hab hba))
  rw [← horder]
  exact entries_requeue_iff (by rw [length_map, length_map, hperm.length_eq])

end

def published (packetId : UInt16) (now : SystemTime) : InflightMessage :=
  .fromPublish { topicName := "t", packetId := some packetId, payload := [], qos := .atLeastOnce }
    "c" .outbound .awaitingPubrec now

def laterSecond : List InflightMessage := [published 65535 0, published 1 1000000000]

theorem sent_order_iff_later_second :
    (loadPersistedInflight "c" 0 laterSecond.reverse {} 0).entries =
      front {} (laterSecond.map (resent "c" 0)) ++ [] :=
  (sent_order_iff (show laterSecond.reverse.Perm (laterSecond ++ []) from .swap ..) (by decide)
    (fun _ => nofun) (by decide) "c" {} 0).mpr ⟨by decide, .inr ⟨rfl, by decide⟩⟩

/-- Two messages of one second, with the counter wrapping around between them. -/
theorem wrapped_identifier_goes_first :
    let sent := [published 65535 0, published 1 0]
    (loadPersistedInflight "c" 0 sent {} 0).messages.map QueuedMessage.packetId =
      [some 1, some 65535] := by
  decide

end MqttLib.Storage.SentOrder
