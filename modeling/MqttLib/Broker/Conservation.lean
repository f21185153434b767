/-
MqttLib.Broker.Conservation

No QoS 1 or 2 message is lost or doubled while connections come and go.  Every message
that has entered a lane or the queue is finished, discarded as too large, or in exactly
one place: the queue, a lane, a batch, the held messages, or the window of the connection
that serves the session, which is the same as the stored records.

At most one connection has a loaded window at a time: a connection binds when all
displaced ones have handed back.
-/

import MqttLib.Foundation.Reachable
import MqttLib.Broker.Delivery
import MqttLib.Foundation.Census

namespace MqttLib.Broker.Delivery

open Foundation Storage Function ClientQueue Phase Outbound Multiset Finset Message Option Bool
open MqttLib.Broker.Ownership (Exit Release)

variable {α : Type*}

/-! ## What a connection holds -/

namespace Phase

/-- The messages of a batch that has been taken from the queue. -/
def pending : Phase α → List (Message α)
  | .taking entries => entries.filterMap QueueEntry.body
  | .sending pending | .sent pending => pending
  | _ => []

/-- In the loop of `handle_packets`. -/
def working : Phase α → Bool
  | .top | .selecting .. | .laneBatch _ | .checked _ | .taking _ | .sending _ | .sent _ => true
  | _ => false

/-- In the loop, or on the way out of it with everything still in hand. -/
def serving : Phase α → Bool
  | .leaving _ | .closing _ => true
  | phase => phase.working

/-- From the registration on, until everything has been handed back. -/
def attached : Phase α → Bool
  | .connecting | .starting => true
  | phase => phase.serving

def registered : Phase α → Bool
  | .idle | .expecting => false
  | _ => true

/-- In the branches of the loop that only a bound connection takes. -/
def delivering : Phase α → Bool
  | .selecting delivering windowOpen => delivering || windowOpen
  | .laneBatch _ | .checked _ | .taking _ | .sending _ | .sent _ => true
  | _ => false

/-- Everything has been handed back. -/
def handedBack : Phase α → Bool
  | .requeued _ | .drained | .gone => true
  | .releasing exit | .released exit _ => exit ≠ .abandoned
  | _ => false

end Phase

/-- The window belongs to this connection. -/
def Handler.loaded (h : Handler α) : Bool := h.bound && h.phase.serving

/-- What the connection holds besides its window. -/
def Handler.holdings (h : Handler α) : Multiset Delivery :=
  ((h.lane.contents ++ h.held ++ h.phase.pending).map delivery : List Delivery)

/-- All the messages on their way. -/
def State.stock (s : State α) : Multiset Delivery :=
  (s.queue.messages.map delivery : List Delivery) +
    ∑ g ∈ range s.nextGeneration, (s.handlers g).holdings + s.records.deliveries

/-! ## Regular steps -/

/-- There is a packet identifier for the message, and it can be encoded. -/
def Sendable [Publishable α] (h : Handler α) (m : Option (Message α)) : Prop :=
  (∃ id, id ≠ 0 ∧ h.outbound.inUse id = false) ∧
    ∀ m' ∈ m, (Publishable.encodedSize m'.content).isSome

/-- Nothing expires and the queue has room for what is put into it; a connection binds when every
hand-off is over; what is sent can be; a PUBACK does not answer a message that waits for
PUBCOMP; and no lane with messages is dropped after a failed handshake. -/
def Regular [Publishable α] (s : State α) : Action α → Prop
  | .bind _ waived sorted _ =>
    waived = false ∧ s.queue.handoffs = 0 ∧ Table.Lists s.records sorted
  | .receive g _ | .next g _ => Sendable (s.handlers g) (s.handlers g).lane.contents.head?
  | .sendNext g _ =>
    (s.handlers g).beingDisplaced s.queue = false →
      Sendable (s.handlers g) (s.handlers g).phase.pending.head?
  | .take _ now => ∀ entry ∈ s.queue.entries, entry.isExpired now = false
  | .mark g now => ∀ entries, (s.handlers g).phase = .taking entries →
      ∀ entry ∈ entries, (readEntry (fun _ => none) now entry).isSome
  | .proceed g _ =>
    (s.handlers g).phase.pending = [] ∨ s.queue.HasRoom (s.handlers g).phase.pending
  | .requeue g => (s.handlers g).unsent = [] ∨ s.queue.HasRoom (s.handlers g).unsent
  | .push p => ∀ m epoch, (s.publishers p).stage = .queueing m epoch → s.queue.epoch = epoch →
      s.queue.HasRoom [m]
  | .puback g id => id ∉ (s.handlers g).outbound.awaitingPubcomp
  | .finish g => ∀ release, (s.handlers g).phase = .released .abandoned release →
      (s.handlers g).lane.contents = [] ∧ (s.handlers g).lane.permits = ∅
  | _ => True

/-- Runs whose steps meet a condition. -/
inductive Run [Publishable α] (condition : State α → Action α → Prop) (s₀ : State α) :
    State α → Prop where
  | start : Run condition s₀ s₀
  | step {s s' : State α} {a : Action α} (run : Run condition s₀ s) (met : condition s a)
      (enabled : act s a = some s') : Run condition s₀ s'

/-- A new session: nobody is connected, nothing is queued, nothing has been routed. -/
structure Initial (s : State α) : Prop where
  entries : s.queue.entries = []
  handoffs : s.queue.handoffs = 0
  records : s.records = ∅
  registered : s.registered = none
  handlers : ∀ g, s.handlers g = {}
  publishers : ∀ p, s.publishers p = {}
  history : s.history = {}

/-! ## The invariant -/

/-- What holds of one connection: until it has handed back it is registered or displaced;
its window, once loaded, is in step with the records; and nothing is left with it after
it has handed back. -/
structure Sound (registered : Option Nat) (epoch : Nat) (records : Records α) (g : Nat)
    (h : Handler α) : Prop where
  attached : h.phase.attached = true → h.notice = true ∨ registered = some g
  owner : registered = some g → h.notice = false ∧ h.phase.registered = true
  epoch : h.phase.registered = true → h.epoch = epoch
  unregistered : h.phase.registered = false → h.notice = false ∧ h.bound = false
  bound : h.phase.delivering = true → h.bound = true
  starting : h.phase = .connecting ∨ h.phase = .starting → h.bound = false
  tracked : h.loaded = true → h.outbound.Tracked records
  covers : h.loaded = true → h.phase.working = true → h.outbound.Covers records
  fresh : h.loaded = false → h.outbound.Fresh ∧ h.held = []
  emptied : h.phase.handedBack = true →
    h.lane.closed = true ∧ h.lane.contents = [] ∧ h.lane.permits = ∅
  closed : ∀ exit, h.phase = .closing exit → h.lane.closed = true
  sends : h.outbound.unackedLine.Sublist h.sends

/-- What holds of a router: its message has the publisher's next number, and a reserved place
is in the books of its lane. -/
def Staged (s : State α) (p : Nat) : Stage α → Prop
  | .idle => True
  | .checking m g epoch _ | .sending m g epoch | .waiting m g epoch =>
    m.delivery = ⟨p, (s.publishers p).next⟩ ∧ epoch = s.queue.epoch ∧ g < s.nextGeneration
  | .permitted m g =>
    m.delivery = ⟨p, (s.publishers p).next⟩ ∧ p ∈ (s.handlers g).lane.permits ∧
      g < s.nextGeneration
  | .queueing m epoch => m.delivery = ⟨p, (s.publishers p).next⟩ ∧ epoch = s.queue.epoch

open Handler

/-- A router is not affected by what leaves its number, the epoch and its reserved place. -/
theorem Staged.mono {s s' : State α} {p : Nat} {stage : Stage α} (h : Staged s p stage)
    (hnext : (s'.publishers p).next = (s.publishers p).next)
    (hepoch : s'.queue.epoch = s.queue.epoch) (hborn : s.nextGeneration ≤ s'.nextGeneration)
    (hperm : ∀ k < s.nextGeneration, p ∈ (s k).lane.permits → p ∈ (s' k).lane.permits) :
    Staged s' p stage := by
  cases stage with
  | idle => trivial
  | checking m k epoch flags | sending m k epoch | waiting m k epoch =>
    exact ⟨hnext ▸ h.1, h.2.1.trans hepoch.symm, h.2.2.trans_le hborn⟩
  | permitted m k => exact ⟨hnext ▸ h.1, hperm k h.2.2 h.2.1, h.2.2.trans_le hborn⟩
  | queueing m epoch => exact ⟨hnext ▸ h.1, h.2.trans hepoch.symm⟩

structure Inv (s : State α) : Prop where
  sound : ∀ g, Sound s.registered s.queue.epoch s.records g (s.handlers g)
  unborn : ∀ g, s.nextGeneration ≤ g → s.handlers g = {}
  notices : s.queue.handoffs =
    ∑ g ∈ range s.nextGeneration, (s.handlers g).notice.toNat
  single : ∀ g k, (s.handlers g).loaded = true → (s.handlers k).loaded = true → g = k
  parked : (∀ g, (s.handlers g).loaded = false) →
    ∀ id record, s.records.lookup id = some record → record.phase = .awaitingPubcomp
  staged : ∀ p, Staged s p (s.publishers p).stage
  numbered : ∀ d ∈ s.history.accepted, d.number < (s.publishers d.publisher).next
  nodup : s.history.accepted.Nodup
  ledger : s.history.accepted = s.history.finished + s.history.discarded + s.stock

section

variable {s : State α} {g : Nat}

theorem fresh_default : Outbound.Fresh ({} : Outbound α) := ⟨rfl, rfl, rfl, by
  show (1 : UInt16) ≠ 0
  decide⟩

theorem sound_default (registered : Option Nat) (epoch : Nat) (records : Records α)
    (h : registered ≠ some g) : Sound registered epoch records g {} where
  attached hph := by cases hph
  owner hreg := absurd hreg h
  epoch hph := by cases hph
  unregistered _ := ⟨rfl, rfl⟩
  bound hph := by cases hph
  starting _ := rfl
  tracked hload := by cases hload
  covers hload := by cases hload
  fresh _ := ⟨fresh_default, rfl⟩
  emptied hph := by cases hph
  closed exit hph := by cases hph
  sends := List.nil_sublist _

theorem Initial.inv (h : Initial s) : Inv s where
  sound g := by
    rw [h.handlers g, h.registered]
    exact sound_default _ _ _ (by simp)
  unborn g _ := h.handlers g
  notices := by
    rw [h.handoffs]
    simp [h.handlers]
  single g k hg := by
    rw [h.handlers g] at hg
    cases hg
  parked _ id record hlook := by
    rw [h.records] at hlook
    simp at hlook
  staged p := by
    rw [h.publishers p]
    trivial
  numbered d hd := by
    rw [h.history] at hd
    simp at hd
  nodup := by
    rw [h.history]
    exact nodup_zero
  ledger := by
    have hhldg : ∀ g, (s g).holdings = 0 := fun g => by
      rw [h.handlers g]
      rfl
    have hmsgs : s.queue.messages = [] := by
      rw [messages, h.entries]
      rfl
    have hdels : s.records.deliveries = 0 := by
      rw [h.records]
      rfl
    rw [h.history]
    simp [State.stock, hhldg, hmsgs, hdels]

variable {registered : Option Nat} {epoch p : Nat} {records : Records α} {h : Handler α}
  {phase : Phase α} {s' : State α} {delivering windowOpen written waived : Bool} {now : SystemTime}
  {m : Message α} {queue : ClientQueue (Message α)} {a : Action α}
  {sorted : List (UInt16 × InflightRecord α)} {contents : List (Message α)} {id : UInt16}
  {unwritten : Option Nat}

/-- The records matter only to the connection that has them loaded. -/
theorem Sound.setRecords {records' : Records α} (hs : Sound registered epoch records g h)
    (hload : h.loaded = false) : Sound registered epoch records' g h :=
  { hs with
    tracked := fun hl => by rw [hload] at hl; cases hl
    covers := fun hl => by rw [hload] at hl; cases hl }

/-- The router entry changes hands between others. -/
theorem Sound.setRegistered {registered' : Option Nat} (hs : Sound registered epoch records g h)
    (hnot : registered ≠ some g) (hnot' : registered' ≠ some g) :
    Sound registered' epoch records g h :=
  { hs with
    attached := fun hp => .inl ((hs.attached hp).resolve_right hnot)
    owner := fun hreg => absurd hreg hnot' }

/-! ## Steps of one connection -/

/-- What one connection may do to the lanes, the records and the books: the total stays. -/
structure Balanced (s : State α) (g : Nat) (queue : ClientQueue (Message α)) (records : Records α)
    (history : History) (h' : Handler α) : Prop where
  permits : (s.handlers g).lane.permits ⊆ h'.lane.permits
  kept : records = s.records ∨ (s.handlers g).loaded = true
  loaded : h'.loaded = true → (s.handlers g).loaded = true ∨ ∀ k, (s.handlers k).loaded = false
  parked : h'.loaded = false → (s.handlers g).loaded = true →
    ∀ id record, records.lookup id = some record → record.phase = .awaitingPubcomp
  accepted : history.accepted = s.history.accepted
  balance : history.finished + history.discarded +
      ((queue.messages.map delivery : List Delivery) + h'.holdings + records.deliveries) =
    s.history.finished + s.history.discarded +
      ((s.queue.messages.map delivery : List Delivery) + (s.handlers g).holdings +
        s.records.deliveries)

/-- One connection changes, and with it the queue, the records, the router entry and the books,
while the total stays the same. -/
theorem Inv.replace (h : Inv s) (hg : g < s.nextGeneration) {queue : ClientQueue (Message α)}
    {records : Records α} {registered : Option Nat} {history : History} {h' : Handler α}
    (hepoch : queue.epoch = s.queue.epoch)
    (hoffs : queue.handoffs + (s g).notice.toNat = s.queue.handoffs + h'.notice.toNat)
    (hreg : registered = s.registered ∨ ∀ k, k ≠ g → s.registered ≠ some k ∧ registered ≠ some k)
    (hs : Sound registered s.queue.epoch records g h')
    (hb : Balanced s g queue records history h') :
    Inv (State.setHandler { s with queue, records, registered, history } g h') where
  sound := by
    show ∀ k, Sound registered queue.epoch records k (update s.handlers g h' k)
    rw [hepoch]
    refine forall_update rfl hs fun k hk => ?_
    have hkept : Sound registered s.queue.epoch s.records k (s k) := by
      rcases hreg with rfl | hoth
      · exact h.sound k
      · exact (h.sound k).setRegistered (hoth k hk).1 (hoth k hk).2
    rcases hb.kept with rfl | hgloaded
    · exact hkept
    · apply hkept.setRecords
      rw [← not_eq_true]
      exact fun hkloaded => hk (h.single k g hkloaded hgloaded)
  unborn k hk := by
    have hne : k ≠ g := by
      have : s.nextGeneration ≤ k := hk
      omega
    show update s.handlers g h' k = {}
    rw [update_of_ne hne]
    exact h.unborn k hk
  notices := by
    have hsum := sum_update_add (mem_range.mpr hg) (fun h : Handler α => h.notice.toNat)
      s.handlers h'
    have hold := h.notices
    show queue.handoffs = ∑ k ∈ range s.nextGeneration, (update s.handlers g h' k).notice.toNat
    omega
  single k₁ k₂ h₁ h₂ := by
    -- whoever else is loaded was so before
    have hoth : ∀ k, k ≠ g → (update s.handlers g h' k).loaded = true →
        (update s.handlers g h' g).loaded = false := by
      intro k hk hkloaded
      rw [update_of_ne hk] at hkloaded
      rw [update_self, ← not_eq_true]
      intro hg'
      rcases hb.loaded hg' with hgloaded | hnone
      · exact hk (h.single k g hkloaded hgloaded)
      · rw [hnone k] at hkloaded
        cases hkloaded
    have h₁' : (update s.handlers g h' k₁).loaded := h₁
    have h₂' : (update s.handlers g h' k₂).loaded := h₂
    by_cases hk₁ : k₁ = g
    · by_cases hk₂ : k₂ = g
      · rw [hk₁, hk₂]
      · rw [hk₁, hoth k₂ hk₂ h₂'] at h₁'
        cases h₁'
    · by_cases hk₂ : k₂ = g
      · rw [hk₂, hoth k₁ hk₁ h₁'] at h₂'
        cases h₂'
      · rw [update_of_ne hk₁] at h₁'
        rw [update_of_ne hk₂] at h₂'
        exact h.single k₁ k₂ h₁' h₂'
  parked hnone id record hlook := by
    have hnone' : ∀ k, (update s.handlers g h' k).loaded = false := hnone
    have hg' : h'.loaded = false := by simpa using hnone' g
    by_cases hgloaded : (s g).loaded = true
    · exact hb.parked hg' hgloaded id record hlook
    · have hsame : records = s.records := hb.kept.resolve_right hgloaded
      refine h.parked (fun k => ?_) id record (hsame ▸ hlook)
      by_cases hkg : k = g
      · subst hkg
        simpa using hgloaded
      · simpa [hkg] using hnone' k
  staged p := by
    refine (h.staged p).mono rfl hepoch (Nat.le_refl _) fun k _ => ?_
    show _ → p ∈ (update s.handlers g h' k).lane.permits
    exact forall_update rfl (fun hmem => hb.permits hmem) (fun _ _ hmem => hmem) k
  numbered d hd := h.numbered d (hb.accepted ▸ hd)
  nodup := by
    show history.accepted.Nodup
    rw [hb.accepted]
    exact h.nodup
  ledger := by
    have hsum := sum_update_add (mem_range.mpr hg) holdings s.handlers h'
    have hold := h.ledger
    show history.accepted = history.finished + history.discarded +
      ((queue.messages.map delivery : List Delivery) +
        (∑ k ∈ range s.nextGeneration, (update s.handlers g h' k).holdings) +
        records.deliveries)
    rw [hb.accepted, hold]
    unfold State.stock
    -- every delivery is counted as often on both sides
    ext d
    have hbal := congrArg (Multiset.count d) hb.balance
    replace hsum := congrArg (Multiset.count d) hsum
    simp only [Multiset.count_add] at hbal hsum ⊢
    omega

/-- The same for a step that has nothing to do with the ownership. -/
theorem Inv.advance (h : Inv s) (hg : g < s.nextGeneration) {queue : ClientQueue (Message α)}
    {records : Records α} {history : History} {h' : Handler α}
    (hepoch : queue.epoch = s.queue.epoch) (hoffs : queue.handoffs = s.queue.handoffs)
    (hs : Sound s.registered s.queue.epoch records g h')
    (hnote : h'.notice = (s g).notice) (hb : Balanced s g queue records history h') :
    Inv (State.setHandler { s with queue, records, history } g h') :=
  Inv.replace (g := g) h hg hepoch (by rw [hoffs, hnote])
    (.inl rfl) hs hb

/-- The ownership changes, and nothing else. -/
theorem Inv.reown (h : Inv s) (hg : g < s.nextGeneration) {queue : ClientQueue (Message α)}
    {registered : Option Nat} {h' : Handler α} (hents : queue.entries = s.queue.entries)
    (hepoch : queue.epoch = s.queue.epoch)
    (hoffs : queue.handoffs + (s g).notice.toNat = s.queue.handoffs + h'.notice.toNat)
    (hreg : registered = s.registered ∨ ∀ k, k ≠ g → s.registered ≠ some k ∧ registered ≠ some k)
    (hs : Sound registered s.queue.epoch s.records g h')
    (hperm : (s g).lane.permits ⊆ h'.lane.permits) (hload : h'.loaded = (s g).loaded)
    (hhldg : h'.holdings = (s g).holdings) :
    Inv (State.setHandler { s with queue, registered } g h') := by
  have hmsgs : queue.messages = s.queue.messages := by
    unfold messages
    rw [hents]
  refine Inv.replace (g := g) h hg hepoch hoffs hreg
    hs ⟨hperm, .inl rfl, fun hl => .inl (hload ▸ hl), fun hl' hl => ?_, rfl, ?_⟩
  · rw [hload, hl] at hl'
    cases hl'
  · rw [hmsgs, hhldg]

/-- A connection that is in some phase has been given out. -/
theorem Inv.born (h : Inv s) (hph : (s g).phase ≠ .idle) : g < s.nextGeneration := by
  by_contra hge
  rw [h.unborn g (by omega)] at hph
  exact hph rfl

theorem Inv.born_of_registered (h : Inv s) (hreg : s.registered = some g) :
    g < s.nextGeneration := by
  have hown := ((h.sound g).owner hreg).2
  refine h.born fun hidle => ?_
  rw [hidle] at hown
  cases hown

/-- Only what is private to one connection changes, and flags of the queue. -/
theorem Inv.setHandler (h : Inv s) (hg : g < s.nextGeneration) {queue : ClientQueue (Message α)}
    {h' : Handler α} (hents : queue.entries = s.queue.entries)
    (hepoch : queue.epoch = s.queue.epoch) (hoffs : queue.handoffs = s.queue.handoffs)
    (hs : Sound s.registered s.queue.epoch s.records g h') (hnote : h'.notice = (s g).notice)
    (hperm : (s g).lane.permits ⊆ h'.lane.permits)
    (hload : h'.loaded = (s g).loaded) (hhldg : h'.holdings = (s g).holdings) :
    Inv (State.setHandler { s with queue } g h') :=
  Inv.reown (g := g) h hg hents hepoch (by rw [hoffs, hnote])
    (.inl rfl) hs hperm hload hhldg

/-- The phases a connection may move to with everything else as it is. -/
structure Follows (h : Handler α) (phase : Phase α) : Prop where
  attached : phase.attached = true → h.phase.attached = true
  registered : phase.registered = h.phase.registered
  delivering : phase.delivering = true → h.bound = true
  starting : phase = .connecting ∨ phase = .starting → h.bound = false
  loaded : { h with phase }.loaded = h.loaded
  working : phase.working = true → h.loaded = true → h.phase.working = true
  handedBack : phase.handedBack = true → h.phase.handedBack = true
  closing : ∀ exit, phase = .closing exit → h.lane.closed = true

theorem Sound.move (hs : Sound registered epoch records g h) (hfol : Follows h phase) :
    Sound registered epoch records g { h with phase } where
  attached hph := hs.attached (hfol.attached hph)
  owner hreg := ⟨(hs.owner hreg).1, hfol.registered.trans (hs.owner hreg).2⟩
  epoch hph := hs.epoch (hfol.registered ▸ hph)
  unregistered hph := hs.unregistered (hfol.registered ▸ hph)
  bound := hfol.delivering
  starting := hfol.starting
  tracked hload := hs.tracked (hfol.loaded ▸ hload)
  covers hload hwork :=
    have hl : h.loaded := hfol.loaded ▸ hload
    hs.covers hl (hfol.working hwork hl)
  fresh hload := hs.fresh (hfol.loaded ▸ hload)
  emptied hph := hs.emptied (hfol.handedBack hph)
  closed := hfol.closing
  sends := hs.sends

/-- A connection moves on with all that it has, and at most flags of the queue change.  The
branches that deliver open in a turn of the loop only, when there is no hand-off to wait
for. -/
inductive Moves (s : State α) (g : Nat) : State α → Prop where
  | intro (queue : ClientQueue (Message α)) (phase : Phase α)
      (busy : (s.handlers g).phase ≠ .idle) (follows : Follows (s.handlers g) phase)
      (pending : phase.pending.map delivery =
        (s.handlers g).phase.pending.map delivery)
      (opens : phase.delivering = true → (s.handlers g).phase.delivering = true ∨
        (s.handlers g).waived = true ∨ s.queue.handoffs = 0)
      (entries : queue.entries = s.queue.entries) (epoch : queue.epoch = s.queue.epoch)
      (handoffs : queue.handoffs = s.queue.handoffs) :
      Moves s g (State.setHandler { s with queue } g { s.handlers g with phase })

theorem Inv.moves (h : Inv s) (hmov : Moves s g s') : Inv s' := by
  obtain ⟨_, _, hbusy, hfol, hpend, -, hents, hepoch, hoffs⟩ := hmov
  refine h.setHandler (h.born hbusy) hents hepoch hoffs ((h.sound g).move hfol) rfl
    (subset_rfl) hfol.loaded ?_
  simp only [holdings, List.map_append, hpend]

theorem Phase.working_cases (hwork : phase.working) :
    phase.serving ∧ phase.attached ∧ phase.registered ∧
      phase.handedBack = false := by
  cases phase <;> first | exact ⟨rfl, rfl, rfl, rfl⟩ | cases hwork

/-- From one point of the loop to another. -/
theorem Follows.within (hold : h.phase.working) (hnew : phase.working)
    (hdeliv : phase.delivering → h.bound) : Follows h phase := by
  obtain ⟨hserv, hatt, hreg, -⟩ := working_cases hold
  obtain ⟨hserv', -, hreg', hhanded'⟩ := working_cases hnew
  refine ⟨fun _ => hatt, hreg'.trans hreg.symm, hdeliv, ?_, ?_,
    fun _ _ => hold, fun hhanded => ?_, ?_⟩
  · rintro (rfl | rfl) <;> cases hnew
  · show (h.bound && phase.serving) = (h.bound && h.phase.serving)
    rw [hserv, hserv']
  · rw [hhanded'] at hhanded
    cases hhanded
  · rintro exit rfl
    cases hnew

/-- Out of the loop. -/
theorem Follows.leave (hold : h.phase.working) (exit : Exit) : Follows h (.leaving exit) := by
  obtain ⟨hserv, hatt, hreg, -⟩ := working_cases hold
  refine ⟨fun _ => hatt, hreg.symm, (fun hd => by cases hd), ?_, ?_,
    (fun hw => by cases hw), (fun hh => by cases hh), ?_⟩
  · rintro (hph | hph) <;> cases hph
  · show (h.bound && true) = (h.bound && h.phase.serving)
    rw [hserv]
  · rintro _ hph
    cases hph

/-- A write that fails ends the loop. -/
theorem Follows.onWrite (hold : h.phase.working) (written : Bool) :
    Follows h (if written then .top else .leaving .closed : Phase α) := by
  cases written with
  | true => exact Follows.within hold rfl fun hd => by cases hd
  | false => exact Follows.leave hold .closed

theorem Phase.working_of_delivering (hdeliv : phase.delivering) : phase.working := by
  cases phase <;> first | rfl | cases hdeliv

theorem Inv.loaded_of_delivering (h : Inv s) (hdeliv : (s g).phase.delivering) : (s g).loaded := by
  unfold loaded
  rw [(h.sound g).bound hdeliv, (working_cases (working_of_delivering hdeliv)).1]
  rfl

/-- The same with its batch as it is. -/
def Stays (s : State α) (g : Nat) (s' : State α) : Prop :=
  Moves s g s' ∧ (s'.handlers g).phase.pending = (s.handlers g).phase.pending

theorem Stays.intro (queue : ClientQueue (Message α)) (phase : Phase α)
    (hbusy : (s g).phase ≠ .idle) (hfol : Follows (s g) phase)
    (hpend : phase.pending = (s g).phase.pending)
    (hopens : phase.delivering → (s g).phase.delivering ∨ (s g).waived ∨ s.queue.handoffs = 0)
    (hents : queue.entries = s.queue.entries) (hepoch : queue.epoch = s.queue.epoch)
    (hoffs : queue.handoffs = s.queue.handoffs) :
    Stays s g (State.setHandler { s with queue } g { s g with phase }) := by
  refine ⟨.intro queue phase hbusy hfol (by rw [hpend]) hopens hents hepoch hoffs, ?_⟩
  show (update s.handlers g { s g with phase } g).phase.pending = _
  rw [update_self]
  exact hpend

/-- A step within the loop, or out of it, that leaves the branch it is in. -/
theorem Stays.within (hold : (s g).phase.working)
    (hfol : Follows (s g) phase) (hpend : phase.pending = []) (hpend' : (s g).phase.pending = [])
    (hopens : phase.delivering → (s g).phase.delivering) :
    Stays s g (s.setHandler g { s g with phase }) := by
  refine .intro s.queue phase (fun hidle => ?_) hfol (by rw [hpend, hpend'])
    (fun hd => .inl (hopens hd)) rfl rfl rfl
  rw [hidle] at hold
  cases hold

theorem stays_turn (hturn : s.turn g = some s') : Stays s g s' := by
  unfold State.turn at hturn
  dsimp only at hturn
  split at hturn
  · rename_i hph
    cases hturn
    refine Stays.intro s.queue _ (by simp [hph]) ?_ (by rw [hph]; rfl) (fun hgates => ?_)
      rfl rfl rfl
    · refine Follows.within (by rw [hph]; rfl) rfl fun hgates => ?_
      -- both gates ask for a bound connection
      simp only [delivering, or_eq_true, and_eq_true] at hgates
      exact hgates.elim (fun h => h.1) (fun h => h.1.1)
    · simp only [delivering, or_eq_true, and_eq_true, handoff,
        not_eq_true', decide_eq_false_iff_not, not_lt, Nat.le_zero] at hgates
      exact .inr (hgates.elim (fun h => h.2) (fun h => h.1.2))
  · cases hturn

theorem stays_endBatch (hend : s.endBatch g = some s') : Stays s g s' := by
  unfold State.endBatch at hend
  dsimp only at hend
  split at hend
  · rename_i hph
    cases hend
    have hwork : (s g).phase.working := by rw [hph]; rfl
    exact Stays.within hwork (Follows.within hwork rfl (fun hd => by cases hd)) rfl
      (by rw [hph]; rfl) (fun hd => by cases hd)
  · cases hend

theorem Inv.stays_drain (h : Inv s) (hdrain : s.drain g = some s') : Stays s g s' := by
  unfold State.drain at hdrain
  dsimp only at hdrain
  split at hdrain
  · rename_i hph
    have hwork : (s g).phase.working := by rw [hph]; rfl
    split at hdrain <;> cases hdrain
    · exact Stays.within hwork (Follows.within hwork rfl (fun hd => by cases hd)) rfl
        (by rw [hph]; rfl) (fun hd => by cases hd)
    · have hdeliv : (s g).phase.delivering := by rw [hph]; rfl
      exact Stays.within hwork
        (Follows.within hwork rfl fun _ => (h.sound g).bound hdeliv) rfl
        (by rw [hph]; rfl) fun _ => hdeliv
  · cases hdrain

theorem Inv.stays_connected (h : Inv s) (hconn : s.connected g = some s') : Stays s g s' := by
  unfold State.connected at hconn
  dsimp only at hconn
  split at hconn
  · rename_i hph
    have hunb := (h.sound g).starting (.inl hph)
    cases hconn
    refine Stays.intro s.queue _ (by simp [hph]) ?_ ?_ ?_ rfl rfl rfl
    · cases (s g).predecessor <;>
        constructor <;> simp +contextual [hph, hunb, attached, serving,
        working, registered, delivering, handedBack, loaded]
    · cases (s g).predecessor <;> simp [hph, pending]
    · cases (s g).predecessor <;> exact fun hd => by cases hd
  · cases hconn

/-- A handshake that fails after the registration. -/
theorem Inv.stays_abandon (h : Inv s) (hph : (s g).phase = .connecting) :
    Stays s g (s.setHandler g { s g with phase := .releasing .abandoned }) := by
  have hunb := (h.sound g).starting (.inl hph)
  refine Stays.intro s.queue _ (by simp [hph]) ?_ (by rw [hph]; rfl)
    (fun hd => by cases hd) rfl rfl rfl
  constructor <;> simp +contextual [hph, hunb, attached, serving,
    working, registered, delivering, handedBack, loaded]

/-- The loop is left. -/
theorem stays_leave (hph : (s g).phase = .selecting delivering windowOpen)
    (exit : Exit) : Stays s g (s.setHandler g { s g with phase := .leaving exit }) := by
  have hwork : (s g).phase.working := by rw [hph]; rfl
  exact Stays.within hwork (Follows.leave hwork exit) rfl (by rw [hph]; rfl) (fun hd => by cases hd)

theorem stays_finishDrain (hfin : s.finishDrain g = some s') : Stays s g s' := by
  unfold State.finishDrain at hfin
  dsimp only at hfin
  split at hfin
  · rename_i hph
    cases hfin
    refine Stays.intro _ _ (by simp [hph]) ?_ (by rw [hph]; rfl) (fun hd => by cases hd)
      rfl rfl rfl
    exact Follows.within (by rw [hph]; rfl) rfl (fun hd => by cases hd)
  · rename_i hph
    cases hfin
    refine Stays.intro _ _ (by simp [hph]) ?_ (by rw [hph]; rfl) (fun hd => by cases hd)
      rfl rfl rfl
    constructor <;> simp +contextual [hph, attached, serving, working,
      registered, delivering, handedBack, loaded]
  · cases hfin

theorem inLoop_cases {handle : Handler α → State α} (hin : s.inLoop g handle = some s') :
    ∃ delivering windowOpen, (s g).phase = .selecting delivering windowOpen ∧
      s' = handle (s g) := by
  unfold State.inLoop at hin
  dsimp only at hin
  split at hin
  · rename_i delivering windowOpen hph
    exact ⟨delivering, windowOpen, hph, (some.inj hin).symm⟩
  · cases hin

/-- The steps in which a connection only goes on. -/
def Action.mover : Action α → Option Nat
  | .connected g | .abandon g | .turn g | .endBatch g | .drain g | .finishDrain g | .close g
  | .takenOver g => some g
  | _ => none

theorem Inv.stays [Publishable α] (h : Inv s) (hmover : a.mover = some g)
    (hact : act s a = some s') : Stays s g s' := by
  cases a with
  | connected k =>
    cases hmover
    exact h.stays_connected hact
  | abandon k =>
    cases hmover
    dsimp only [act] at hact
    split at hact
    · rename_i hph
      cases hact
      exact h.stays_abandon hph
    · cases hact
  | turn k =>
    cases hmover
    exact stays_turn hact
  | endBatch k =>
    cases hmover
    exact stays_endBatch hact
  | drain k =>
    cases hmover
    exact h.stays_drain hact
  | finishDrain k =>
    cases hmover
    exact stays_finishDrain hact
  | close k =>
    cases hmover
    dsimp only [act] at hact
    obtain ⟨delivering, windowOpen, hph, rfl⟩ := inLoop_cases hact
    exact stays_leave hph .closed
  | takenOver k =>
    cases hmover
    obtain ⟨-, hin⟩ := ite_none_right_eq_some.mp hact
    obtain ⟨delivering, windowOpen, hph, rfl⟩ := inLoop_cases hin
    exact stays_leave hph .takenOver
  | _ => cases hmover

theorem Sound.setInbound (hs : Sound registered epoch records g h) (ids : Finset UInt16) :
    Sound registered epoch records g
      { h with outbound := { h.outbound with inbound := ids } } :=
  { hs with
    tracked := fun hload => (hs.tracked hload).setInbound ids
    fresh := fun hload =>
      ⟨⟨(hs.fresh hload).1.inflight, (hs.fresh hload).1.order,
        (hs.fresh hload).1.awaiting, (hs.fresh hload).1.next⟩,
        (hs.fresh hload).2⟩ }

theorem Inv.inbound (h : Inv s) (hph : (s g).phase = .selecting delivering windowOpen)
    (ids : Finset UInt16) :
    Inv (s.setHandler g
      { s g with
        outbound := { (s g).outbound with inbound := ids }
        phase := .top }) := by
  have hfol : Follows { s g with
      outbound := { (s g).outbound with inbound := ids } } (.top : Phase α) :=
    Follows.within (by rw [hph]; rfl) rfl (fun hd => by cases hd)
  refine Inv.setHandler (g := g) h (h.born (by simp [hph])) rfl rfl rfl
    (((h.sound g).setInbound ids).move hfol) rfl (subset_rfl) hfol.loaded ?_
  simp [holdings, hph, pending]

theorem Inv.closeLane (h : Inv s) {exit : Exit} (hph : (s g).phase = .leaving exit) :
    Inv (s.setHandler g
      { s g with
        lane := { (s g).lane with closed := true }
        phase := .closing exit }) := by
  have hs : Sound s.registered s.queue.epoch s.records g
      { s g with lane := { (s g).lane with closed := true } } :=
    { h.sound g with
      emptied := fun hhanded => by
        have hhanded' : (s g).phase.handedBack := hhanded
        rw [hph] at hhanded'
        cases hhanded'
      closed := fun _ _ => rfl }
  have hfol : Follows { s g with
      lane := { (s g).lane with closed := true } } (.closing exit : Phase α) := by
    constructor <;> simp [hph, attached, serving, working, registered,
      delivering, handedBack, loaded]
  refine Inv.setHandler (g := g) h (h.born (by simp [hph])) rfl rfl rfl
    (hs.move hfol) rfl (subset_rfl) hfol.loaded ?_
  simp [holdings, hph, pending]

theorem map_readEntry [Queueable α] {β : Type*} {f : Message α → β}
    (hf : ∀ m, f (Queueable.recomputeExpiry m) = f m) {entries : List (QueueEntry (Message α))}
    (hread : ∀ entry ∈ entries, (readEntry (fun _ => none) now entry).isSome) :
    (entries.filterMap (readEntry (fun _ => none) now)).map f =
      (entries.filterMap QueueEntry.body).map f := by
  induction entries with
  | nil => rfl
  | cons entry entries ih =>
    obtain ⟨_, hmsg⟩ := isSome_iff_exists.mp (hread entry List.mem_cons_self)
    obtain ⟨body, hbody, rfl⟩ := readEntry_eq_some hmsg
    have hrest := ih fun entry' hmem => hread entry' (List.mem_cons_of_mem entry hmem)
    rw [List.filterMap_cons, hmsg, List.filterMap_cons, hbody]
    show f (Queueable.recomputeExpiry body) :: _ = f body :: _
    rw [hf, hrest]

/-- After a batch has been taken only flags of the queue change. -/
theorem settleTake_markDraining (queue : ClientQueue (Message α))
    (taken : List (QueueEntry (Message α))) (messages : List (Message α)) :
    ((queue.markDraining taken).settleTake messages).entries = queue.entries ∧
      ((queue.markDraining taken).settleTake messages).epoch = queue.epoch ∧
      ((queue.markDraining taken).settleTake messages).handoffs = queue.handoffs := by
  unfold settleTake markDraining
  split <;> split <;> exact ⟨rfl, rfl, rfl⟩

theorem Inv.moves_mark [Publishable α] (h : Inv s) (hregl : Regular s (.mark g now))
    (hmark : s.mark g now = some s') : Moves s g s' := by
  unfold State.mark at hmark
  dsimp only at hmark
  split at hmark
  · rename_i entries hph
    cases hmark
    obtain ⟨hents, hepoch, hoffs⟩ := settleTake_markDraining s.queue entries
      (entries.filterMap (readEntry (fun _ => none) now))
    have hdeliv : (s g).phase.delivering := by rw [hph]; rfl
    refine Moves.intro _ _ (by simp [hph]) ?_ ?_ (fun _ => .inl hdeliv) hents hepoch hoffs
    · exact Follows.within (by rw [hph]; rfl) rfl fun _ => (h.sound g).bound hdeliv
    · rw [hph]
      exact map_readEntry (fun _ => rfl) (hregl entries hph)
  · cases hmark

theorem take_cases [Publishable α] (hregl : Regular s (.take g now))
    (htake : s.take g now = some s') :
    ∃ limit taken, ∃ queue : ClientQueue (Message α), (s g).phase = .checked limit ∧
      s.queue.messages = taken.filterMap QueueEntry.body ++ queue.messages ∧
      queue.epoch = s.queue.epoch ∧ queue.handoffs = s.queue.handoffs ∧
      s' = State.setHandler { s with queue } g { s g with phase := .taking taken } := by
  unfold State.take at htake
  dsimp only at htake
  split at htake
  · rename_i limit hph
    have hloop := takeLoop_of_live limit hregl
    unfold takeEntries at htake
    rw [hloop] at htake
    refine ⟨limit, s.queue.entries.take limit, _, hph, ?_, ?_, ?_, (some.inj htake).symm⟩
    · show s.queue.entries.filterMap QueueEntry.body =
        _ ++ (s.queue.entries.drop limit).filterMap QueueEntry.body
      rw [← List.filterMap_append, List.take_append_drop]
    · rfl
    · rfl
  · cases htake

/-- Messages go from the queue to the batch that is delivered, or back. -/
theorem Inv.moveQueue (h : Inv s) {queue : ClientQueue (Message α)} {phase : Phase α}
    (hdeliv : (s g).phase.working ∧ (s g).phase.delivering) (hwork : phase.working)
    (hmsgs : phase.pending ++ queue.messages = (s g).phase.pending ++ s.queue.messages)
    (hepoch : queue.epoch = s.queue.epoch) (hoffs : queue.handoffs = s.queue.handoffs) :
    Inv (State.setHandler { s with queue } g { s g with phase }) := by
  have hfol : Follows (s g) phase :=
    Follows.within hdeliv.1 hwork fun _ => (h.sound g).bound hdeliv.2
  have hborn : g < s.nextGeneration := h.born fun hidle => by
    rw [hidle] at hdeliv
    cases hdeliv.1
  refine Inv.advance (g := g) h hborn hepoch hoffs
    ((h.sound g).move hfol) rfl ⟨subset_rfl, .inl rfl,
      fun hl => .inl (hfol.loaded ▸ hl), fun hl' hl => ?_, rfl, ?_⟩
  · rw [hfol.loaded, hl] at hl'
    cases hl'
  · have hsum := congrArg (fun l => ((l.map delivery : List Delivery) : Multiset Delivery)) hmsgs
    simp only [List.map_append, ← coe_add] at hsum
    simp only [holdings, List.map_append, ← coe_add]
    congr 2
    rw [add_left_comm, add_comm (queue.messages.map delivery : Multiset Delivery), hsum]
    ac_rfl

theorem Inv.take [Publishable α] (h : Inv s) (hregl : Regular s (.take g now))
    (htake : s.take g now = some s') : Inv s' := by
  obtain ⟨_, _, _, hph, hsplit, hepoch, hoffs, rfl⟩ := take_cases hregl htake
  refine h.moveQueue (by rw [hph]; exact ⟨rfl, rfl⟩) rfl ?_ hepoch hoffs
  rw [hph, hsplit]
  rfl

theorem Inv.proceed_cases [Publishable α] (h : Inv s) {cut : Bool}
    (hregl : Regular s (.proceed g cut)) (hproc : s.proceed g cut = some s') :
    Stays s g s' ∨ ∃ rest, ∃ queue : ClientQueue (Message α),
      (s g).phase = .sent rest ∧ queue.messages = rest ++ s.queue.messages ∧
      queue.epoch = s.queue.epoch ∧ queue.handoffs = s.queue.handoffs ∧
      s' = State.setHandler { s with queue } g { s g with phase := .sending [] } := by
  unfold State.proceed at hproc
  dsimp only at hproc
  split at hproc
  · rename_i rest hph
    have hdeliv : (s g).phase.delivering := by rw [hph]; rfl
    split at hproc <;> cases hproc
    · have hepoch := (h.sound g).epoch (by rw [hph]; rfl)
      have hroom : rest = [] ∨ s.queue.HasRoom rest := by
        have hpending : (s g).phase.pending = [] ∨ s.queue.HasRoom (s g).phase.pending := hregl
        rw [hph] at hpending
        exact hpending
      exact .inr ⟨rest, _, hph,
        messages_requeueFrontInEpoch hepoch.symm hroom, by simp, by simp, rfl⟩
    · refine .inl (Stays.intro s.queue _ (by simp [hph]) ?_ (by rw [hph]; rfl)
        (fun _ => .inl hdeliv) rfl rfl rfl)
      exact Follows.within (by rw [hph]; rfl) rfl fun _ => (h.sound g).bound hdeliv
  · cases hproc

theorem Inv.proceed [Publishable α] (h : Inv s) {cut : Bool} (hregl : Regular s (.proceed g cut))
    (hproc : s.proceed g cut = some s') : Inv s' := by
  rcases h.proceed_cases hregl hproc with
    hstays | ⟨rest, queue, hph, hmsgs, hepoch, hoffs, rfl⟩
  · exact h.moves hstays.1
  · refine h.moveQueue (by rw [hph]; exact ⟨rfl, rfl⟩) rfl ?_ hepoch hoffs
    rw [hph, hmsgs]
    rfl

theorem Inv.hold (h : Inv s) {rest : List (Message α)} (hph : (s g).phase = .sending (m :: rest)) :
    Inv (s.setHandler g
      { s g with phase := .top, held := (s g).held ++ m :: rest }) := by
  have hbound := (h.sound g).bound (by rw [hph]; rfl)
  have hfol : Follows (s g) (.top : Phase α) :=
    Follows.within (by rw [hph]; rfl) rfl (fun hd => by cases hd)
  have hmoved := (h.sound g).move hfol
  have hload : ({ s g with phase := .top } : Handler α).loaded := by
    show ((s g).bound && true) = true
    rw [hbound]
    rfl
  refine Inv.setHandler (g := g) h (h.born (by simp [hph])) rfl rfl rfl
    { hmoved with
      fresh := fun hl => by
        have hl' : ({ s g with phase := .top } : Handler α).loaded = false := hl
        rw [hload] at hl'
        cases hl' } rfl (subset_rfl) hfol.loaded ?_
  simp only [holdings, hph, pending, List.map_append, List.append_nil, ← coe_add]
  ac_rfl

/-- The connection after a message has been taken out of its lane or batch. -/
def Handler.without (h : Handler α) (contents held : List (Message α)) (phase : Phase α) :
    Handler α :=
  { h with lane := { h.lane with contents }, held, phase }

/-- A loaded connection whose window has changed, and with it the records. -/
theorem Sound.setWindow {registered : Option Nat} {epoch : Nat} {records records' : Records α}
    {h : Handler α} (hs : Sound registered epoch records g h) (hload : h.loaded) {phase : Phase α}
    (hfol : Follows h phase) {outbound : Outbound α} (htrk : outbound.Tracked records')
    (hcov : phase.working → outbound.Covers records') {sends : List Delivery}
    (hsends : outbound.unackedLine.Sublist sends) {contents held : List (Message α)} :
    Sound registered epoch records' g { h.without contents held phase with outbound, sends } where
  attached := (hs.move hfol).attached
  owner := (hs.move hfol).owner
  epoch := (hs.move hfol).epoch
  unregistered := (hs.move hfol).unregistered
  bound := hfol.delivering
  starting := hfol.starting
  tracked _ := htrk
  covers _ := hcov
  fresh hl := by
    have hl' : ({ h with phase } : Handler α).loaded = false := hl
    rw [hfol.loaded, hload] at hl'
    cases hl'
  emptied hph := by
    -- a loaded connection has not handed back
    have hph' := hfol.handedBack hph
    have hserv := (and_eq_true_iff.mp hload).2
    cases hp : h.phase <;> rw [hp] at hserv hph' <;> cases hserv <;> cases hph'
  closed := hfol.closing
  sends := hsends

theorem Inv.setWindow (h : Inv s) (hborn : g < s.nextGeneration) (hload : (s g).loaded)
    {phase : Phase α} (hfol : Follows (s g) phase) {outbound : Outbound α} {records : Records α}
    (htrk : outbound.Tracked records) (hcov : phase.working → outbound.Covers records)
    {sends : List Delivery} (hsends : outbound.unackedLine.Sublist sends)
    {contents held : List (Message α)} {history : History}
    (hacc : history.accepted = s.history.accepted)
    (hbal : history.finished + history.discarded +
        (((s g).without contents held phase).holdings + records.deliveries) =
      s.history.finished + s.history.discarded +
        ((s g).holdings + s.records.deliveries)) :
    Inv { s.setHandler g { (s g).without contents held phase with outbound, sends } with
      records, history } := by
  have hstill : ({ (s g).without contents held phase with outbound, sends } :
      Handler α).loaded = true := hfol.loaded.trans hload
  refine @Inv.advance α s g h hborn s.queue records history _ rfl rfl
    ((h.sound g).setWindow hload hfol htrk hcov hsends) rfl
    ⟨subset_rfl, .inr hload, fun _ => .inl hload, fun hl => ?_, hacc, ?_⟩
  · rw [hstill] at hl
    cases hl
  · have hhldg : ({ (s g).without contents held phase with outbound, sends } :
        Handler α).holdings = ((s g).without contents held phase).holdings := rfl
    rw [hhldg]
    ext d
    have hcount := congrArg (Multiset.count d) hbal
    simp only [Multiset.count_add] at hcount ⊢
    omega

/-- The steps that may write a PUBLISH, and the connection they write it on. -/
def Action.sender : Action α → Option Nat
  | .receive g _ | .next g _ | .sendNext g _ => some g
  | _ => none

/-- The connection sends the first message of its lane, or of its batch, and goes on with what
is left of both. -/
structure Picks [Publishable α] (s : State α) (a : Action α) (g : Nat) (m : Message α)
    (contents : List (Message α)) (phase : Phase α) : Prop where
  delivering : (s.handlers g).phase.delivering = true
  onward : phase.delivering = true
  sendable : Sendable (s.handlers g) (some m)
  next : ((∃ written, a = .receive g written ∨ a = .next g written) ∧
      (s.handlers g).lane.contents = m :: contents ∧ (s.handlers g).phase.pending = [] ∧
      phase.pending = []) ∨
    ((∃ written, a = .sendNext g written) ∧ (s.handlers g).beingDisplaced s.queue = false ∧
      (s.handlers g).lane.contents = contents ∧ (s.handlers g).phase.pending = m :: phase.pending)

theorem sendLane_picks [Publishable α] {left : Nat}
    (hlane : a = .receive g written ∨ a = .next g written) (hregl : Regular s a)
    (hdeliv : (s g).phase.delivering)
    (hpend : (s g).phase.pending = []) (hsend : s.sendLane g written left = some s') :
    ∃ m contents phase, Picks s a g m contents phase ∧
      s' = s.transmit g m written ((s g).without contents (s g).held phase)
        ((s g).without contents ((s g).held ++ phase.pending)
          (.leaving .closed)) := by
  have hsendb : Sendable (s g) (s g).lane.contents.head? := by
    rcases hlane with rfl | rfl <;> exact hregl
  unfold State.sendLane at hsend
  dsimp only at hsend
  split at hsend
  · cases hsend
  rename_i m rest hcont
  cases hsend
  rw [hcont] at hsendb
  refine ⟨m, rest, .laneBatch left, ⟨hdeliv, rfl, hsendb,
    .inl ⟨⟨written, hlane⟩, hcont, hpend, rfl⟩⟩, ?_⟩
  rw [show (laneBatch left : Phase α).pending = [] from rfl, List.append_nil]
  rfl

/-- A step that may send does so, unless the connection has been displaced and keeps the rest
of its batch. -/
theorem send_cases [Publishable α] (hregl : Regular s a)
    (hsender : a.sender = some g) (hact : act s a = some s') :
    (∃ m rest, (s g).phase = .sending (m :: rest) ∧
      (s g).beingDisplaced s.queue ∧ s' = s.setHandler g
        { s g with phase := .top, held := (s g).held ++ m :: rest }) ∨
    ∃ m contents phase written, Picks s a g m contents phase ∧
      s' = s.transmit g m written ((s g).without contents (s g).held phase)
        ((s g).without contents ((s g).held ++ phase.pending)
          (.leaving .closed)) := by
  cases a with
  | receive k written =>
    cases hsender
    dsimp only [act, State.receive] at hact
    split at hact
    · rename_i hph
      obtain ⟨m, contents, phase, hpicks⟩ := sendLane_picks (.inl rfl) hregl
        (by rw [hph]; exact or_true _) (by rw [hph]; rfl) hact
      exact .inr ⟨m, contents, phase, written, hpicks⟩
    · cases hact
  | next k written =>
    cases hsender
    dsimp only [act, State.next] at hact
    split at hact
    · rename_i hph
      split at hact
      · cases hact
      obtain ⟨m, contents, phase, hpicks⟩ := sendLane_picks (.inr rfl) hregl
        (by rw [hph]; rfl) (by rw [hph]; rfl) hact
      exact .inr ⟨m, contents, phase, written, hpicks⟩
    · cases hact
  | sendNext k written =>
    cases hsender
    dsimp only [act, State.sendNext] at hact
    split at hact
    · rename_i m rest hph
      split at hact
      · rename_i hdisp
        cases hact
        exact .inl ⟨m, rest, hph, hdisp, rfl⟩
      · rename_i hdisp
        cases hact
        rw [not_eq_true] at hdisp
        have hsendb := hregl hdisp
        rw [hph] at hsendb
        exact .inr ⟨m, _, .sent rest, written, ⟨by rw [hph]; rfl, rfl, hsendb,
          .inr ⟨⟨written, rfl⟩, hdisp, rfl, by rw [hph]; rfl⟩⟩, rfl⟩
    · cases hact
  | _ => cases hsender

theorem Picks.holdings [Publishable α] (h : Picks s a g m contents phase) {held : List (Message α)}
    {phase' : Phase α} (hrest : held ++ phase'.pending = (s g).held ++ phase.pending) :
    (s g).holdings =
      m.delivery ::ₘ ((s g).without contents held phase').holdings := by
  have hafter : ((s g).without contents held phase').holdings =
      ((contents ++ ((s g).held ++ phase.pending)).map delivery : List Delivery) := by
    rw [← hrest, ← List.append_assoc]
    rfl
  rw [hafter]
  unfold Handler.holdings
  rcases h.next with ⟨-, hcont, hpend, hnone⟩ | ⟨-, -, hcont, hpend⟩
  · rw [hcont, hpend, hnone]
    simp
  · rw [hcont, hpend]
    simp only [List.map_append, List.map_cons, ← coe_add, ← cons_coe, ← singleton_add]
    ac_rfl

theorem Inv.transmit [Publishable α] (h : Inv s)
    (hpicks : Picks s a g m contents phase) (written : Bool) :
    Inv (s.transmit g m written ((s g).without contents (s g).held phase)
      ((s g).without contents ((s g).held ++ phase.pending)
        (.leaving .closed))) := by
  have hwork := working_of_delivering hpicks.delivering
  have hborn : g < s.nextGeneration := h.born fun hidle => by
    rw [hidle] at hwork
    cases hwork
  have hload := h.loaded_of_delivering hpicks.delivering
  have hs := h.sound g
  have hon : Follows (s g) phase := Follows.within hwork
    (working_of_delivering hpicks.onward) fun _ => hs.bound hpicks.delivering
  have hoff : Follows (s g) (.leaving .closed) := Follows.leave hwork .closed
  have hcov := hs.covers hload hwork
  unfold State.transmit
  rcases sendPublish_spec (hs.tracked hload) hcov hpicks.sendable.1
      (hpicks.sendable.2 m rfl) with
    ⟨outbound, hsend, htrk, hcov', -, hunack⟩ |
    ⟨outbound, records, hsend, htrk, hcov', -, hunack, hdels⟩
  · -- too large for the client: only the packet identifier counter may have moved
    rw [hsend]
    dsimp only
    refine Inv.setWindow (g := g) h hborn hload hon htrk
      (fun _ => hcov') (hunack ▸ hs.sends) rfl ?_
    rw [hpicks.holdings rfl]
    simp only [← singleton_add]
    ac_rfl
  · have hsends : outbound.unackedLine.Sublist ((s g).sends ++ [m.delivery]) := by
      rw [hunack]
      exact hs.sends.append (List.Sublist.refl _)
    rw [hsend]
    dsimp only
    cases written with
    | true =>
      refine h.setWindow hborn hload hon htrk (fun _ => hcov') hsends ?_ ?_
      · unfold History.write
        split <;> rfl
      · have hbooks : (s.history.write m.delivery).finished = s.history.finished ∧
            (s.history.write m.delivery).discarded = s.history.discarded := by
          unfold History.write
          split <;> exact ⟨rfl, rfl⟩
        rw [hbooks.1, hbooks.2, hpicks.holdings rfl, hdels]
        simp only [← singleton_add]
        ac_rfl
    | false =>
      refine Inv.setWindow (g := g) h hborn hload hoff htrk
        (fun hw => by cases hw) hsends rfl ?_
      have hheld : (s g).holdings = m.delivery ::ₘ ((s g).without contents
          ((s g).held ++ phase.pending) (.leaving .closed)).holdings :=
        hpicks.holdings (List.append_nil _)
      rw [hheld, hdels]
      simp only [← singleton_add]
      ac_rfl

theorem Inv.send [Publishable α] (h : Inv s) (hregl : Regular s a)
    (hsender : a.sender = some g) (hact : act s a = some s') : Inv s' := by
  rcases send_cases hregl hsender hact with
    ⟨m, rest, hph, -, rfl⟩ | ⟨m, contents, phase, written, hpicks, rfl⟩
  · exact h.hold hph
  · exact h.transmit hpicks written

/-- An acknowledgement, given what it does to the window. -/
theorem Inv.settled (h : Inv s) (hph : (s g).phase = .selecting delivering windowOpen)
    (written : Bool) {result : Option (Message α) × Outbound α × Records α}
    (hunl : (s g).loaded = false → result = (none, (s g).outbound, s.records))
    (hwin : (s g).loaded → (s g).outbound.Settles s.records result) :
    Inv (s.settled g written result) := by
  have hwork : (s g).phase.working := by rw [hph]; rfl
  have hborn : g < s.nextGeneration := h.born (by simp [hph])
  have hfol := Follows.onWrite hwork written
  have hhldg : ((s g).without (s g).lane.contents (s g).held
      (if written then .top else .leaving .closed)).holdings = (s g).holdings := by
    cases written <;> simp [holdings, without, hph, pending]
  cases hload : (s g).loaded with
  | false =>
    rw [hunl hload]
    refine @Inv.advance α s g h hborn s.queue s.records
      { s.history with
        finished := ((none : Option (Message α)).map delivery).toList +
          s.history.finished } _ rfl rfl ((h.sound g).move hfol) rfl
      ⟨subset_rfl, .inl rfl, fun hl => .inl (hfol.loaded ▸ hl), fun _ hl => ?_, rfl, ?_⟩
    · rw [hload] at hl
      cases hl
    · have hsame : ({ s g with phase := if written then .top else .leaving .closed } :
          Handler α).holdings = (s g).holdings := hhldg
      rw [hsame]
      simp
  | true =>
    have hsettles := hwin hload
    have hcov := hsettles.covers ((h.sound g).covers hload (by rw [hph]; rfl))
    refine Inv.setWindow (g := g) h hborn hload hfol hsettles.tracked
      (fun _ => hcov) (hsettles.unacked.trans (h.sound g).sends) rfl ?_
    rw [hhldg, hsettles.deliveries]
    show _ + s.history.finished + s.history.discarded + _ = _
    ac_rfl

/-- Without a loaded window there is nothing to acknowledge. -/
theorem Inv.lookup_unloaded (h : Inv s) (hload : (s g).loaded = false) (id : UInt16) :
    (s g).outbound.inflight.lookup id = none := by
  rw [((h.sound g).fresh hload).1.inflight]
  rfl

theorem Inv.loaded_of_lookup (h : Inv s) (hlook : (s g).outbound.inflight.lookup id = some m) :
    (s g).loaded := by
  by_contra hload
  cases (h.lookup_unloaded (eq_false_of_ne_true hload) id).symm.trans hlook

/-- The steps in which the client acknowledges a message. -/
def Action.acknowledges : Action α → Option (Nat × UInt16)
  | .puback g id | .pubcomp g id | .pubrec g id _ _ => some (g, id)
  | _ => none

theorem ack_cases [Publishable α] (hregl : Regular s a)
    (hack : a.acknowledges = some (g, id)) (hact : act s a = some s') :
    ∃ delivering windowOpen, (s g).phase = .selecting delivering windowOpen ∧
      (((∀ written, a ≠ .pubrec g id false written) ∧
          s' = s.settled g true ((s g).outbound.complete s.records id)) ∨
        ∃ written, a = .pubrec g id false written ∧
          s' = s.settled g written ((s g).outbound.handlePubrec s.records id false)) := by
  cases a with
  | puback k id' =>
    cases hack
    dsimp only [act] at hact
    obtain ⟨delivering, windowOpen, hph, rfl⟩ := inLoop_cases hact
    rw [handlePuback_eq_complete hregl]
    exact ⟨delivering, windowOpen, hph, .inl ⟨nofun, rfl⟩⟩
  | pubcomp k id' =>
    cases hack
    dsimp only [act] at hact
    obtain ⟨delivering, windowOpen, hph, rfl⟩ := inLoop_cases hact
    exact ⟨delivering, windowOpen, hph, .inl ⟨nofun, rfl⟩⟩
  | pubrec k id' error written =>
    cases hack
    dsimp only [act] at hact
    obtain ⟨delivering, windowOpen, hph, rfl⟩ := inLoop_cases hact
    cases error with
    | true => exact ⟨delivering, windowOpen, hph, .inl ⟨nofun, rfl⟩⟩
    | false => exact ⟨delivering, windowOpen, hph, .inr ⟨written, rfl, rfl⟩⟩
  | _ => cases hack

theorem Inv.ack [Publishable α] (h : Inv s) (hregl : Regular s a)
    (hack : a.acknowledges = some (g, id)) (hact : act s a = some s') : Inv s' := by
  obtain ⟨_, _, hph, ⟨-, rfl⟩ | ⟨written, -, rfl⟩⟩ := ack_cases hregl hack hact
  · exact h.settled hph true (fun hl => complete_unknown (h.lookup_unloaded hl id))
      fun hl => ((h.sound g).tracked hl).settles_complete id
  · exact h.settled hph written (fun hl => handlePubrec_unknown (h.lookup_unloaded hl id))
      fun hl => ((h.sound g).tracked hl).settles_handlePubrec id

/-! ## Handing back and binding -/

theorem Handler.unsent_deliveries (h : Handler α) :
    h.unsent.map delivery =
      h.outbound.unacked.map (fun e => e.2.delivery) ++ h.held.map delivery ++
        h.lane.contents.map delivery := by
  simp [unsent, comp_def]

/-- What `requeue_unsent` does: everything the connection still owns is at the front of the
queue. -/
theorem Inv.requeue_cases [Publishable α] (h : Inv s) (hregl : Regular s (.requeue g))
    (hreq : s.requeue g = some s') :
    ∃ exit, ∃ queue : ClientQueue (Message α), (s g).phase = .closing exit ∧
      (s g).lane.permits = ∅ ∧
      queue.messages = (s g).unsent ++ s.queue.messages ∧
      queue.epoch = s.queue.epoch ∧ queue.handoffs = s.queue.handoffs ∧
      s' = State.setHandler { s with
          queue
          records := s.records.without ((s g).outbound.unacked.map Prod.fst) } g
        { s g with
          outbound := (s g).outbound.emptied
          held := []
          lane := { (s g).lane with contents := [] }
          phase := .requeued exit } := by
  unfold State.requeue at hreq
  dsimp only at hreq
  split at hreq
  · rename_i exit hph
    split at hreq
    · cases hreq
    rename_i hperm
    cases hreq
    have hepoch := (h.sound g).epoch (by rw [hph]; rfl)
    exact ⟨exit, _, hph, by simpa using hperm,
      messages_requeueFrontInEpoch hepoch.symm hregl, by simp, by simp, rfl⟩
  · cases hreq

/-- Without a window there is nothing in it to hand back. -/
theorem Sound.unacked_nil (hs : Sound registered epoch records g h)
    (hload : h.loaded = false) : h.outbound.unacked = [] := by
  unfold unacked
  rw [(hs.fresh hload).1.order]
  rfl

theorem Inv.requeue [Publishable α] (h : Inv s) (hregl : Regular s (.requeue g))
    (hreq : s.requeue g = some s') : Inv s' := by
  obtain ⟨exit, queue, hph, hperm, hmsgs, hqueueEpoch, hoffs, rfl⟩ := h.requeue_cases hregl hreq
  have hs := h.sound g
  have hepoch := hs.epoch (by rw [hph]; rfl)
  have hemp : Outbound.Fresh (s g).outbound.emptied := by
    cases hload : (s g).loaded with
    | true => exact (hs.tracked hload).emptied
    | false => exact ⟨rfl, rfl, rfl, (hs.fresh hload).1.next⟩
  -- the window, its records and what goes back to the queue
  have hwin : s.records.deliveries =
      (((s g).outbound.unacked.map fun e => e.2.delivery : List Delivery) :
        Multiset Delivery) +
      (s.records.without ((s g).outbound.unacked.map Prod.fst)).deliveries := by
    cases hload : (s g).loaded with
    | true =>
      have htrk := hs.tracked hload
      rw [htrk.unacked_deliveries]
      exact htrk.deliveries_requeued
    | false =>
      rw [hs.unacked_nil hload]
      simp [Records.without]
  refine Inv.advance (g := g) h (h.born (by simp [hph])) hqueueEpoch hoffs
    ?_ rfl ⟨subset_rfl, ?_, fun hl => ?_, fun _ hl => ?_, rfl, ?_⟩
  · refine ⟨(fun hp => by cases hp), fun hreg => ⟨(hs.owner hreg).1, rfl⟩, fun _ => hepoch,
      (fun hp => by cases hp), (fun hp => by cases hp), ?_, ?_, ?_, fun _ => ⟨hemp, rfl⟩,
      fun _ => ?_, ?_, ?_⟩
    · rintro (hp | hp) <;> cases hp
    iterate 2 exact fun hl => absurd hl (by simp [loaded, serving, working])
    · exact ⟨hs.closed exit hph, rfl, hperm⟩
    · intro _ hp
      cases hp
    · exact List.nil_sublist _
  · cases hload : (s g).loaded with
    | true => exact .inr rfl
    | false =>
      rw [hs.unacked_nil hload]
      exact .inl rfl
  · exact absurd hl (by simp [loaded, serving, working])
  · exact fun id _ => (hs.tracked hl).phase_requeued
  · rw [hmsgs, hwin, List.map_append, unsent_deliveries]
    simp only [holdings, hph, pending, List.map_append, List.append_nil,
      ← coe_add, List.map_nil, coe_nil, add_zero]
    ac_rfl

/-- While no hand-off is pending, nobody but the registered connection has anything. -/
theorem Inv.notice_false (h : Inv s) (hoffs : s.queue.handoffs = 0) (k : Nat) :
    (s k).notice = false := by
  by_cases hk : k < s.nextGeneration
  · have hsum := h.notices
    rw [hoffs] at hsum
    have hzero := (Finset.sum_eq_zero_iff.mp hsum.symm) k (Finset.mem_range.mpr hk)
    simpa using hzero
  · rw [h.unborn k (by omega)]

theorem Handler.attached_of_loaded (hload : h.loaded) : h.phase.attached := by
  have hserv := (and_eq_true_iff.mp hload).2
  cases hph : h.phase <;> rw [hph] at hserv <;> first | rfl | cases hserv

/-- A connection that binds when no hand-off is pending finds nobody else loaded. -/
theorem Inv.none_loaded (h : Inv s) (hoffs : s.queue.handoffs = 0) (hatt : (s g).phase.attached)
    (hbound : (s g).bound = false) (k : Nat) : (s k).loaded = false := by
  rw [← not_eq_true]
  intro hload
  have hregistered : ∀ k, (s k).phase.attached → s.registered = some k := by
    intro k hk
    rcases (h.sound k).attached hk with hnote | hreg
    · rw [h.notice_false hoffs k] at hnote
      cases hnote
    · exact hreg
  have hsame : k = g := by
    have hk := hregistered k (attached_of_loaded hload)
    rw [hregistered g hatt] at hk
    exact (some.inj hk).symm
  subst hsame
  have hloadedbound := (and_eq_true_iff.mp hload).1
  rw [hbound] at hloadedbound
  cases hloadedbound

/-- A connection binds with some of the records in its window. -/
theorem Inv.load (h : Inv s) (hph : (s g).phase.attached) (hunb : (s g).bound = false)
    (hoffs : s.queue.handoffs = 0) (hents : queue.entries = s.queue.entries)
    (hepoch : queue.epoch = s.queue.epoch) (hoffs' : queue.handoffs = s.queue.handoffs)
    {outbound : Outbound α} (htrk : outbound.Tracked s.records) (hunack : outbound.unackedLine = [])
    (hpend : (s g).phase.pending = [])
    (hnew : phase = .top ∧ outbound.Covers s.records ∨ phase = .leaving .closed) {baseline : Nat} :
    Inv (State.setHandler { s with queue } g
      { s g with bound := true, waived, baseline, outbound, phase }) := by
  have hs := h.sound g
  have hborn : g < s.nextGeneration := h.born fun hidle => by
    rw [hidle] at hph
    cases hph
  have hregistered : (s g).phase.registered := by
    cases hp : (s g).phase <;> rw [hp] at hph <;> first | rfl | cases hph
  have hshape : phase.registered = true ∧ phase.serving = true ∧ phase.delivering = false ∧
      phase.handedBack = false ∧ phase.pending = [] := by
    rcases hnew with ⟨rfl, -⟩ | rfl <;> exact ⟨rfl, rfl, rfl, rfl, rfl⟩
  have hmsgs : queue.messages = s.queue.messages := by
    unfold messages
    rw [hents]
  have hload : ({ s g with bound := true, waived, baseline, outbound, phase } :
      Handler α).loaded = true := by
    show (true && phase.serving) = true
    rw [hshape.2.1]
    rfl
  refine Inv.advance (g := g) h hborn hepoch hoffs'
    ⟨fun _ => hs.attached hph, fun hreg => ⟨(hs.owner hreg).1, hshape.1⟩,
      fun _ => hs.epoch hregistered, fun hp => ?_, fun _ => rfl, fun hp => ?_,
      fun _ => htrk, fun _ hw => ?_, fun hl => ?_, fun hp => ?_, fun _ hp => ?_, ?_⟩
    rfl ⟨subset_rfl, .inl rfl,
      fun _ => .inr (h.none_loaded hoffs hph hunb), fun hl => ?_, rfl, ?_⟩
  · rw [hshape.1] at hp
    cases hp
  · rcases hnew with ⟨rfl, -⟩ | rfl <;> rcases hp with hp | hp <;> cases hp
  · rcases hnew with ⟨-, hcov⟩ | rfl
    · exact hcov
    · cases hw
  · rw [hload] at hl
    cases hl
  · rw [hshape.2.2.2.1] at hp
    cases hp
  · rcases hnew with ⟨rfl, -⟩ | rfl <;> cases hp
  · rw [hunack]
    exact List.nil_sublist _
  · rw [hload] at hl
    cases hl
  · rw [hmsgs]
    simp only [holdings, hshape.2.2.2.2, hpend]

theorem Inv.mayBind_cases (h : Inv s) (hrdy : (s g).mayBind queue false) :
    ((s g).phase = .starting ∨
      ∃ delivering windowOpen, (s g).phase = .selecting delivering windowOpen) ∧
    (s g).bound = false := by
  unfold mayBind at hrdy
  split at hrdy
  · rename_i hph
    exact ⟨.inl hph, (h.sound g).starting (.inr hph)⟩
  · rename_i delivering windowOpen hph
    rw [and_eq_true, not_eq_true'] at hrdy
    exact ⟨.inr ⟨delivering, windowOpen, hph⟩, hrdy.1⟩
  · cases hrdy

/-- `bind` loads the records that wait for PUBCOMP, all of them unless a PUBREL could not be
written. -/
theorem Inv.bind_cases [Publishable α] (h : Inv s)
    (hregl : Regular s (.bind g waived sorted unwritten))
    (hbind : s.bind g waived sorted unwritten = some s') :
    (s g).phase.attached ∧ (s g).phase.pending = [] ∧
      (s g).bound = false ∧ s.queue.handoffs = 0 ∧
      ∃ (queue : ClientQueue (Message α)) (outbound : Outbound α) (phase : Phase α),
        queue.entries = s.queue.entries ∧ queue.epoch = s.queue.epoch ∧
        queue.handoffs = s.queue.handoffs ∧ outbound.Tracked s.records ∧
        outbound.unackedLine = [] ∧ (∀ d ∈ outbound.line, d ∈ s.records.deliveries) ∧
        (phase = .top ∧ outbound.Covers s.records ∨ phase = .leaving .closed) ∧
        s' = State.setHandler { s with queue } g
          { s g with
            bound := true
            waived := false
            baseline := s.queue.handoffs
            outbound
            phase } := by
  obtain ⟨rfl, hoffs, hlists⟩ := hregl
  unfold State.bind at hbind
  dsimp only at hbind
  split at hbind
  · cases hbind
  rename_i hrdy
  rw [not_eq_true, not_eq_false'] at hrdy
  obtain ⟨hph, hunb⟩ := h.mayBind_cases hrdy
  have hatt : (s g).phase.attached := by
    rcases hph with hp | ⟨_, _, hp⟩ <;> rw [hp] <;> rfl
  have hpend : (s g).phase.pending = [] := by
    rcases hph with hp | ⟨_, _, hp⟩ <;> rw [hp] <;> rfl
  have hnone := h.none_loaded hoffs hatt hunb
  have hfresh := ((h.sound g).fresh (hnone g)).1
  have hparked := h.parked hnone
  refine ⟨hatt, hpend, hunb, hoffs, ?_⟩
  rw [if_neg (by decide)] at hbind
  split at hbind
  · rename_i looked
    have hsub : (sorted.take looked).Sublist sorted := List.take_sublist _ _
    obtain ⟨outbound, hload, htrk, hunack, hline, -⟩ := hfresh.load
      ((hsub.map Prod.fst).nodup hlists.nodup)
      (fun e hmem => (hlists.mem e.1 e.2).mp (hsub.subset hmem)) hparked
    rw [hload] at hbind
    cases hbind
    exact ⟨s.queue, outbound, _, rfl, rfl, rfl, htrk, hunack, hline, .inr rfl, rfl⟩
  · obtain ⟨outbound, hload, htrk, hunack, hline, hcov⟩ := hfresh.load hlists.nodup
      (fun e hmem => (hlists.mem e.1 e.2).mp hmem) hparked
    unfold loadPersistedInflight at hbind
    rw [hload] at hbind
    cases hbind
    have hall := hcov fun id record hlook => (hlists.mem id record).mpr hlook
    exact ⟨s.queue.markBound g, outbound.advancePacketIdPastInflight, .top, by simp, by simp,
      by simp, htrk.advance, hunack, hline, .inl ⟨rfl, hall⟩, rfl⟩

theorem Inv.bind [Publishable α] (h : Inv s) (hregl : Regular s (.bind g waived sorted unwritten))
    (hbind : s.bind g waived sorted unwritten = some s') : Inv s' := by
  obtain ⟨hatt, hpend, hunb, hoffs, _, _, _, hents, hepoch,
    hoffs', htrk, hunack, -, hnew, rfl⟩ := h.bind_cases hregl hbind
  exact h.load hatt hunb hoffs hents hepoch hoffs' htrk hunack hpend hnew

/-! ## Connections come and go -/

theorem Inv.expect (h : Inv s) (capacity window drainBatch : Nat) (maxPacketSize : Option Nat) :
    Inv (s.expect capacity window drainBatch maxPacketSize) := by
  have hunborn := h.unborn s.nextGeneration (Nat.le_refl _)
  have hfree : s.registered ≠ some s.nextGeneration := by
    intro hreg
    have hph := ((h.sound s.nextGeneration).owner hreg).2
    rw [hunborn] at hph
    cases hph
  -- the other connections are untouched, and the new one has nothing
  have hhs : (s.expect capacity window drainBatch maxPacketSize).handlers =
      update s.handlers s.nextGeneration
        { phase := .expecting
          lane := { capacity }
          outbound := { maxPacketSize }
          window := max window 1
          drainBatch } := rfl
  have hnew := congrFun hhs s.nextGeneration
  rw [update_self] at hnew
  have hoth : ∀ k, k ≠ s.nextGeneration →
      (s.expect capacity window drainBatch maxPacketSize).handlers k = s k := fun k hk =>
    update_of_ne hk _ _
  have hlt : ∀ k ∈ Finset.range s.nextGeneration, k ≠ s.nextGeneration := fun k hk => by
    have := Finset.mem_range.mp hk
    omega
  refine ⟨?_, fun k hk => ?_, ?_, fun k₁ k₂ h₁ h₂ => ?_, fun hnone => ?_, fun p => ?_,
    h.numbered, h.nodup, ?_⟩
  · refine forall_update hhs ?_ fun k _ => h.sound k
    have hdefault := sound_default s.registered s.queue.epoch s.records hfree
    exact
      { hdefault with
        starting := fun _ => rfl
        tracked := fun hl => by cases hl
        covers := fun hl => by cases hl
        fresh := fun _ => ⟨⟨rfl, rfl, rfl, (fresh_default (α := α)).next⟩, rfl⟩
        closed := fun _ hp => by cases hp
        sends := List.nil_sublist _ }
  · have hk' : s.nextGeneration + 1 ≤ k := hk
    rw [hoth k (by omega)]
    exact h.unborn k (by omega)
  · show s.queue.handoffs = ∑ k ∈ Finset.range (s.nextGeneration + 1), _
    rw [Finset.sum_range_succ, hnew, h.notices]
    exact Finset.sum_congr rfl fun k hk => by rw [hoth k (hlt k hk)]
  · have hback : ∀ k, ((s.expect capacity window drainBatch maxPacketSize).handlers k).loaded =
        true → (s k).loaded = true := by
      exact forall_update hhs nofun fun _ _ hk => hk
    exact h.single k₁ k₂ (hback k₁ h₁) (hback k₂ h₂)
  · refine h.parked fun k => ?_
    by_cases hkg : k = s.nextGeneration
    · subst hkg
      rw [hunborn]
      rfl
    · rw [← hoth k hkg]
      exact hnone k
  · refine (h.staged p).mono rfl rfl (Nat.le_succ _) fun k hk hmem => ?_
    rw [hoth k (by omega)]
    exact hmem
  · show s.history.accepted = s.history.finished + s.history.discarded +
      ((s.queue.messages.map delivery : List Delivery) +
        ∑ k ∈ range (s.nextGeneration + 1), _ + s.records.deliveries)
    rw [h.ledger, sum_range_succ, hnew]
    have hsum : ∑ k ∈ Finset.range s.nextGeneration,
        ((s.expect capacity window drainBatch maxPacketSize).handlers k).holdings =
        ∑ k ∈ Finset.range s.nextGeneration, (s k).holdings :=
      Finset.sum_congr rfl fun k hk => by rw [hoth k (hlt k hk)]
    rw [hsum]
    show _ = _ + (_ + (_ + (0 : Multiset Delivery)) + _)
    rw [add_zero]
    rfl

theorem Sound.setNotice (hs : Sound registered epoch records g h) (hnot : registered ≠ some g)
    {notice : Bool} (hatt : h.phase.attached → notice) (hregistered : h.phase.registered) :
    Sound registered epoch records g { h with notice } :=
  { hs with
    attached := fun hp => .inl (hatt hp)
    owner := fun hreg => absurd hreg hnot
    unregistered := fun hp => by
      have hp' : h.phase.registered = false := hp
      rw [hregistered] at hp'
      cases hp' }

/-- `register_session_as`, for the connection that is displaced: it has a notice, and the
entry is free for a moment. -/
theorem Inv.displace (h : Inv s) {old : Nat} (hreg : s.registered = some old) :
    Inv (State.setHandler { s with queue := s.queue.beginHandoff, registered := none } old
      { s.handlers old with notice := true }) := by
  have hown := (h.sound old).owner hreg
  have hborn := h.born_of_registered hreg
  refine h.reown hborn rfl rfl ?_ (.inr fun k hk => ⟨?_, by simp⟩) ?_ (subset_rfl) rfl
    rfl
  · rw [hown.1]
    rfl
  · rw [hreg]
    exact fun heq => hk (some.inj heq).symm
  · have hs := h.sound old
    exact
      { hs with
        attached := fun _ => .inl rfl
        owner := fun hr => by cases hr
        unregistered := fun hp => by
          have hp' : (s.handlers old).phase.registered = false := hp
          rw [hown.2] at hp'
          cases hp' }

/-- `register_session_as`, for the connection that registers. -/
theorem Inv.install (h : Inv s) (hreg : s.registered = none)
    (hph : (s g).phase = .expecting) (predecessor : Bool) :
    Inv (State.setHandler { s with registered := some g } g
      { s g with phase := .connecting, predecessor, epoch := s.queue.epoch }) := by
  have hs := h.sound g
  have hunreg := hs.unregistered (by rw [hph]; rfl)
  have hunl : (s g).loaded = false := by
    unfold loaded
    rw [hunreg.2]
    rfl
  refine Inv.reown (g := g) h (h.born (by simp [hph])) rfl rfl rfl
    (.inr fun k hk => ⟨by simp [hreg], fun heq => hk (some.inj heq).symm⟩) ?_
    (subset_rfl) ?_ ?_
  · exact
      { hs with
        attached := fun _ => .inr rfl
        owner := fun _ => ⟨hunreg.1, rfl⟩
        epoch := fun _ => rfl
        unregistered := fun hp => by cases hp
        bound := fun hp => by cases hp
        starting := fun _ => hunreg.2
        tracked := fun hl => absurd hl (by simp [loaded, serving, working])
        covers := fun hl => absurd hl (by simp [loaded, serving, working])
        fresh := fun _ => hs.fresh hunl
        emptied := fun hp => by cases hp
        closed := fun _ hp => by cases hp }
  · rw [hunl]
    simp [loaded, serving, working]
  · simp [holdings, hph, pending]

theorem Inv.register_cases (h : Inv s) (hregs : s.register g = some s') :
    ∃ (t : State α) (predecessor : Bool),
      (t = s ∨ ∃ old, s.registered = some old ∧
        t = State.setHandler { s with queue := s.queue.beginHandoff, registered := none } old
          { s.handlers old with notice := true }) ∧
      t.registered = none ∧ (t.handlers g).phase = .expecting ∧
      s' = State.setHandler { t with registered := some g } g
        { t.handlers g with phase := .connecting, predecessor, epoch := t.queue.epoch } := by
  unfold State.register at hregs
  dsimp only at hregs
  split at hregs
  · rename_i hph
    cases hregs
    cases hreg : s.registered with
    | none => exact ⟨s, false, .inl rfl, hreg, hph, rfl⟩
    | some old =>
      have hne : g ≠ old := by
        rintro rfl
        have hown := ((h.sound g).owner hreg).2
        rw [hph] at hown
        cases hown
      have hkept : (State.setHandler { s with queue := s.queue.beginHandoff, registered := none }
          old { s.handlers old with notice := true }).handlers g = s g :=
        update_of_ne hne _ _
      refine ⟨_, true, .inr ⟨old, rfl, rfl⟩, rfl, ?_, ?_⟩
      · rw [hkept]
        exact hph
      · rw [hkept]
        rfl
  · cases hregs

theorem Inv.register (h : Inv s) (hregs : s.register g = some s') : Inv s' := by
  obtain ⟨t, predecessor, hdisp, hfree, hph, rfl⟩ := h.register_cases hregs
  have ht : Inv t := by
    rcases hdisp with rfl | ⟨_, hreg, rfl⟩
    · exact h
    · exact h.displace hreg
  exact ht.install hfree hph predecessor

theorem release_cases (hrel : s.release g = some s') :
    Stays s g s' ∨ ∃ exit, s.registered = some g ∧
      (s g).phase.pending = [] ∧ (s g).phase ≠ .idle ∧
      (s g).phase.attached = false ∧
      Follows (s g) (.released exit .owned) ∧
      s' = State.setHandler { s with registered := none } g
        { s g with phase := .released exit .owned } := by
  obtain ⟨exit, hexit, rfl⟩ := map_eq_some_iff.mp hrel
  have hph : (s g).phase = .releasing exit ∨
      ((s g).phase = .requeued .closed ∧ exit = .closed) := by
    split at hexit
    · rename_i hp
      cases hexit
      exact .inl hp
    · rename_i hp
      cases hexit
      exact .inr ⟨hp, rfl⟩
    · cases hexit
  have hfol : ∀ release, Follows (s g) (.released exit release) := by
    intro release
    rcases hph with hp | ⟨hp, rfl⟩ <;>
      constructor <;> simp [hp, attached, serving, working, registered,
        delivering, handedBack, loaded]
  have hpend : (s g).phase.pending = [] := by
    rcases hph with hp | ⟨hp, -⟩ <;> rw [hp] <;> rfl
  have hidle : (s g).phase ≠ .idle := by
    rcases hph with hp | ⟨hp, -⟩ <;> rw [hp] <;> simp
  have hatt : (s g).phase.attached = false := by
    rcases hph with hp | ⟨hp, -⟩ <;> rw [hp] <;> rfl
  split
  · rename_i hreg
    exact .inr ⟨exit, hreg, hpend, hidle, hatt, hfol .owned, rfl⟩
  · refine .inl (Stays.intro s.queue _ hidle (hfol .displaced) ?_ (fun hd => by cases hd)
      rfl rfl rfl)
    rw [hpend]
    rfl

theorem Inv.release (h : Inv s) (hrel : s.release g = some s') : Inv s' := by
  rcases release_cases hrel with
    hstays | ⟨exit, hreg, hpend, hidle, -, hfol, rfl⟩
  · exact h.moves hstays.1
  · have hmoved := (h.sound g).move hfol
    refine Inv.reown (g := g) h (h.born hidle) rfl rfl rfl
      (.inr fun k hk => ⟨?_, by simp⟩) ?_ (subset_rfl) hfol.loaded ?_
    · rw [hreg]
      exact fun heq => hk (some.inj heq).symm
    · exact
        { hmoved with
          attached := fun hp => by cases hp
          owner := fun hr => by cases hr }
    · have hnone : (released exit Release.owned : Phase α).pending = [] := rfl
      simp only [holdings, hpend, hnone]

/-- A connection that has handed back goes on, and drops the guard of a notice it has. -/
structure Answering (s : State α) (g : Nat) (queue : ClientQueue (Message α)) (h' : Handler α) :
    Prop where
  busy : (s.handlers g).phase ≠ .idle
  entries : queue.entries = s.queue.entries
  epoch : queue.epoch = s.queue.epoch
  handoffs : queue.handoffs = s.queue.handoffs
  sound : Sound s.registered s.queue.epoch s.records g h'
  unattached : h'.phase.attached = false
  registered : h'.phase.registered = true
  notice : h'.notice = (s.handlers g).notice
  permits : (s.handlers g).lane.permits ⊆ h'.lane.permits
  loaded : h'.loaded = (s.handlers g).loaded
  holdings : h'.holdings = (s.handlers g).holdings

/-- The take-over notice is answered. -/
theorem Inv.answered (h : Inv s) {h' : Handler α}
    (ha : Answering s g queue h') : Inv (State.answered { s with queue } g h') := by
  have hborn := h.born ha.busy
  unfold State.answered
  split
  · rename_i hpend
    have hnotowner : s.registered ≠ some g := by
      intro hreg
      have hown := (ha.sound.owner hreg).1
      rw [hpend] at hown
      cases hown
    have hcount : 1 ≤ s.queue.handoffs := by
      have hterm := single_le_sum (f := fun k => (s k).notice.toNat)
        (fun k _ => Nat.zero_le _) (mem_range.mpr hborn)
      rw [← h.notices, ← ha.notice, hpend] at hterm
      exact hterm
    refine Inv.reown (g := g) h hborn ha.entries ha.epoch ?_ (.inl rfl)
      (ha.sound.setNotice hnotowner ?_ ha.registered) ha.permits ha.loaded ha.holdings
    · show queue.handoffs - 1 + _ = s.queue.handoffs + 0
      rw [← ha.notice, hpend, ha.handoffs]
      show s.queue.handoffs - 1 + 1 = s.queue.handoffs + 0
      omega
    · intro hp
      rw [ha.unattached] at hp
      cases hp
  · exact h.setHandler hborn ha.entries ha.epoch ha.handoffs ha.sound ha.notice ha.permits
      ha.loaded ha.holdings

theorem Inv.endHandoff_cases (h : Inv s) (hend : s.endHandoff g = some s') :
    ∃ queue h', Answering s g queue h' ∧ s' = State.answered { s with queue } g h' := by
  unfold State.endHandoff at hend
  dsimp only at hend
  split at hend
  · rename_i hph
    cases hend
    have hfol : Follows (s g) (.releasing .takenOver) := by
      constructor <;> simp [hph, attached, serving, working,
        registered, delivering, handedBack, loaded]
    refine ⟨s.queue, { s g with phase := .releasing .takenOver },
      ⟨by simp [hph], rfl, rfl, rfl, (h.sound g).move hfol, rfl, rfl, rfl,
      subset_rfl, hfol.loaded, ?_⟩, rfl⟩
    simp [holdings, hph, pending]
  · cases hend

theorem Inv.finish_cases [Publishable α] (h : Inv s) (hregl : Regular s (.finish g))
    (hfin : s.finish g = some s') :
    Stays s g s' ∨
      ∃ queue h', Answering s g queue h' ∧ s' = State.answered { s with queue } g h' := by
  unfold State.finish at hfin
  dsimp only at hfin
  split at hfin
  · rename_i release hph
    cases hfin
    refine .inl (Stays.intro s.queue _ (by simp [hph]) ?_ (by rw [hph]; rfl)
      (fun hd => by cases hd) rfl rfl rfl)
    constructor <;> simp [hph, attached, serving, working,
      registered, delivering, handedBack, loaded]
  · rename_i release hph
    cases hfin
    have hfol : Follows (s g) (.gone : Phase α) := by
      constructor <;> simp [hph, attached, serving, working,
        registered, delivering, handedBack, loaded]
    refine .inr ⟨s.queue.finishDrain, { s g with phase := .gone }, ⟨by simp [hph], rfl, rfl, rfl,
      (h.sound g).move hfol, rfl, rfl, rfl, subset_rfl, hfol.loaded, ?_⟩, rfl⟩
    simp [holdings, hph, pending]
  · rename_i release hph
    cases hfin
    obtain ⟨hcont, hperm⟩ := hregl release hph
    have hs := h.sound g
    have hunl : (s g).loaded = false := by
      simp [loaded, hph, serving, working]
    refine .inr ⟨s.queue,
      { s g with
        phase := .gone
        lane := { (s g).lane with contents := [], closed := true } },
      ⟨by simp [hph], rfl, rfl, rfl, ?_, rfl, rfl, rfl,
      subset_rfl, ?_, ?_⟩, rfl⟩
    · exact
        { hs with
          attached := fun hp => by cases hp
          owner := fun hreg => ⟨(hs.owner hreg).1, rfl⟩
          epoch := fun _ => hs.epoch (by rw [hph]; rfl)
          unregistered := fun hp => by cases hp
          bound := fun hp => by cases hp
          starting := by rintro (hp | hp) <;> cases hp
          tracked := fun hl => absurd hl (by simp [loaded, serving, working])
          covers := fun hl => absurd hl (by simp [loaded, serving, working])
          fresh := fun _ => hs.fresh hunl
          emptied := fun _ => ⟨rfl, rfl, hperm⟩
          closed := fun _ hp => by cases hp }
    · rw [hunl]
      simp [loaded, serving, working]
    · simp [holdings, hph, pending, hcont]
  · cases hfin

theorem Inv.endHandoff (h : Inv s) (hend : s.endHandoff g = some s') : Inv s' := by
  obtain ⟨_, h', ha, rfl⟩ := h.endHandoff_cases hend
  exact h.answered ha

theorem Inv.finish [Publishable α] (h : Inv s) (hregl : Regular s (.finish g))
    (hfin : s.finish g = some s') : Inv s' := by
  rcases h.finish_cases hregl hfin with hstays | ⟨_, h', ha, rfl⟩
  · exact h.moves hstays.1
  · exact h.answered ha

/-! ## Routers -/

/-- A router moves on with its message. -/
theorem Inv.setStage (h : Inv s) {stage : Stage α} (hstg : Staged s p stage) :
    Inv (s.setStage p stage) := by
  have hpubs : (s.setStage p stage).publishers =
      update s.publishers p { s.publishers p with stage } := rfl
  have hnext : ∀ p', ((s.setStage p stage).publishers p').next = (s.publishers p').next := by
    exact forall_update hpubs rfl fun _ _ => rfl
  have hmono : ∀ {p' stage'}, Staged s p' stage' → Staged (s.setStage p stage) p' stage' :=
    fun hs => hs.mono (hnext _) rfl (Nat.le_refl _) fun _ _ hmem => hmem
  refine ⟨h.sound, h.unborn, h.notices, h.single, h.parked, ?_, fun d hd => ?_, h.nodup, h.ledger⟩
  · exact forall_update hpubs (hmono hstg) fun p' _ => hmono (h.staged p')
  · rw [hnext]
    exact h.numbered d hd

/-- A message has entered a lane or the queue. -/
theorem Inv.accept (h : Inv s) {p : Nat} {m : Message α}
    (hm : m.delivery = ⟨p, (s.publishers p).next⟩) {queue : ClientQueue (Message α)}
    {handlers : Nat → Handler α} (hepoch : queue.epoch = s.queue.epoch)
    (hoffs : queue.handoffs = s.queue.handoffs)
    (hs : ∀ k, Sound s.registered s.queue.epoch s.records k (handlers k))
    (hunborn : ∀ k, s.nextGeneration ≤ k → handlers k = s k)
    (hnote : ∀ k, (handlers k).notice = (s k).notice)
    (hload : ∀ k, (handlers k).loaded = (s k).loaded)
    (hperm : ∀ k p', p' ≠ p → p' ∈ (s k).lane.permits → p' ∈ (handlers k).lane.permits)
    (hstock : State.stock { s with queue, handlers } = m.delivery ::ₘ s.stock) :
    Inv (State.accept { s with queue, handlers } p m) := by
  have hpubs : (State.accept { s with queue, handlers } p m).publishers =
      update s.publishers p ⟨(s.publishers p).next + 1, .idle⟩ := rfl
  have hnext : ∀ p', ((State.accept { s with queue, handlers } p m).publishers p').next =
      if p' = p then (s.publishers p).next + 1 else (s.publishers p').next := by
    exact forall_update hpubs (if_pos rfl).symm fun _ hp => (if_neg hp).symm
  refine ⟨fun k => ?_, fun k hk => (hunborn k hk).trans (h.unborn k hk), ?_, fun k₁ k₂ h₁ h₂ => ?_,
    fun hnone => h.parked fun k => (hload k).symm.trans (hnone k), ?_, fun d hd => ?_, ?_, ?_⟩
  · show Sound s.registered queue.epoch s.records k (handlers k)
    rw [hepoch]
    exact hs k
  · show queue.handoffs = _
    rw [hoffs, h.notices]
    exact sum_congr rfl fun k _ => by rw [← hnote k]; rfl
  · exact h.single k₁ k₂ ((hload k₁).symm.trans h₁) ((hload k₂).symm.trans h₂)
  · refine forall_update hpubs trivial fun p' hp => ?_
    refine (h.staged p').mono ?_ hepoch (Nat.le_refl _) fun k _ hmem => hperm k p' hp hmem
    rw [hnext, if_neg hp]
  · rw [hnext]
    rcases mem_cons.mp hd with rfl | hold
    · rw [hm, if_pos rfl]
      exact Nat.lt_succ_self _
    · have hlt := h.numbered d hold
      split
      · rename_i heq
        rw [heq] at hlt
        omega
      · exact hlt
  · refine nodup_cons.mpr ⟨fun hmem => ?_, h.nodup⟩
    have hlt := h.numbered _ hmem
    rw [hm] at hlt
    exact absurd hlt (Nat.lt_irrefl _)
  · show m.delivery ::ₘ s.history.accepted =
      s.history.finished + s.history.discarded + State.stock { s with queue, handlers }
    rw [hstock, h.ledger, add_cons]

theorem Inv.enterLane (h : Inv s) (hm : m.delivery = ⟨p, (s.publishers p).next⟩)
    (hg : g < s.nextGeneration) (hopen : (s g).phase.handedBack = false) {permits : Finset Nat}
    (hperm : ∀ p', p' ≠ p → p' ∈ (s g).lane.permits → p' ∈ permits) :
    Inv (s.enterLane p g m permits) := by
  refine Inv.accept h (p := p) (m := m) hm rfl rfl ?_
    (fun k hk => update_of_ne (by omega) _ _) (forall_update rfl rfl fun _ _ => rfl)
    (forall_update rfl rfl fun _ _ => rfl) (forall_update rfl hperm fun _ _ _ _ hmem => hmem) ?_
  · refine forall_update rfl ?_ fun k _ => h.sound k
    have hs := h.sound g
    exact
      { hs with
        emptied := fun hp => by
          have hp' : (s g).phase.handedBack := hp
          rw [hopen] at hp'
          cases hp'
        closed := hs.closed }
  · have hsum := sum_update_add (mem_range.mpr hg) holdings s.handlers
      { s g with
        lane := { (s g).lane with
          contents := (s g).lane.contents ++ [m], permits } }
    have hhldg : ({ s g with
        lane := { (s g).lane with
          contents := (s g).lane.contents ++ [m], permits } } : Handler α).holdings =
        m.delivery ::ₘ (s g).holdings := by
      simp only [holdings, List.map_append, List.map_cons, List.map_nil,
        ← coe_add, ← cons_coe, coe_nil, ← singleton_add,
        add_zero]
      ac_rfl
    rw [hhldg, add_cons, ← cons_add] at hsum
    have htotal := add_right_cancel hsum
    unfold State.stock
    dsimp only
    rw [htotal]
    simp only [← singleton_add]
    ac_rfl

/-- The message a router is about to deliver. -/
def Stage.message : Stage α → Option (Message α)
  | .idle => none
  | .checking m _ _ _ | .sending m _ _ | .waiting m _ _ | .permitted m _ | .queueing m _ => some m

theorem Inv.push_cases [Publishable α] (h : Inv s) (hregl : Regular s (.push p))
    (hpush : s.push p = some s') :
    ∃ m ∈ (s.publishers p).stage.message, m.delivery = ⟨p, (s.publishers p).next⟩ ∧
      (s.queue.append m).1.messages = s.queue.messages ++ [m] ∧
      s' = State.accept { s with queue := (s.queue.append m).1 } p m := by
  unfold State.push at hpush
  split at hpush
  · rename_i m epoch hstage
    have hstg := h.staged p
    rw [hstage] at hstg
    obtain ⟨hm, hepoch⟩ := hstg
    have hpushed : s.queue.pushInEpoch m epoch = some (s.queue.append m) := by
      unfold pushInEpoch
      rw [if_neg (by simp [hepoch])]
    have hroom := hregl m epoch hstage hepoch.symm
    rw [hpushed] at hpush
    cases hpush
    exact ⟨m, by rw [hstage]; rfl, hm, messages_append hroom, rfl⟩
  · cases hpush

theorem Inv.push [Publishable α] (h : Inv s) (hregl : Regular s (.push p))
    (hpush : s.push p = some s') : Inv s' := by
  obtain ⟨m, -, hm, hmsgs, rfl⟩ := h.push_cases hregl hpush
  refine Inv.accept h (p := p) (m := m) hm
    (epoch_append _ _) (handoffs_append _ _) h.sound (fun _ _ => rfl)
    (fun _ => rfl) (fun _ => rfl) (fun _ _ _ hmem => hmem) ?_
  unfold State.stock
  dsimp only
  rw [hmsgs, List.map_append]
  simp only [List.map_cons, List.map_nil, ← coe_add, ← cons_coe, coe_nil, ← singleton_add, add_zero]
  ac_rfl

/-- What a router does before it queues: it goes on with its message, reserves a place in a
lane, or puts the message there. -/
inductive Routes (s : State α) (a : Action α) (p : Nat) : State α → Prop where
  | stage (stage : Stage α) (staged : Staged s p stage)
      (message : ∀ m ∈ stage.message, m.packetId = none ∨ m ∈ (s.publishers p).stage.message) :
      Routes s a p (s.setStage p stage)
  | reserve (g epoch : Nat) (m : Message α) (waiting : (s.publishers p).stage = .waiting m g epoch)
      (opened : ¬(s.handlers g).lane.closed = true) :
      Routes s a p ((s.setHandler g
        { s.handlers g with
          lane := { (s.handlers g).lane with
            permits := insert p (s.handlers g).lane.permits } }).setStage p (.permitted m g))
  | enter (g : Nat) (m : Message α) (permits : Finset Nat)
      (entering : (a = .sendPermit p ∧ (s.publishers p).stage = .permitted m g) ∨
        ∃ waits epoch, a = .trySend p waits ∧ (s.publishers p).stage = .sending m g epoch ∧
          (s.handlers g).lane.closed = false ∧ (s.handlers g).lane.hasRoom = true)
      (number : m.delivery = ⟨p, (s.publishers p).next⟩) (born : g < s.nextGeneration)
      (opened : (s.handlers g).phase.handedBack = false)
      (permitted : ∀ p', p' ≠ p → p' ∈ (s.handlers g).lane.permits → p' ∈ permits) :
      Routes s a p (s.enterLane p g m permits)

theorem Routes.restage {stage stage' : Stage α}
    (hstage : (s.publishers p).stage = stage) (hstg : Staged s p stage')
    (hmsg : stage'.message = stage.message) : Routes s a p (s.setStage p stage') :=
  .stage stage' hstg fun m hm => .inr (by rw [hstage, ← hmsg]; exact hm)

def Action.router : Action α → Option Nat
  | .plan p _ _ | .readFlag p | .trySend p _ | .reserve p | .timeout p | .sendPermit p => some p
  | _ => none

theorem Inv.routes [Publishable α] (h : Inv s) (hrouter : a.router = some p)
    (hact : act s a = some s') : Routes s a p s' := by
  have hstg := h.staged p
  cases a with
  | plan _ content _ =>
    cases hrouter
    have hnew : ∀ m ∈ some ({ delivery := ⟨p, (s.publishers p).next⟩, content } : Message α),
        m.packetId = none ∨ m ∈ (s.publishers p).stage.message := by
      rintro m ⟨⟩
      exact .inl rfl
    dsimp only [act, State.plan] at hact
    split at hact
    · split at hact
      · rename_i k hreg
        cases hact
        exact .stage _ ⟨rfl, rfl, h.born_of_registered hreg⟩ hnew
      · cases hact
        exact .stage _ ⟨rfl, rfl⟩ hnew
    · cases hact
  | readFlag _ =>
    cases hrouter
    dsimp only [act, State.readFlag] at hact
    split at hact
    · rename_i m k epoch _ hstage
      rw [hstage] at hstg
      split at hact
      · cases hact
        exact .restage hstage ⟨hstg.1, hstg.2.1⟩ rfl
      · split at hact <;> cases hact <;> exact .restage hstage hstg rfl
    · cases hact
  | trySend _ waits =>
    cases hrouter
    dsimp only [act, State.trySend] at hact
    split at hact
    · rename_i m k epoch hstage
      rw [hstage] at hstg
      split at hact
      · cases hact
        exact .restage hstage ⟨hstg.1, hstg.2.1⟩ rfl
      · rename_i hopen
        split at hact
        · rename_i hroom
          cases hact
          refine .enter k m _ (.inr ⟨waits, epoch, rfl, hstage, by simpa using hopen, hroom⟩)
            hstg.1 hstg.2.2 ?_ fun _ _ hmem => hmem
          -- a connection that has handed back has closed its lane
          rw [← not_eq_true]
          exact fun hhanded => hopen ((h.sound k).emptied hhanded).1
        · split at hact <;> cases hact
          · exact .restage hstage hstg rfl
          · exact .restage hstage ⟨hstg.1, hstg.2.1⟩ rfl
    · cases hact
  | reserve _ =>
    cases hrouter
    dsimp only [act, State.reserve] at hact
    split at hact
    · rename_i m k epoch hstage
      rw [hstage] at hstg
      split at hact
      · cases hact
        exact .restage hstage ⟨hstg.1, hstg.2.1⟩ rfl
      · rename_i hopen
        split at hact
        · cases hact
          exact .reserve k epoch m hstage hopen
        · cases hact
    · cases hact
  | timeout _ =>
    cases hrouter
    dsimp only [act, State.timeout] at hact
    split at hact
    · rename_i m k epoch hstage
      rw [hstage] at hstg
      cases hact
      exact .restage hstage ⟨hstg.1, hstg.2.1⟩ rfl
    · cases hact
  | sendPermit _ =>
    cases hrouter
    dsimp only [act, State.sendPermit] at hact
    split at hact
    · rename_i m k hstage
      rw [hstage] at hstg
      cases hact
      refine .enter k m _ (.inl ⟨rfl, hstage⟩) hstg.1 hstg.2.2 ?_
        fun _ hp hmem => mem_erase.mpr ⟨hp, hmem⟩
      -- a connection hands back only when every reserved place has been used
      rw [← not_eq_true]
      intro hhanded
      have hmem := hstg.2.1
      rw [((h.sound k).emptied hhanded).2.2] at hmem
      exact absurd hmem (notMem_empty p)
    · cases hact
  | _ => cases hrouter

theorem Inv.route (h : Inv s) (hroutes : Routes s a p s') : Inv s' := by
  cases hroutes with
  | stage stage hstg _ => exact h.setStage hstg
  | reserve k _ m hstage hopen =>
    have hstg := h.staged p
    rw [hstage] at hstg
    have hs := h.sound k
    have hres := @Inv.setHandler α s k h hstg.2.2 s.queue
      { s k with
        lane := { (s k).lane with
          permits := insert p (s k).lane.permits } } rfl rfl rfl
      { hs with
        emptied := fun hp => absurd (hs.emptied hp).1 hopen
        closed := hs.closed } rfl (subset_insert _ _) rfl rfl
    refine hres.setStage ⟨hstg.1, ?_, hstg.2.2⟩
    show p ∈ (update s.handlers k _ k).lane.permits
    rw [update_self]
    exact mem_insert_self _ _
  | enter k m permits _ hnumber hborn hopen hperm =>
    exact h.enterLane hnumber hborn hopen hperm

/-! ## Runs -/

/-- Every regular step keeps the invariant. -/
theorem Inv.step [Publishable α] (h : Inv s) {a : Action α} {s' : State α}
    (hregl : Regular s a) (hact : act s a = some s') : Inv s' := by
  cases a with
  | expect capacity window drainBatch maxPacketSize =>
    cases hact
    exact h.expect capacity window drainBatch maxPacketSize
  | register k => exact h.register hact
  | connected k | abandon k | turn k | endBatch k | drain k | finishDrain k | close k
  | takenOver k => exact h.moves (h.stays rfl hact).1
  | bind k _ _ _ => exact h.bind hregl hact
  | receive k written | next k written | sendNext k written => exact h.send hregl rfl hact
  | take k now => exact h.take hregl hact
  | mark k now => exact h.moves (h.moves_mark hregl hact)
  | proceed k _ => exact h.proceed hregl hact
  | puback k id | pubrec k id error written | pubcomp k id => exact h.ack hregl rfl hact
  | inbound k ids =>
    dsimp only [act] at hact
    obtain ⟨_, _, hph, rfl⟩ := inLoop_cases hact
    exact h.inbound hph ids
  | closeLane k =>
    dsimp only [act] at hact
    split at hact
    · rename_i hph
      cases hact
      exact h.closeLane hph
    · cases hact
  | requeue k => exact h.requeue hregl hact
  | endHandoff k => exact h.endHandoff hact
  | release k => exact h.release hact
  | finish k => exact h.finish hregl hact
  | plan p content limited | readFlag p | trySend p waits | reserve p | timeout p
  | sendPermit p => exact h.route (h.routes rfl hact)
  | push p => exact h.push hregl hact

theorem Run.inv [Publishable α] {s₀ : State α} {condition : State α → Action α → Prop}
    (hcond : ∀ s a, condition s a → Regular s a) (hinit : Initial s₀)
    (hrun : Run condition s₀ s) : Inv s := by
  induction hrun with
  | start => exact hinit.inv
  | step _ hmet hact ih => exact ih.step (hcond _ _ hmet) hact

theorem Inv.stock_nodup (h : Inv s) : s.stock.Nodup := by
  have hnd := h.nodup
  rw [h.ledger] at hnd
  exact (nodup_add.mp hnd).2.1

end

end MqttLib.Broker.Delivery
