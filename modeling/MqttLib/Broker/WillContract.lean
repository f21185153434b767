/-
MqttLib.Broker.WillContract

Every connection that has left comes to its end, whatever the others hold; and what has
become of its Will by then.
-/

import MqttLib.Broker.Wills

namespace MqttLib.Broker.Lifecycle

open Foundation Protocol Storage BrokerState Function Phase Finmap Option

variable {settings : BrokerSettings}
  {order : Table String StoredSubscription → List (String × StoredSubscription)}
  {s s' : State} {i j : Nat} {t t' : Task} {b b' : BrokerState} {c c' d : Connection} {a : Action}
  {effect : Effect} {outcome : WillOutcome} {clientId : String} {stage stage' : Stage}

/-! ## Slots are given back -/

/-- A slot that is taken is held by a task in its section. -/
def State.SlotsOwned (s : State) : Prop :=
  ∀ clientId i, s.slots.lookup clientId = some i →
    ∃ t, s.tasks i = some t ∧ t.holdsSlot = true ∧ t.clientId = clientId

/-- The slots after a step of a task that has been started. -/
theorem State.SlotsOwned.update (hs : s.SlotsOwned) (htask : s.tasks i = some t)
    (htasks : s'.tasks = update s.tasks i (some t')) (hid : t'.clientId = t.clientId)
    (hslots : ∀ clientId j, s'.slots.lookup clientId = some j → s.slots.lookup clientId = some j ∧
      (j = i → t'.holdsSlot)) : s'.SlotsOwned := by
  intro clientId j hj
  obtain ⟨hpre, hhold⟩ := hslots clientId j hj
  obtain ⟨u, hu, huholds, huclient⟩ := hs clientId j hpre
  rw [htasks, update_apply]
  split
  · rename_i hji
    rw [hji, htask] at hu
    cases hu
    exact ⟨t', rfl, hhold hji, hid.trans huclient⟩
  · exact ⟨u, hu, huholds, huclient⟩

theorem State.SlotsOwned.moves (hs : s.SlotsOwned) (htask : s.tasks i = some (.connection c))
    (h : Moves settings order s i c b c' effect) : (s.moved i b c' effect).SlotsOwned := by
  obtain ⟨-, -, hkeeps⟩ := h.facts
  refine hs.update htask tasks_moved h.clientId_eq fun clientId j hj => ?_
  by_cases hunlock : effect = .unlocks
  · subst hunlock
    by_cases hcl : clientId = c'.clientId
    · rw [hcl] at hj
      cases (lookup_erase _ _).symm.trans hj
    · rw [lookup_slots_moved (.inl hcl)] at hj
      refine ⟨hj, ?_⟩
      rintro rfl
      -- the slot of the step's task is its client's
      obtain ⟨u, hu, -, huclient⟩ := hs clientId j hj
      rw [htask] at hu
      cases hu
      exact (hcl (huclient.symm.trans h.clientId_eq.symm)).elim
  · rw [slots_moved hunlock] at hj
    refine ⟨hj, ?_⟩
    rintro rfl
    obtain ⟨u, hu, huholds, -⟩ := hs clientId j hj
    rw [htask] at hu
    cases hu
    exact (hkeeps hunlock).trans huholds

theorem Locks.holds (h : Locks t t') : t'.holdsSlot := by
  cases h <;> rfl

theorem Sweeps.holds (h : Sweeps s clientId stage b stage') : stage'.holdsSlot := by
  cases h <;> rfl

theorem State.SlotsOwned.act (hs : s.SlotsOwned) (h : act settings order s a = some s') :
    s'.SlotsOwned := by
  cases act_steps h with
  | advanced => exact hs
  | started _ hnone hnew =>
    intro clientId j hj
    obtain ⟨u, hu, huholds, huclient⟩ := hs clientId j hj
    refine ⟨u, ?_, huholds, huclient⟩
    dsimp only [State.setTask]
    rw [update_of_ne]
    · exact hu
    · rintro rfl
      cases hnone.symm.trans hu
  | locked htask hfree hlocks =>
    rename_i i t t'
    intro clientId j hj
    dsimp only [State.setTask] at hj ⊢
    rcases Table.of_lookup_insert hj with ⟨rfl, rfl⟩ | ⟨hcl, hj⟩
    · rw [update_self]
      exact ⟨t', rfl, hlocks.holds, hlocks.facts.2⟩
    · obtain ⟨u, hu, huholds, huclient⟩ := hs clientId j hj
      rw [update_of_ne]
      · exact ⟨u, hu, huholds, huclient⟩
      · rintro rfl
        cases htask.symm.trans hu
        rw [hlocks.facts.1] at huholds
        cases huholds
  | moved _ htask hmov => exact hs.moves htask hmov
  | swept htask hsweeps => exact hs.update htask rfl rfl fun _ _ hj => ⟨hj, fun _ => hsweeps.holds⟩
  | unlocked _ htask =>
    rename_i i _ _
    refine hs.update htask rfl rfl fun clientId j hj => ?_
    obtain ⟨hcl, hold⟩ := Table.of_lookup_erase hj
    refine ⟨hold, ?_⟩
    rintro rfl
    obtain ⟨u, hu, -, huclient⟩ := hs clientId j hold
    rw [htask] at hu
    cases hu
    exact (hcl huclient.symm).elim

/-! ## Progress -/

/-- How many steps a connection is from the end of its section, or from its own end. -/
def Phase.remaining : Phase → Nat
  | .leaving _ => 9
  | .releasing _ => 8
  | .armed .. => 7
  | .unflowed .. => 6
  | .persisting .. => 5
  | .unlocking .. | .locked => 4
  | .cleaning .. | .claimed _ => 3
  | .waiting _ | .stored _ => 2
  | .publishing | .registered _ => 1
  | _ => 0

def Stage.remaining : Stage → Nat
  | .locked => 5
  | .unowned => 4
  | .swept => 3
  | .stranded _ | .clearing => 2
  | .unlocking => 1
  | _ => 0

/-- The connection has left. -/
def Phase.hasLeft : Phase → Bool
  | .leaving _ | .releasing _ | .armed .. | .unflowed .. | .persisting .. | .unlocking ..
  | .cleaning .. | .waiting _ | .publishing | .ended _ => true
  | _ => false

theorem Moves.remaining_lt (h : Moves settings order s i c b c' effect)
    (hin : c.phase.holdsSlot ∨ c.phase.hasLeft) :
    c'.phase.remaining < c.phase.remaining := by
  cases h with
  | disconnected hph | answered hph | unanswered hph | closed hph
  | takenOver hph => rw [hph] at hin; rcases hin with hin | hin <;> cases hin
  | _ =>
    rw [‹c.phase = _›]
    simp [remaining]

/-- A connection that has left keeps its CONNECT packet and how it has left. -/
theorem Moves.left_keeps (h : Moves settings order s i c b c' effect) (hleft : c.phase.hasLeft) :
    c'.phase.hasLeft ∧ c'.claimant = c.claimant ∧
      c'.normalDisconnect = c.normalDisconnect := by
  refine ⟨?_, h.facts.1, ?_⟩
  · cases h with
    | disconnected hph hhand => rw [hph] at hleft; cases hleft
    | _ => rw [‹c.phase = _›] at hleft; first | rfl | cases hleft
  · cases h with
    | disconnected hph hhand => rw [hph] at hleft; cases hleft
    | _ => rfl

theorem Sweeps.remaining_lt
    (h : Sweeps s clientId stage b stage') : stage'.remaining < stage.remaining := by
  cases h <;> simp [Stage.remaining]

/-- The step of a connection that is in the section of its slot. -/
def Phase.nextAction (i : Nat) : Phase → Action
  | .locked => .read i
  | .claimed _ => .write i true
  | .stored _ => .register i
  | .registered _ => .install i
  | .releasing _ => .arm i
  | .armed .. => .releaseFlows i fun _ => true
  | .unflowed .. => .release i
  | .persisting .. => .persist i true
  | .cleaning .. => .cleanup i true true
  | .waiting _ => .fire i true
  | .publishing => .publish i true
  | _ => .unlock i

theorem act_nextAction (hc : s.connectionAt i c) :
    act settings order s (c.phase.nextAction i) =
      actConnection settings order s i c (c.phase.nextAction i) := by
  have htask : s.tasks i = some (.connection c) := hc
  cases c.phase <;> simp [act, nextAction, Action.task, htask]

theorem moves_of_isSome (hc : s.connectionAt i c)
    (hsome : (actConnection settings order s i c (c.phase.nextAction i)).isSome) :
    ∃ b c' effect, Moves settings order s i c b c' effect ∧
      act settings order s (c.phase.nextAction i) = some (s.moved i b c' effect) := by
  obtain ⟨_, hstep⟩ := isSome_iff_exists.mp hsome
  obtain ⟨b, c', effect, hmov, rfl⟩ := actConnection_moves hstep
  exact ⟨b, c', effect, hmov, (act_nextAction hc).trans hstep⟩

/-- A connection in the section of its slot can take its next step. -/
theorem connection_enabled (hhold : c.phase.holdsSlot) :
    (actConnection settings order s i c (c.phase.nextAction i)).isSome := by
  unfold actConnection
  cases hph : c.phase with
  | locked | releasing exit | armed exit armed | persisting exit armed =>
    dsimp only [nextAction]
    split <;> rfl
  | claimed _ => rfl
  | _ => rw [hph] at hhold; first | rfl | cases hhold

/-- The step of a sweep that is in the section of its slot. -/
def Stage.nextAction (i : Nat) : Stage → Action
  | .locked => .check i
  | .unowned => .removeExpired i true
  | .swept => .readSwept i
  | .stranded _ => .endStranded i true
  | .clearing => .clear i
  | _ => .unlock i

/-- A sweep in the section of its slot can take its next step, the last of which drops the slot. -/
theorem sweep_enabled {stage : Stage}
    (htask : s.tasks i = some (.sweep clientId stage)) (hhold : stage.holdsSlot) :
    (∃ b stage', Sweeps s clientId stage b stage' ∧
      act settings order s (stage.nextAction i) =
        some ({ s with broker := b }.setTask i (.sweep clientId stage'))) ∨
    act settings order s (stage.nextAction i) =
      some ((s.unlock clientId).setTask i (.sweep clientId .finished)) := by
  have hact : act settings order s (stage.nextAction i) =
      actSweep s i clientId stage (stage.nextAction i) := by
    cases stage <;> simp [act, Stage.nextAction, Action.task, htask]
  have hsome : (actSweep s i clientId stage (stage.nextAction i)).isSome := by
    unfold actSweep
    cases stage with
    | unowned | swept =>
      dsimp only [Stage.nextAction]
      split <;> rfl
    | _ => first | rfl | cases hhold
  obtain ⟨_, hstep⟩ := isSome_iff_exists.mp hsome
  rcases actSweep_sweeps hstep with ⟨b, stage', hsweeps, hs⟩ | ⟨-, -, hs⟩
  · exact .inl ⟨b, stage', hsweeps, by rw [hact, hstep, hs]⟩
  · exact .inr (by rw [hact, hstep, hs])

def Task.remaining : Task → Nat
  | .connection c => c.phase.remaining
  | .sweep _ stage => stage.remaining

/-- What is in the section of a slot can take a step: towards the end of the section, or out of it
with the slot free again; the other tasks are as before. -/
theorem section_enabled (htask : s.tasks i = some t) (hhold : t.holdsSlot) :
    ∃ a s' t', act settings order s a = some s' ∧
      s'.tasks = update s.tasks i (some t') ∧ t'.clientId = t.clientId ∧
      ((t'.holdsSlot ∧ t'.remaining < t.remaining) ∨
        s'.slots.lookup t.clientId = none) := by
  cases t with
  | connection c =>
    obtain ⟨b, c', effect, hmov, hact⟩ := moves_of_isSome htask
      (connection_enabled (s := s) (i := i) (c := c) hhold)
    obtain ⟨-, -, hkeeps⟩ := hmov.facts
    refine ⟨_, _, .connection c', hact, tasks_moved, hmov.clientId_eq, ?_⟩
    by_cases hunlock : effect = .unlocks
    · subst hunlock
      refine .inr ?_
      rw [Task.clientId, ← hmov.clientId_eq]
      exact lookup_erase _ _
    · exact .inl ⟨(hkeeps hunlock).trans hhold, hmov.remaining_lt (.inl hhold)⟩
  | sweep clientId stage =>
    rcases sweep_enabled (s := s) (i := i) htask hhold with
      ⟨b, stage', hsweeps, hact⟩ | hact
    · exact ⟨_, _, .sweep clientId stage', hact, rfl, rfl,
        .inl ⟨hsweeps.holds, hsweeps.remaining_lt⟩⟩
    · exact ⟨_, _, .sweep clientId .finished, hact, rfl, rfl, .inr (lookup_erase _ _)⟩

/-- Every slot that is held can be brought to be free, by steps of its holder. -/
theorem slot_freed (htask : s.tasks i = some t) (hhold : t.holdsSlot) :
    ∃ actions s', follow (act settings order) s actions = some s' ∧
      s'.slots.lookup t.clientId = none ∧ ∀ j, j ≠ i → s'.tasks j = s.tasks j := by
  induction hn : t.remaining using Nat.strong_induction_on generalizing s t with
  | _ n ih =>
    obtain ⟨a, s', t', hact, htasks, hid, hnext⟩ :=
      section_enabled (s := s) (i := i) (t := t) htask hhold
    have hoth : ∀ j, j ≠ i → s'.tasks j = s.tasks j := fun j hji => by
      rw [htasks, update_of_ne hji]
    rcases hnext with ⟨hhold', hless⟩ | hfree
    · have htask' : s'.tasks i = some t' := by rw [htasks, update_self]
      obtain ⟨actions, s'', hfollow, hfree, hrest⟩ := ih _ (hn ▸ hless) htask' hhold' rfl
      refine ⟨a :: actions, s'', ?_, hid ▸ hfree, fun j hji => (hrest j hji).trans (hoth j hji)⟩
      rw [follow, hact]
      exact hfollow
    · exact ⟨[a], s', by rw [follow, hact]; rfl, hfree, hoth⟩

variable (settings order) in
/-- The connection can come to its end. -/
def State.CanEnd (s : State) (i : Nat) (c : Connection) : Prop :=
  ∃ actions s' c' outcome, follow (act settings order) s actions = some s' ∧
    s'.connectionAt i c' ∧ c'.phase = .ended outcome ∧ c'.claimant = c.claimant ∧
    c'.normalDisconnect = c.normalDisconnect

theorem State.CanEnd.after {first : List Action} {d : Connection}
    (hfollow : follow (act settings order) s first = some s')
    (hclaimant : d.claimant = c.claimant) (hnorm : d.normalDisconnect = c.normalDisconnect)
    (h : s'.CanEnd settings order i d) : s.CanEnd settings order i c := by
  obtain ⟨actions, s'', c'', outcome, hrest, hend, hph, hclaimant', hnorm'⟩ := h
  exact ⟨first ++ actions, s'', c'', outcome, (follow_append hfollow).trans hrest, hend, hph,
    hclaimant'.trans hclaimant, hnorm'.trans hnorm⟩

theorem follow_singleton (h : act settings order s a = some s') :
    follow (act settings order) s [a] = some s' := by
  rw [follow, h]
  rfl

/-- A Will that has a delay is one. -/
theorem exists_will (h : c.willDelay.any (· ≠ 0)) : ∃ will, c.will = some will := by
  unfold Connection.willDelay at h
  unfold Connection.will
  cases hsess : c.session with
  | none => simp [hsess] at h
  | some session =>
    cases hwill : session.willMessage with
    | none => simp [hsess, ClientSession.willPublishDelay, hwill] at h
    | some will => exact ⟨will, hwill⟩

/-- A connection that has left can come to its end, whatever the other tasks are doing. -/
theorem canEnd (hs : WillSound s) (howned : s.SlotsOwned) (hc : s.connectionAt i c)
    (hleft : c.phase.hasLeft) : s.CanEnd settings order i c := by
  induction hn : c.phase.remaining using Nat.strong_induction_on generalizing s c with
  | _ n ih =>
    -- a step of the connection, and then the rest
    have step : ∀ s, WillSound s → s.SlotsOwned → s.connectionAt i c →
        (actConnection settings order s i c (c.phase.nextAction i)).isSome = true →
        s.CanEnd settings order i c := by
      intro s hs howned hc hsome
      obtain ⟨b, _, _, hmov, hact⟩ := moves_of_isSome hc hsome
      obtain ⟨hleft', hclaimant, hnorm⟩ := hmov.left_keeps hleft
      refine State.CanEnd.after (follow_singleton hact) hclaimant hnorm ?_
      exact ih _ (hn ▸ hmov.remaining_lt (.inr hleft)) (hs.moves hc hmov)
        (howned.moves hc hmov) (connectionAt_moved_self.mpr rfl) hleft' rfl
    cases hph : c.phase with
    | ended outcome => exact ⟨[], s, c, outcome, rfl, hc, hph, rfl, rfl⟩
    | leaving exit =>
      have htask : s.tasks i = some (.connection c) := hc
      -- the slot is free, and the connection takes it
      have free : ∀ s, WillSound s → s.SlotsOwned → s.connectionAt i c →
          s.slots.lookup c.clientId = none → s.CanEnd settings order i c := by
        intro s hs howned hc hfree
        have htask : s.tasks i = some (.connection c) := hc
        have hact : act settings order s (.lock i) = some
            ({ s with slots := s.slots.insert c.clientId i }.setTask i
              (.connection { c with phase := .releasing exit })) := by
          simp [act, lock, htask, Task.clientId, hfree, hph]
        refine State.CanEnd.after (d := { c with phase := .releasing exit })
          (follow_singleton hact) rfl rfl ?_
        refine ih _ ?_ (hs.act hact) (howned.act hact) ?_ rfl rfl
        · rw [← hn, hph]
          exact Nat.lt_succ_self 8
        · dsimp only [State.connectionAt, State.setTask]
          rw [update_self]
      cases hslot : s.slots.lookup c.clientId with
      | none => exact free s hs howned hc hslot
      | some k =>
        obtain ⟨t, ht, hhold, hcl⟩ := howned _ k hslot
        have hne : i ≠ k := by
          rintro rfl
          rw [htask] at ht
          cases ht
          simp [Task.holdsSlot, hph, holdsSlot] at hhold
        obtain ⟨_, s', hfollow, hfree, hoth⟩ := slot_freed (s := s) (i := k) (t := t) ht hhold
        refine State.CanEnd.after hfollow rfl rfl ?_
        exact free s' (follow_invariant hfollow hs fun _ _ _ _ hs h => hs.act h)
          (follow_invariant hfollow howned fun _ _ _ _ howned h => howned.act h)
          ((hoth i hne).trans hc) (hcl ▸ hfree)
    | cleaning exit armed owned =>
      refine step s hs howned hc ?_
      rw [hph]
      simp [actConnection, hph, nextAction]
    | waiting deadline =>
      -- the clock reaches the deadline
      have hact : act settings order s (.advance (max s.clock deadline)) =
          some { s with clock := max s.clock deadline } :=
        if_neg (Nat.not_lt.mpr (le_max_left s.clock deadline))
      refine State.CanEnd.after (follow_singleton hact) rfl rfl ?_
      refine step _ (hs.act hact) (howned.act hact) hc ?_
      rw [hph]
      have hlate : ¬ max s.clock deadline < deadline :=
        Nat.not_lt.mpr (le_max_right s.clock deadline)
      simp [actConnection, hph, nextAction, hlate]
    | publishing =>
      refine step s hs howned hc ?_
      have hwill := hs.wills i c hc
      simp only [State.WillFits, hph] at hwill
      obtain ⟨_, hsome⟩ := exists_will hwill.2
      rw [hph]
      simp [actConnection, hph, nextAction, hsome]
    | releasing exit | armed exit armed | unflowed exit armed | persisting exit armed
    | unlocking exit armed owned =>
      exact step s hs howned hc (connection_enabled (by rw [hph]; rfl))
    | _ => rw [hph] at hleft; cases hleft

/-! ## The contract -/

/-- A broker that has not accepted a connection yet. -/
structure Fresh (s : State) : Prop where
  clients : s.broker.clients = ∅
  slots : s.slots = ∅
  tasks : ∀ i, s.tasks i = none
  notices : ∀ i, s.notices i = false
  published : s.published = []

theorem Fresh.willSound (h : Fresh s) : WillSound s := by
  have hno : ∀ i c, ¬ s.connectionAt i c := by
    intro i c hc
    cases (h.tasks i).symm.trans hc
  refine ⟨?_, ?_, ?_, ?_, ?_, ?_, ?_, ?_⟩
  · intro i t ht
    cases (h.tasks i).symm.trans ht
  · intro i hnote
    cases (h.notices i).symm.trans hnote
  · exact fun i j c d hc => (hno i c hc).elim
  · exact fun i c hc => (hno i c hc).elim
  · exact fun i c hc => (hno i c hc).elim
  · intro _ _ hinfo
    rw [h.clients, lookup_empty] at hinfo
    cases hinfo
  · intro p hp
    rw [h.published] at hp
    cases hp
  · rw [h.published]
    exact List.nodup_nil

theorem Fresh.slotsOwned (h : Fresh s) : s.SlotsOwned := by
  intro _ i hslot
  rw [h.slots, lookup_empty] at hslot
  cases hslot

/-- What has become of the Will of a connection that has come to its end. -/
theorem WillSound.ended (hs : WillSound s) (hc : s.connectionAt i c)
    (hph : c.phase = .ended outcome) (hacc : outcome ≠ .unaccepted)
    (hnorm : c.normalDisconnect = false) {will : WillMessage}
    (hwill : c.claimant.connect.will = some will) :
    (i, willPublish will c.clientId c.claimant.userId) ∈ s.published ∨ outcome = .denied ∨
      (c.willDelay.any (· ≠ 0) ∧ s.Superseded c) := by
  have hfits := hs.wills i c hc
  cases outcome with
  | unaccepted => exact (hacc rfl).elim
  | nothing =>
    simp only [State.WillFits, hph, hnorm, hwill] at hfits
    simp at hfits
  | published =>
    simp only [State.WillFits, hph] at hfits
    obtain ⟨⟨j, publish⟩, hp, hj⟩ := List.mem_map.mp hfits.2
    obtain ⟨d, _, hd, -, hwill', hpubl⟩ := hs.published _ hp
    have hji : j = i := hj
    rw [hji] at hd hp
    cases hc.symm.trans hd
    rw [hwill] at hwill'
    cases hwill'
    have hsame : publish = willPublish will c.clientId c.claimant.userId := hpubl
    rw [hsame] at hp
    exact .inl hp
  | denied => exact .inr (.inl rfl)
  | dropped =>
    simp only [State.WillFits, hph] at hfits
    exact .inr (.inr hfits.2)

theorem WillSound.normal_not_published (hs : WillSound s) (hc : s.connectionAt i c)
    (hnorm : c.normalDisconnect) : i ∉ s.published.map Prod.fst := by
  intro hi
  obtain ⟨p, hp, hpi⟩ := List.mem_map.mp hi
  obtain ⟨d, _, hd, hph, -⟩ := hs.published p hp
  rw [hpi] at hd
  cases hc.symm.trans hd
  have hfits := hs.wills i c hc
  simp only [State.WillFits, hph, hnorm] at hfits
  cases hfits.1

/-- A DISCONNECT packet has been handled that drops the Will. -/
def Connection.DroppedWill (c : Connection) : Prop :=
  ∃ reasonCode expiry, c.disconnect = some (reasonCode, expiry) ∧
    DropsWill c.claimant.connect reasonCode expiry

/-- A connection has handled a DISCONNECT packet only when it has left, and the flag is that of its
reason code. -/
structure Connection.Disconnects (c : Connection) : Prop where
  before : c.phase.hasLeft = false → c.disconnect = none
  normal : c.normalDisconnect = true ↔ c.DroppedWill

def State.Disconnects (s : State) : Prop := ∀ i c, s.connectionAt i c → c.Disconnects

theorem Connection.Disconnects.keep (hc : c.Disconnects) (hpacket : c'.disconnect = c.disconnect)
    (hclaimant : c'.claimant = c.claimant) (hnormal : c'.normalDisconnect = c.normalDisconnect)
    (hleft : c'.phase.hasLeft = false → c.phase.hasLeft = false) : c'.Disconnects := by
  refine ⟨fun h => hpacket.trans (hc.before (hleft h)), ?_⟩
  rw [hnormal, hc.normal, Connection.DroppedWill, Connection.DroppedWill, hpacket, hclaimant]

theorem Moves.disconnects (h : Moves settings order s i c b c' effect) (hc : c.Disconnects) :
    c'.Disconnects := by
  cases h with
  | disconnected hph hhand =>
    have hnone := hc.before (by rw [hph]; rfl)
    have hnot : c.normalDisconnect ≠ true := by
      rw [Ne, hc.normal]
      rintro ⟨_, _, hsome, -⟩
      cases hnone.symm.trans hsome
    obtain ⟨_, normal, rfl, -, hnormal⟩ := handleDisconnect_eq hhand
    refine ⟨nofun, hnormal.trans ?_⟩
    simp [hnot, Connection.DroppedWill]
  | _ => exact hc.keep rfl rfl rfl (by rw [‹c.phase = _›]; first | exact id | exact fun _ => rfl)

theorem State.Disconnects.update (hs : s.Disconnects)
    (htasks : s'.tasks = Function.update s.tasks i (some t'))
    (hself : ∀ c, t' = .connection c → c.Disconnects) : s'.Disconnects := by
  intro j d hd
  rw [State.connectionAt, htasks, update_apply] at hd
  split at hd
  · exact hself d (Option.some.inj hd)
  · exact hs j d hd

theorem State.Disconnects.act (hs : s.Disconnects) (h : act settings order s a = some s') :
    s'.Disconnects := by
  cases act_steps h with
  | advanced => exact hs
  | started _ _ hnew =>
    refine hs.update rfl ?_
    rintro c rfl
    obtain ⟨claimant, rfl⟩ := hnew
    exact ⟨fun _ => rfl, by simp [Connection.DroppedWill]⟩
  | locked htask _ hlocks =>
    refine hs.update rfl ?_
    rintro _ rfl
    cases hlocks with
    | claim hphase =>
      exact (hs _ _ htask).keep rfl rfl rfl fun _ => by rw [hphase]; rfl
    | release hphase => exact (hs _ _ htask).keep rfl rfl rfl nofun
  | moved _ htask hmov =>
    refine hs.update tasks_moved ?_
    rintro _ ⟨⟩
    exact hmov.disconnects (hs _ _ htask)
  | swept | unlocked =>
    refine hs.update rfl fun _ hsweep => ?_
    cases hsweep

theorem Fresh.disconnects (h : Fresh s) : s.Disconnects := by
  intro i c hc
  rw [State.connectionAt, h.tasks] at hc
  cases hc

/-- In every run of the connections of any clients, the Will of a connection is published at most
once, and never after a DISCONNECT packet with another reason code than 0x04.  A connection that
has left can come to its end, and when it has, accepted and without such a packet, its Will has
been published, or it was denied, or it was delayed and a later connection of the client has
registered. -/
theorem will_contract {s₀ : State} (hfresh : Fresh s₀)
    (hrun : Reachable (act settings order) (fun _ _ => True) s₀ s) :
    (s.published.map Prod.fst).Nodup ∧
    ∀ i c, s.tasks i = some (.connection c) →
      (c.DroppedWill → i ∉ s.published.map Prod.fst) ∧
      (c.phase.hasLeft = true → s.CanEnd settings order i c) ∧
      ∀ outcome will, c.phase = .ended outcome → outcome ≠ .unaccepted →
        ¬ c.DroppedWill → c.claimant.connect.will = some will →
        (i, willPublish will c.clientId c.claimant.userId) ∈ s.published ∨ outcome = .denied ∨
          (c.willDelay.any (· ≠ 0) = true ∧ s.Superseded c) := by
  have hs : WillSound s := hrun.invariant hfresh.willSound fun _ _ _ hs _ h => hs.act h
  have howned : s.SlotsOwned := hrun.invariant hfresh.slotsOwned fun _ _ _ hs _ h => hs.act h
  have hpackets : s.Disconnects := hrun.invariant hfresh.disconnects fun _ _ _ hs _ h => hs.act h
  refine ⟨hs.once, fun i c hc => ?_⟩
  have hnormal := (hpackets i c hc).normal
  refine ⟨fun hdrop => hs.normal_not_published hc (hnormal.mpr hdrop), canEnd hs howned hc, ?_⟩
  intro outcome will hphase haccepted hdrop hwill
  exact hs.ended hc hphase haccepted (Bool.not_eq_true _ ▸ mt hnormal.mp hdrop) hwill

/-- A connection that has come to its end stays as it is. -/
theorem ended_stays (hc : s.tasks i = some (.connection c))
    (hph : c.phase = .ended outcome) (h : act settings order s a = some s') :
    s'.tasks i = some (.connection c) := by
  -- the task of the step is another one
  have other : ∀ j t', j ≠ i → update s.tasks j (some t') i = some (.connection c) := by
    intro j t' hji
    rw [update_of_ne (Ne.symm hji)]
    exact hc
  cases act_steps h with
  | advanced => exact hc
  | started _ hnone =>
    refine other _ _ ?_
    rintro rfl
    cases hnone.symm.trans hc
  | locked htask _ hlocks =>
    refine other _ _ ?_
    rintro rfl
    cases htask.symm.trans hc
    cases hlocks with
    | claim hacc => rw [hph] at hacc; cases hacc
    | release hleaving => rw [hph] at hleaving; cases hleaving
  | moved _ htask hmov =>
    rw [tasks_moved]
    refine other _ _ ?_
    rintro rfl
    cases htask.symm.trans hc
    have hless := hmov.remaining_lt (.inr (by rw [hph]; rfl))
    rw [hph] at hless
    exact absurd hless (Nat.not_lt_zero _)
  | swept htask | unlocked _ htask =>
    refine other _ _ ?_
    rintro rfl
    cases htask.symm.trans hc

/-! ## Two runs -/

/-- A Will, published after a delay. -/
def lastWill (delay : Option UInt32) : WillMessage :=
  ⟨"last", [], .atMostOnce, false, { willDelayInterval := delay }⟩

/-- A client with a Will, whose session ends 100 seconds after its connection. -/
def willing (delay : Option UInt32) (cleanStart : Bool) : Claimant where
  connect :=
    { protocolVersion := 5, cleanStart, keepAlive := 60, clientId := "c",
      will := some (lastWill delay),
      properties := (∅ : Properties).push .sessionExpiryInterval (.fourByteInteger 100) }

/-- From the CONNECT packet to the CONNACK. -/
def connecting (i : Nat) (claimant : Claimant) : List Action :=
  [.connect i claimant, .lock i, .read i, .write i true, .register i, .install i, .connack i true]

/-- From the end of the transport to the cleanup. -/
def leaving (i : Nat) : List Action :=
  [.close i, .lock i, .arm i, .releaseFlows i fun _ => true, .release i, .persist i true, .unlock i,
    .cleanup i true true]

def emptyBroker : State := { broker := { sessions := some ∅ } }

theorem fresh_emptyBroker : Fresh emptyBroker := ⟨rfl, rfl, fun _ => rfl, fun _ => rfl, rfl⟩

/-- What the runs below look at: how a connection has ended, and whether it resumed a session. -/
structure Report where
  outcome : Option WillOutcome
  disconnect : Option (ReasonCode × Option UInt32)
  will : Option WillMessage
  willDelay : Option UInt32
  cleanStart : Bool
  resume : Bool
  clientId : String
  userId : Option String
  deriving DecidableEq

def Connection.report (c : Connection) : Report where
  outcome := match c.phase with
    | .ended outcome => some outcome
    | _ => none
  disconnect := c.disconnect
  will := c.claimant.connect.will
  willDelay := c.willDelay
  cleanStart := c.claimant.connect.cleanStart
  resume := c.resume
  clientId := c.clientId
  userId := c.claimant.userId

def State.report (s : State) (i : Nat) : Option Report :=
  match s.tasks i with
  | some (.connection c) => some c.report
  | _ => none

theorem exists_of_report {report : Report} (h : s.report i = some report) :
    ∃ c, s.tasks i = some (.connection c) ∧
      (∀ outcome, report.outcome = some outcome → c.phase = .ended outcome) ∧
      c.disconnect = report.disconnect ∧ c.claimant.connect.will = report.will ∧
      c.willDelay = report.willDelay ∧ c.claimant.connect.cleanStart = report.cleanStart ∧
      c.resume = report.resume ∧ c.clientId = report.clientId ∧
        c.claimant.userId = report.userId := by
  unfold State.report at h
  split at h
  · rename_i c hc
    cases h
    refine ⟨c, hc, fun outcome h => ?_, rfl, rfl, rfl, rfl, rfl, rfl, rfl⟩
    unfold Connection.report at h
    dsimp only at h
    split at h
    · cases h
      assumption
    · cases h
  · cases h

/-- A Will without a delay is published when its connection is closed. -/
theorem will_contract_closed :
    ∃ (s : State) (c : Connection), s.tasks 0 = some (.connection c) ∧ c.phase = .ended .published ∧
      c.disconnect = none ∧ c.claimant.connect.will = some (lastWill none) ∧
      (0, willPublish (lastWill none) "c" none) ∈ s.published := by
  have hfinal : (follow (act {} fun _ => []) emptyBroker
      (connecting 0 (willing none false) ++ leaving 0)).map (·.report 0) =
        some (some ⟨some .published, none, some (lastWill none), some 0, false, false, "c",
          none⟩) := by
    decide +kernel
  obtain ⟨s, hfollow, hreport⟩ := map_eq_some_iff.mp hfinal
  obtain ⟨c, hc, houtcome, hpacket, hwill, hdelay, -, -, hclient, huser⟩ := exists_of_report hreport
  have hphase := houtcome _ rfl
  obtain ⟨-, hcontract⟩ := will_contract fresh_emptyBroker
    (Reachable.start.follow (fun _ _ _ => trivial) hfollow)
  have hkept : ¬ c.DroppedWill := by
    rintro ⟨_, _, hsome, -⟩
    cases hpacket.symm.trans hsome
  have hend := (hcontract 0 c hc).2.2 .published (lastWill none) hphase (by simp) hkept hwill
  rw [hclient, huser] at hend
  refine ⟨s, c, hc, hphase, hpacket, hwill, ?_⟩
  rcases hend with hpublished | hdenied | ⟨hdelayed, -⟩
  · exact hpublished
  · cases hdenied
  · simp [hdelay] at hdelayed

/-- A new connection with a clean start ends the old session before the delay of its Will has
passed, and the Will is never published. -/
theorem clean_start_drops_will :
    ∃ s c d, Reachable (act {} fun _ => []) (fun _ _ => True) emptyBroker s ∧
      s.tasks 0 = some (.connection c) ∧ c.phase = .ended .dropped ∧ c.disconnect = none ∧
      c.claimant.connect.will = some (lastWill (some 10)) ∧ c.willDelay = some 10 ∧
      s.tasks 1 = some (.connection d) ∧ d.clientId = c.clientId ∧
      d.claimant.connect.cleanStart = true ∧ d.resume = false ∧
      ∀ s', Reachable (act {} fun _ => []) (fun _ _ => True) s s' →
        0 ∉ s'.published.map Prod.fst := by
  have hfinal : (follow (act {} fun _ => []) emptyBroker
      (connecting 0 (willing (some 10) false) ++ leaving 0 ++ connecting 1 (willing none true) ++
        [.fire 0 true])).map (fun s => (s.report 0, s.report 1)) =
        some (some ⟨some .dropped, none, some (lastWill (some 10)), some 10, false, false, "c",
          none⟩,
          some ⟨none, none, some (lastWill none), some 0, true, false, "c", none⟩) := by
    decide +kernel
  obtain ⟨s, hfollow, hreports⟩ := map_eq_some_iff.mp hfinal
  obtain ⟨hfirst, hsecond⟩ := Prod.mk.inj hreports
  obtain ⟨c, hc, houtcome, hnormal, hwill, hdelay, -, -, hclient, -⟩ := exists_of_report hfirst
  obtain ⟨d, hd, -, -, -, -, hclean, hresume, hdclient, -⟩ := exists_of_report hsecond
  have hphase := houtcome _ rfl
  have hrun : Reachable (act {} fun _ => []) (fun _ _ => True) emptyBroker s :=
    Reachable.start.follow (fun _ _ _ => trivial) hfollow
  have hs : WillSound s := hrun.invariant fresh_emptyBroker.willSound fun _ _ _ hs _ h => hs.act h
  refine ⟨s, c, d, hrun, hc, hphase, hnormal, hwill, hdelay, hd, hdclient.trans hclient.symm,
    hclean, hresume, ?_⟩
  intro s' hlater
  have hc' : s'.tasks 0 = some (.connection c) := by
    induction hlater with
    | start => exact hc
    | step _ _ enabled ih => exact ended_stays ih hphase enabled
  have hs' : WillSound s' := hlater.invariant hs fun _ _ _ hs _ h => hs.act h
  intro hpublished
  obtain ⟨p, hp, hp0⟩ := List.mem_map.mp hpublished
  obtain ⟨e, will, he, hended, -⟩ := hs'.published p hp
  rw [hp0] at he
  cases hc'.symm.trans he
  rw [hphase] at hended
  cases hended

end MqttLib.Broker.Lifecycle
