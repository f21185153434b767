/-
MqttLib.Broker.Wills

What becomes of the Will Message of a connection, in every run of the connections of a broker:
it is published at most once, never after a normal DISCONNECT packet, and otherwise always,
unless it is denied, or delayed and a later connection of the client comes before its timer.
-/

import MqttLib.Broker.Lifecycle

namespace MqttLib.Broker

open Foundation Protocol Storage Function Finmap List

namespace BrokerState

/-- The connections and the pending Wills are the same. -/
structure WillsSteady (b b' : BrokerState) : Prop where
  clients : b'.clients = b.clients
  pendingWills : b'.pendingWills = b.pendingWills
  generations : b'.generations = b.generations

variable {b b' b'' : BrokerState} {clientId : String} {generation : Nat} {written : Bool}

theorem WillsSteady.refl (b : BrokerState) : WillsSteady b b := ⟨rfl, rfl, rfl⟩

theorem WillsSteady.trans (h : WillsSteady b b') (h' : WillsSteady b' b'') : WillsSteady b b'' :=
  ⟨h'.clients.trans h.clients, h'.pendingWills.trans h.pendingWills,
    h'.generations.trans h.generations⟩

theorem willsSteady_updateStored {update : ClientSession → ClientSession} :
    WillsSteady b (b.updateStored clientId generation written update) := by
  unfold updateStored
  split
  · exact ⟨rfl, rfl, rfl⟩
  · exact WillsSteady.refl b

theorem willsSteady_finishQueue {discard : Bool} :
    WillsSteady b (b.finishQueue clientId discard) := by
  unfold finishQueue
  split
  · exact ⟨rfl, rfl, rfl⟩
  · exact WillsSteady.refl b

theorem willsSteady_removeFlowSubscriptions {flows : Finset UInt64} {written : UInt64 → Bool} :
    WillsSteady b (b.removeFlowSubscriptions clientId generation flows written) := by
  unfold removeFlowSubscriptions
  dsimp only
  split
  · refine WillsSteady.trans ?_ willsSteady_updateStored
    exact ⟨rfl, rfl, rfl⟩
  · exact WillsSteady.refl b

variable {session : ClientSession} {now : SystemTime}

theorem willsSteady_releaseSessionFlows {written : UInt64 → Bool} :
    WillsSteady b (b.releaseSessionFlows clientId generation session written now).1 := by
  unfold releaseSessionFlows
  dsimp only
  split
  · exact WillsSteady.refl b
  · refine WillsSteady.trans (WillsSteady.trans ?_ willsSteady_removeFlowSubscriptions)
      ⟨rfl, rfl, rfl⟩
    exact ⟨rfl, rfl, rfl⟩

/-- The flows are released with the subscriptions only. -/
theorem releaseSessionFlows_will {written : UInt64 → Bool} :
    (b.releaseSessionFlows clientId generation session written now).2.willMessage =
        session.willMessage ∧
      (b.releaseSessionFlows clientId generation session written now).2.willPublishDelay =
        session.willPublishDelay := by
  unfold releaseSessionFlows
  dsimp only
  split <;> exact ⟨rfl, rfl⟩

theorem willsSteady_persistSessionEnd {normal : Bool} :
    WillsSteady b (b.persistSessionEnd clientId generation session normal now) := by
  unfold persistSessionEnd
  split
  · split
    · exact WillsSteady.refl b
    · exact ⟨rfl, rfl, rfl⟩
  · exact willsSteady_updateStored

/-- A claim is of the CONNECT packet's Will. -/
theorem prepareClaim_will {settings : BrokerSettings} {claimant : Claimant} :
    (b.prepareClaim settings claimant now).2.session.willMessage = claimant.connect.will := by
  show (sessionForClaim settings claimant _ _ now).willMessage = _
  unfold sessionForClaim
  split <;> rfl

end BrokerState

namespace Lifecycle

open BrokerState

/-! ## Later connections -/

def Phase.hasRegistered : Phase → Bool
  | .accepted | .locked | .claimed _ | .stored _ | .refused => false
  | _ => true

/-- From the registration to the release of the router's entry. -/
def Phase.isRegistered : Phase → Bool
  | .registered _ | .connecting | .serving | .leaving _ | .releasing _ | .armed .. | .unflowed .. =>
    true
  | _ => false

/-- The connection has a session of its own. -/
def Phase.hasSession : Phase → Bool
  | .accepted | .locked | .claimed _ | .stored _ | .registered _ | .refused => false
  | _ => true

def State.connectionAt (s : State) (i : Nat) (c : Connection) : Prop :=
  s.tasks i = some (.connection c)

/-- A later connection of the client has registered. -/
def State.Superseded (s : State) (c : Connection) : Prop :=
  ∃ j c', s.connectionAt j c' ∧ c'.clientId = c.clientId ∧ c.generation < c'.generation ∧
    c'.phase.hasRegistered = true

variable {settings : BrokerSettings}
  {order : Table String StoredSubscription → List (String × StoredSubscription)}
  {s s' : State} {i j : Nat} {t t' : Task} {b b' : BrokerState} {c c' d : Connection} {a : Action}
  {effect : Effect} {info : ClientInfo}

/-- A registered connection stays one, with its generation. -/
theorem Moves.registered_keeps (h : Moves settings order s i c b c' effect)
    (hreg : c.phase.hasRegistered) :
    c'.phase.hasRegistered ∧ c'.generation = c.generation := by
  cases h with
  | disconnected hph hhand =>
    obtain ⟨_, _, rfl, -⟩ := handleDisconnect_eq hhand
    exact ⟨rfl, rfl⟩
  | mismatched hph | claimed hph | stored hph | unwritten hph =>
    rw [hph] at hreg; cases hreg
  | _ => exact ⟨rfl, rfl⟩

theorem connectionAt_moved (hne : j ≠ i) : (s.moved i b c' effect).connectionAt j d ↔
    s.connectionAt j d := by
  unfold State.connectionAt
  rw [tasks_moved, update_of_ne hne]

theorem connectionAt_moved_self : (s.moved i b c' effect).connectionAt i d ↔ d = c' := by
  unfold State.connectionAt
  rw [tasks_moved, update_self]
  constructor
  · intro h
    cases h
    rfl
  · rintro rfl
    rfl

theorem connectionAt_moved_cases (hd : (s.moved i b c' effect).connectionAt j d) :
    (j = i ∧ d = c') ∨ (j ≠ i ∧ s.connectionAt j d) := by
  by_cases hji : j = i
  · rw [hji] at hd
    exact .inl ⟨hji, connectionAt_moved_self.mp hd⟩
  · exact .inr ⟨hji, (connectionAt_moved hji).mp hd⟩

theorem Moves.superseded (h : Moves settings order s i c b c' effect) (hc : s.connectionAt i c)
    (hd : s.Superseded d) : (s.moved i b c' effect).Superseded d := by
  obtain ⟨j, e, he, hcl, hlater, hreg⟩ := hd
  by_cases hji : j = i
  · rw [hji] at he
    cases hc.symm.trans he
    obtain ⟨hkeeps, hgen⟩ := h.registered_keeps hreg
    exact ⟨i, c', connectionAt_moved_self.mpr rfl, h.clientId_eq.trans hcl, hgen ▸ hlater, hkeeps⟩
  · exact ⟨j, e, (connectionAt_moved hji).mpr he, hcl, hlater, hreg⟩

/-! ## The invariant -/

/-- What is known of a Will that is armed, or not. -/
def State.ArmedFits (s : State) (c : Connection) (exit : Exit) (armed : Bool) : Prop :=
  if armed then
    c.normalDisconnect = false ∧
      (s.broker.pendingWills.lookup c.clientId = some c.generation ∨ s.Superseded c)
  else
    exit = .abandoned ∨ c.normalDisconnect = true ∨ c.willDelay.any (· ≠ 0) = false ∨ s.Superseded c

/-- What is known of a connection's Will in its phase. -/
def State.WillFits (s : State) (i : Nat) (c : Connection) : Prop :=
  match c.phase with
  | .leaving exit | .releasing exit => exit = .takenOver → s.Superseded c
  | .armed exit armed | .unflowed exit armed | .persisting exit armed | .unlocking exit armed _
  | .cleaning exit armed _ => s.ArmedFits c exit armed
  | .waiting _ => c.normalDisconnect = false ∧ c.willDelay.any (· ≠ 0) = true ∧
      (s.broker.pendingWills.lookup c.clientId = some c.generation ∨ s.Superseded c)
  | .publishing => c.normalDisconnect = false ∧ c.willDelay.any (· ≠ 0) = true
  | .ended .nothing => c.normalDisconnect = true ∨ c.claimant.connect.will = none
  | .ended .published => c.normalDisconnect = false ∧ i ∈ s.published.map Prod.fst
  | .ended .denied => c.normalDisconnect = false
  | .ended .dropped => c.normalDisconnect = false ∧ c.willDelay.any (· ≠ 0) = true ∧ s.Superseded c
  | _ => True

/-- What is known of a connection's generation, and of its claim. -/
structure State.ClaimFits (s : State) (i : Nat) (c : Connection) : Prop where
  bounded : c.generation ≤ s.broker.generations
  positive : c.phase.hasRegistered = true → 0 < c.generation
  claim : ∀ claim, c.phase = .claimed claim ∨ c.phase = .stored claim ∨
    c.phase = .registered claim →
    claim.generation = c.generation ∧ claim.session.willMessage = c.claimant.connect.will
  newest : ∀ claim, c.phase = .claimed claim ∨ c.phase = .stored claim →
    0 < c.generation ∧ ∀ j d, s.connectionAt j d → d.clientId = c.clientId →
      d.phase.hasRegistered = true → d.generation < c.generation
  owner : c.phase.isRegistered = true →
    s.broker.clients.lookup c.clientId = some ⟨c.generation, i⟩ ∨ s.Superseded c
  notice : s.notices i = true → c.phase.hasRegistered = true ∧ s.Superseded c
  will : c.phase.hasSession = true → c.normalDisconnect = false →
    c.will = c.claimant.connect.will

/-- The router's entry is of the latest connection. -/
def State.EntryFits (s : State) (clientId : String) (info : ClientInfo) : Prop :=
  (∃ c, s.connectionAt info.connection c ∧ c.clientId = clientId ∧
    c.generation = info.generation ∧ c.phase.hasRegistered = true) ∧
  ∀ j d, s.connectionAt j d → d.clientId = clientId → d.phase.hasRegistered = true →
    d.generation ≤ info.generation

section

variable {exit : Exit} {armed : Bool} (later : s.Superseded c → s'.Superseded c)
include later

theorem State.ArmedFits.mono (hfits : s.ArmedFits c exit armed)
    (pending : s.broker.pendingWills.lookup c.clientId = some c.generation ∨ s.Superseded c →
      s'.broker.pendingWills.lookup c.clientId = some c.generation ∨ s'.Superseded c) :
    s'.ArmedFits c exit armed := by
  cases armed with
  | true => exact ⟨hfits.1, pending hfits.2⟩
  | false => exact hfits.imp_right (Or.imp_right (Or.imp_right later))

/-- What is known of a Will stays so where later connections, the pending Wills of registered
connections and what has been published stay. -/
theorem State.WillFits.mono (hfits : s.WillFits i c) (pending : c.phase.hasRegistered →
      s.broker.pendingWills.lookup c.clientId = some c.generation ∨ s.Superseded c →
      s'.broker.pendingWills.lookup c.clientId = some c.generation ∨ s'.Superseded c)
    (published : s.published ⊆ s'.published) : s'.WillFits i c := by
  obtain ⟨_, phase, generation, _, _, _⟩ := c
  cases phase with
  | leaving exit | releasing exit => exact fun hexit => later (hfits hexit)
  | armed exit a | unflowed exit a | persisting exit a | unlocking exit a owned
  | cleaning exit a owned => exact State.ArmedFits.mono later hfits (pending rfl)
  | waiting _ => exact ⟨hfits.1, hfits.2.1, pending rfl hfits.2.2⟩
  | ended outcome =>
    cases outcome with
    | published => exact ⟨hfits.1, map_subset _ published hfits.2⟩
    | dropped => exact ⟨hfits.1, hfits.2.1, later hfits.2.2⟩
    | _ => exact hfits
  | _ => exact hfits

end

structure WillSound (s : State) : Prop where
  slots : s.SlotsHeld
  noticed : ∀ i, s.notices i = true → s.tasks i ≠ none
  distinct : ∀ i j c d, s.connectionAt i c → s.connectionAt j d → c.generation = d.generation →
    0 < c.generation → i = j
  claims : ∀ i c, s.connectionAt i c → s.ClaimFits i c
  wills : ∀ i c, s.connectionAt i c → s.WillFits i c
  entry : ∀ clientId info, s.broker.clients.lookup clientId = some info → s.EntryFits clientId info
  published : ∀ p ∈ s.published, ∃ c will, s.connectionAt p.1 c ∧ c.phase = .ended .published ∧
    c.claimant.connect.will = some will ∧ p.2 = willPublish will c.clientId c.claimant.userId
  once : (s.published.map Prod.fst).Nodup

/-! ## What a step means for the other connections -/

/-- What a step of a connection does to the tables the Wills depend on. -/
inductive Kind (s : State) (i : Nat) (c : Connection) (b : BrokerState) (c' : Connection) :
    Effect → Prop where
  | steady {effect : Effect} (hsteady : WillsSteady s.broker b) (heffect : effect ≠ .notifies)
      (hregistered : c'.phase.hasRegistered = c.phase.hasRegistered)
      (hgeneration : c'.generation = c.generation) : Kind s i c b c' effect
  | claims (hphase : c.phase = .locked) (hclients : b.clients = s.broker.clients)
      (hwills : b.pendingWills = s.broker.pendingWills)
      (hgenerations : b.generations = s.broker.generations + 1)
      (hgeneration : c'.generation = s.broker.generations + 1)
      (hregistered : c'.phase.hasRegistered = false) : Kind s i c b c' .quiet
  | registers {claim : Claim} (hphase : c.phase = .stored claim)
      (hclients : b.clients = s.broker.clients.insert c.clientId ⟨claim.generation, i⟩)
      (hwills : b.pendingWills = s.broker.pendingWills.erase c.clientId)
      (hgenerations : b.generations = s.broker.generations)
      (hregistered : c'.phase.hasRegistered = true) (hgeneration : c'.generation = c.generation) :
      Kind s i c b c' .notifies
  | arms (howner : s.broker.isCurrentOwner c.clientId c.generation = true)
      (hclients : b.clients = s.broker.clients)
      (hwills : b.pendingWills = s.broker.pendingWills.insert c.clientId c.generation)
      (hgenerations : b.generations = s.broker.generations)
      (hbefore : c.phase.hasRegistered = true) (hregistered : c'.phase.hasRegistered = true)
      (hgeneration : c'.generation = c.generation) : Kind s i c b c' .quiet
  | releases (howner : s.broker.isCurrentOwner c.clientId c.generation = true)
      (hclients : b.clients = s.broker.clients.erase c.clientId)
      (hwills : b.pendingWills = s.broker.pendingWills)
      (hgenerations : b.generations = s.broker.generations)
      (hbefore : c.phase.hasRegistered = true) (hregistered : c'.phase.hasRegistered = true)
      (hgeneration : c'.generation = c.generation) : Kind s i c b c' .quiet
  | takes (harmed : s.broker.pendingWills.lookup c.clientId = some c.generation)
      (hclients : b.clients = s.broker.clients)
      (hwills : b.pendingWills = s.broker.pendingWills.erase c.clientId)
      (hgenerations : b.generations = s.broker.generations)
      (hbefore : c.phase.hasRegistered = true) (hregistered : c'.phase.hasRegistered = true)
      (hgeneration : c'.generation = c.generation) : Kind s i c b c' .quiet

theorem willsSteady_handleDisconnect {reasonCode : ReasonCode} {expiry : Option UInt32}
    {written : Bool} (h : handleDisconnect settings s c reasonCode expiry written = some (b, c')) :
    WillsSteady s.broker b := by
  unfold handleDisconnect at h
  dsimp only at h
  split at h
  · cases h
    exact .refl _
  · split at h
    · cases h
      exact .refl _
    · split at h
      · cases h
      cases h
      exact willsSteady_updateStored

theorem Moves.kind (h : Moves settings order s i c b c' effect) : Kind s i c b c' effect := by
  cases h with
  | mismatched hph => exact .steady (.refl _) (by simp) (by rw [hph]; rfl) rfl
  | claimed hph => exact .claims hph rfl rfl rfl rfl rfl
  | stored hph | unwritten hph | installed hph =>
    exact .steady ⟨rfl, rfl, rfl⟩ (by simp) (by rw [hph]; rfl) rfl
  | registered hph => exact .registers hph rfl rfl rfl rfl rfl
  | disconnected hph hhand =>
    obtain ⟨_, _, rfl, -⟩ := handleDisconnect_eq hhand
    exact .steady (willsSteady_handleDisconnect hhand) (by simp) (by rw [hph]; rfl) rfl
  | arming hph =>
    cases hown : s.broker.isCurrentOwner c.clientId c.generation with
    | true =>
      refine .arms hown ?_ ?_ ?_ (by rw [hph]; rfl) rfl rfl <;> simp [armWill, hown]
    | false =>
      refine .steady ?_ (by simp) (by rw [hph]; rfl) rfl
      simp only [armWill, hown]
      exact .refl _
  | unflowed hph =>
    exact .steady willsSteady_releaseSessionFlows (by simp) (by rw [hph]; rfl) rfl
  | released hph hown =>
    refine .releases hown ?_ ?_ ?_ (by rw [hph]; rfl) rfl rfl <;> simp [releaseClient, hown]
  | persisted hph =>
    exact .steady willsSteady_persistSessionEnd (by simp) (by rw [hph]; rfl) rfl
  | abandoned hph | unwilling hph | willDelayed hph | willDropped hph =>
    exact .steady willsSteady_finishQueue (by simp) (by rw [hph]; rfl) rfl
  | willPublished hph | willDenied hph =>
    exact .steady (willsSteady_finishQueue.trans willsSteady_updateStored) (by simp)
      (by rw [hph]; rfl) rfl
  | fired hph harmed =>
    refine .takes harmed ?_ ?_ ?_ (by rw [hph]; rfl) rfl rfl <;>
      simp only [claimWill, if_pos harmed, clearStoredWill]
    · exact willsSteady_updateStored.clients
    · exact willsSteady_updateStored.pendingWills
    · exact willsSteady_updateStored.generations
  | _ => exact .steady (.refl _) (by simp) (by rw [‹c.phase = _›]; rfl) rfl

/-- Every registered connection but the one in the router's entry has a later one. -/
theorem WillSound.superseded_of_entry (hs : WillSound s)
    (hinfo : s.broker.clients.lookup d.clientId = some info) (hd : s.connectionAt j d)
    (hreg : d.phase.hasRegistered) (hne : j ≠ info.connection) : s.Superseded d := by
  obtain ⟨⟨e, he, hcl, hgen, hreg'⟩, hlat⟩ := hs.entry _ info hinfo
  refine ⟨info.connection, e, he, hcl, ?_, hreg'⟩
  refine lt_of_le_of_ne (hgen ▸ hlat j d hd rfl hreg) fun heq => hne ?_
  exact hs.distinct j info.connection d e hd he heq ((hs.claims j d hd).positive hreg)

/-- A current owner is the connection in the router's entry. -/
theorem WillSound.owner_eq (hs : WillSound s) (hc : s.connectionAt i c)
    (hreg : c.phase.hasRegistered) (hown : s.broker.isCurrentOwner c.clientId c.generation) :
    s.broker.clients.lookup c.clientId = some ⟨c.generation, i⟩ := by
  unfold isCurrentOwner at hown
  rw [Option.any_eq_true] at hown
  obtain ⟨info, hinfo, hgen⟩ := hown
  rw [beq_iff_eq] at hgen
  obtain ⟨⟨e, he, -, hsame, -⟩, -⟩ := hs.entry _ info hinfo
  have hi : i = info.connection := hs.distinct i info.connection c e hc he
    (hgen.symm.trans hsame.symm) ((hs.claims i c hc).positive hreg)
  rw [hinfo, hi, ← hgen]

/-- A registration supersedes the other connections of the client. -/
theorem WillSound.superseded_of_registers (hs : WillSound s) (hc : s.connectionAt i c)
    {claim : Claim}
    (hph : c.phase = .stored claim) (hid : c'.clientId = c.clientId)
    (hreg : c'.phase.hasRegistered) (hgen : c'.generation = c.generation)
    (hd : s.connectionAt j d) (hcl : d.clientId = c.clientId)
    (hpre : d.phase.hasRegistered) : (s.moved i b c' effect).Superseded d := by
  have hlater := ((hs.claims i c hc).newest claim (.inr hph)).2 j d hd hcl hpre
  exact ⟨i, c', connectionAt_moved_self.mpr rfl, hid.trans hcl.symm, hgen ▸ hlater, hreg⟩

variable {phase : Phase} {clientId : String}

theorem isRegistered_hasRegistered (h : phase.isRegistered) : phase.hasRegistered := by
  cases phase <;> first | rfl | cases h

theorem notices_moved (hne : effect ≠ .notifies) : (s.moved i b c' effect).notices = s.notices := by
  cases effect with
  | notifies => exact (hne rfl).elim
  | _ => rfl

theorem notices_notifies (h : (s.moved i b c' .notifies).notices j) :
    s.notices j ∨
      ∃ info, s.broker.clients.lookup c'.clientId = some info ∧ info.connection = j := by
  dsimp only [State.moved, State.setTask, State.notify] at h
  split at h
  · exact .inl h
  · rename_i info hinfo
    dsimp only at h
    rw [update_apply] at h
    split at h
    · rename_i hj
      exact .inr ⟨info, hinfo, hj.symm⟩
    · exact .inl h

theorem Moves.generations_le (h : Moves settings order s i c b c' effect) :
    s.broker.generations ≤ b.generations := by
  cases h.kind with
  | steady hstdy => exact hstdy.generations.ge
  | claims _ _ _ hgens => exact hgens ▸ Nat.le_succ _
  | registers _ _ _ hgens | arms _ _ _ hgens | releases _ _ _ hgens
  | takes _ _ _ hgens => exact hgens.ge

theorem published_moved {p : Nat × PublishPacket} (hp : p ∈ s.published) :
    p ∈ (s.moved i b c' effect).published := by
  cases effect with
  | publishes _ => exact mem_append_left _ hp
  | notifies =>
    dsimp only [State.moved, State.setTask, State.notify]
    split <;> exact hp
  | _ => exact hp

section

variable (hs : WillSound s) (hc : s.connectionAt i c)
  (h : Moves settings order s i c b c' effect) (hd : s.connectionAt j d)
include hs hc h hd

/-- Another connection keeps the router's entry, unless a later one registers. -/
theorem WillSound.owner_other (hne : j ≠ i) (hreg : d.phase.hasRegistered)
    (hown : s.broker.clients.lookup d.clientId = some ⟨d.generation, j⟩) :
    b.clients.lookup d.clientId = some ⟨d.generation, j⟩ ∨
      (s.moved i b c' effect).Superseded d := by
  cases h.kind with
  | steady hstdy => exact .inl (hstdy.clients ▸ hown)
  | claims _ hcls | arms _ hcls | takes _ hcls => exact .inl (hcls ▸ hown)
  | registers hph hcls _ _ hafter hgen =>
    by_cases hcl : d.clientId = c.clientId
    · exact .inr (hs.superseded_of_registers hc hph h.clientId_eq hafter hgen hd hcl hreg)
    · rw [hcls, lookup_insert_of_ne _ hcl]
      exact .inl hown
  | releases hmine hcls _ _ hpre =>
    by_cases hcl : d.clientId = c.clientId
    · have hent := hs.owner_eq hc hpre hmine
      rw [← hcl, hown] at hent
      exact absurd (ClientInfo.mk.inj (Option.some.inj hent)).2 hne
    · rw [hcls, lookup_erase_ne hcl]
      exact .inl hown

/-- Another connection keeps its pending Will, unless a later one registers. -/
theorem WillSound.pending_other (hne : j ≠ i) (hreg : d.phase.hasRegistered)
    (hpend : s.broker.pendingWills.lookup d.clientId = some d.generation) :
    b.pendingWills.lookup d.clientId = some d.generation ∨
      (s.moved i b c' effect).Superseded d := by
  cases h.kind with
  | steady hstdy => exact .inl (hstdy.pendingWills ▸ hpend)
  | claims _ _ hwills | releases _ _ hwills => exact .inl (hwills ▸ hpend)
  | registers hph _ hwills _ hafter hgen =>
    by_cases hcl : d.clientId = c.clientId
    · exact .inr (hs.superseded_of_registers hc hph h.clientId_eq hafter hgen hd hcl hreg)
    · rw [hwills, lookup_erase_ne hcl]
      exact .inl hpend
  | arms hmine _ hwills _ hpre =>
    by_cases hcl : d.clientId = c.clientId
    · have hent := hs.owner_eq hc hpre hmine
      rw [← hcl] at hent
      exact .inr (h.superseded hc (hs.superseded_of_entry hent hd hreg hne))
    · rw [hwills, lookup_insert_of_ne _ hcl]
      exact .inl hpend
  | takes harmed _ hwills =>
    by_cases hcl : d.clientId = c.clientId
    · rw [hcl, harmed] at hpend
      exact absurd (hs.distinct j i d c hd hc (Option.some.inj hpend).symm
        ((hs.claims j d hd).positive hreg)) hne
    · rw [hwills, lookup_erase_ne hcl]
      exact .inl hpend

/-- A connection a take-over notice is sent to has a later one. -/
theorem WillSound.notice_other (hnote : (s.moved i b c' effect).notices j) :
    d.phase.hasRegistered ∧ (s.moved i b c' effect).Superseded d := by
  have hold : s.notices j = true →
      d.phase.hasRegistered = true ∧ (s.moved i b c' effect).Superseded d := fun hj =>
    ((hs.claims j d hd).notice hj).imp_right (h.superseded hc)
  by_cases heffect : effect = .notifies
  · subst heffect
    rcases notices_notifies hnote with hj | ⟨info, hinfo, hj⟩
    · exact hold hj
    · cases h.kind with
      | steady _ hno => exact (hno rfl).elim
      | registers hph _ _ _ hafter hgen =>
        rw [h.clientId_eq] at hinfo
        obtain ⟨⟨e, he, hcl, -, hreg⟩, -⟩ := hs.entry _ info hinfo
        rw [hj] at he
        cases hd.symm.trans he
        exact ⟨hreg, hs.superseded_of_registers hc hph h.clientId_eq hafter hgen hd hcl hreg⟩
  · rw [notices_moved heffect] at hnote
    exact hold hnote

/-- A connection that claims stays the newest of its client: nobody else registers. -/
theorem WillSound.newest_other (hne : j ≠ i) {claim : Claim}
    (hph : d.phase = .claimed claim ∨ d.phase = .stored claim) :
    ∀ k e, (s.moved i b c' effect).connectionAt k e → e.clientId = d.clientId →
      e.phase.hasRegistered → e.generation < d.generation := by
  obtain ⟨-, hnewest⟩ := (hs.claims j d hd).newest claim hph
  intro k e he hcl hreg
  rcases connectionAt_moved_cases he with ⟨rfl, rfl⟩ | ⟨hki, he⟩
  · have hid := h.clientId_eq
    cases h.kind with
    | steady _ _ hsame hgen =>
      rw [hgen]
      exact hnewest _ c hc (hid.symm.trans hcl) (hsame ▸ hreg)
    | claims _ _ _ _ _ hno => rw [hno] at hreg; cases hreg
    | registers hsto =>
      -- both are in the section of the same slot
      have hslotc := hs.slots _ _ hc (by simp [Task.holdsSlot, hsto, Phase.holdsSlot])
      have hslotd := hs.slots j _ hd (by
        rcases hph with hph | hph <;> simp [Task.holdsSlot, hph, Phase.holdsSlot])
      have hsame : c.clientId = d.clientId := hid.symm.trans hcl
      rw [Task.clientId, hsame] at hslotc
      exact absurd (Option.some.inj (hslotc.symm.trans hslotd)).symm hne
    | arms _ _ _ _ hpre _ hgen | releases _ _ _ _ hpre _ hgen
    | takes _ _ _ _ hpre _ hgen =>
      rw [hgen]
      exact hnewest _ c hc (hid.symm.trans hcl) hpre
  · exact hnewest k e he hcl hreg

theorem WillSound.claimFits_other (hne : j ≠ i) : (s.moved i b c' effect).ClaimFits j d := by
  have hfits := hs.claims j d hd
  refine ⟨?_, hfits.positive, hfits.claim, ?_, ?_, hs.notice_other hc h hd, hfits.will⟩
  · rw [broker_moved]
    exact hfits.bounded.trans h.generations_le
  · exact fun claim hph => ⟨(hfits.newest claim hph).1, hs.newest_other hc h hd hne hph⟩
  · intro hreg
    rw [broker_moved]
    rcases hfits.owner hreg with hown | hsup
    · exact hs.owner_other hc h hd hne (isRegistered_hasRegistered hreg) hown
    · exact .inr (h.superseded hc hsup)

theorem WillSound.willFits_other (hne : j ≠ i) : (s.moved i b c' effect).WillFits j d := by
  refine (hs.wills j d hd).mono (h.superseded hc) ?_ (fun _ => published_moved)
  rintro hreg (hpend | hsup)
  · rw [broker_moved]
    exact hs.pending_other hc h hd hne hreg hpend
  · exact .inr (h.superseded hc hsup)

end

/-! ## What a step means for its own connection -/

theorem State.Superseded.congr (h : s.Superseded c) (hid : c'.clientId = c.clientId)
    (hgen : c'.generation = c.generation) : s.Superseded c' := by
  obtain ⟨j, e, he, hcl, hlater, hreg⟩ := h
  exact ⟨j, e, he, hcl.trans hid.symm, hgen ▸ hlater, hreg⟩

theorem Moves.generation_eq (h : Moves settings order s i c b c' effect) (hne : c.phase ≠ .locked) :
    c'.generation = c.generation := by
  cases h.kind with
  | claims hph => exact (hne hph).elim
  | steady _ _ _ hgen | registers _ _ _ _ _ hgen | arms _ _ _ _ _ _ hgen
  | releases _ _ _ _ _ _ hgen | takes _ _ _ _ _ _ hgen => exact hgen

/-- A later connection is one after the step, too. -/
theorem Moves.superseded_self (h : Moves settings order s i c b c' effect) (hc : s.connectionAt i c)
    (hne : c.phase ≠ .locked) (hsup : s.Superseded c) :
    (s.moved i b c' effect).Superseded c' :=
  (h.superseded hc hsup).congr h.clientId_eq (h.generation_eq hne)

theorem ne_locked_of_hasRegistered (h : c.phase.hasRegistered) : c.phase ≠ .locked := by
  intro hph
  rw [hph] at h
  cases h

section

variable (hs : WillSound s) (hc : s.connectionAt i c) (h : Moves settings order s i c b c' effect)
include hs hc h

theorem WillSound.bounded_self :
    c'.generation ≤ b.generations ∧ (c'.phase.hasRegistered → 0 < c'.generation) := by
  have hfits := hs.claims i c hc
  cases h.kind with
  | steady hstdy _ hreg hgen =>
    rw [hgen, hstdy.generations, hreg]
    exact ⟨hfits.bounded, hfits.positive⟩
  | claims _ _ _ hgens hgen =>
    rw [hgens, hgen]
    exact ⟨le_rfl, fun _ => Nat.succ_pos _⟩
  | registers hph _ _ hgens _ hgen =>
    rw [hgens, hgen]
    exact ⟨hfits.bounded, fun _ => (hfits.newest _ (.inr hph)).1⟩
  | arms _ _ _ hgens hpre _ hgen
  | releases _ _ _ hgens hpre _ hgen
  | takes _ _ _ hgens hpre _ hgen =>
    rw [hgens, hgen]
    exact ⟨hfits.bounded, fun _ => hfits.positive hpre⟩

/-- The claim of a connection is of its generation and its Will. -/
theorem WillSound.claim_self (claim : Claim)
    (hph : c'.phase = .claimed claim ∨ c'.phase = .stored claim ∨ c'.phase = .registered claim) :
    claim.generation = c'.generation ∧ claim.session.willMessage = c'.claimant.connect.will := by
  have hfits := hs.claims i c hc
  cases h with
  | claimed =>
    rcases hph with hph | hph | hph <;> cases hph
    exact ⟨rfl, prepareClaim_will⟩
  | stored hpre =>
    rcases hph with hph | hph | hph <;> cases hph
    exact hfits.claim _ (.inl hpre)
  | registered hpre =>
    rcases hph with hph | hph | hph <;> cases hph
    exact hfits.claim _ (.inr (.inl hpre))
  | disconnected _ hhand =>
    obtain ⟨session, _, rfl, -⟩ := handleDisconnect_eq hhand
    rcases hph with hph | hph | hph <;> cases hph
  | _ => rcases hph with hph | hph | hph <;> cases hph

theorem WillSound.newest_self (claim : Claim)
    (hph : c'.phase = .claimed claim ∨ c'.phase = .stored claim) :
    0 < c'.generation ∧ ∀ j d, (s.moved i b c' effect).connectionAt j d → d.clientId = c'.clientId →
      d.phase.hasRegistered → d.generation < c'.generation := by
  have hnot : c'.phase.hasRegistered = false := by
    rcases hph with hph | hph <;> rw [hph] <;> rfl
  -- the others were there before
  have others : (∀ j d, s.connectionAt j d → d.clientId = c'.clientId →
      d.phase.hasRegistered = true → d.generation < c'.generation) →
      ∀ j d, (s.moved i b c' effect).connectionAt j d → d.clientId = c'.clientId →
        d.phase.hasRegistered = true → d.generation < c'.generation := by
    intro hpre j d hd hcl hreg
    rcases connectionAt_moved_cases hd with ⟨rfl, rfl⟩ | ⟨-, hd⟩
    · rw [hnot] at hreg
      cases hreg
    · exact hpre j d hd hcl hreg
  cases id h with
  | claimed =>
    refine ⟨Nat.succ_pos _, others fun j d hd _ _ => ?_⟩
    exact Nat.lt_succ_of_le (hs.claims j d hd).bounded
  | stored hpre =>
    obtain ⟨hpos, hnewest⟩ := (hs.claims i c hc).newest _ (.inl hpre)
    exact ⟨hpos, others hnewest⟩
  | disconnected _ hhand =>
    obtain ⟨_, _, rfl, -⟩ := handleDisconnect_eq hhand
    rcases hph with hph | hph <;> cases hph
  | _ => rcases hph with hph | hph <;> cases hph

theorem WillSound.owner_self (hreg : c'.phase.isRegistered) :
    b.clients.lookup c'.clientId = some ⟨c'.generation, i⟩ ∨
      (s.moved i b c' effect).Superseded c' := by
  have hfits := hs.claims i c hc
  -- where the router's entries stay as they are
  have kept : c.phase.isRegistered = true → b.clients = s.broker.clients →
      b.clients.lookup c'.clientId = some ⟨c'.generation, i⟩ ∨
        (s.moved i b c' effect).Superseded c' := by
    intro hpre hcls
    have hne := ne_locked_of_hasRegistered (isRegistered_hasRegistered hpre)
    rw [hcls, h.clientId_eq, h.generation_eq hne]
    exact (hfits.owner hpre).imp_right (h.superseded_self hc hne)
  cases id h with
  | registered hph =>
    refine .inl ?_
    rw [← (hfits.claim _ (.inr (.inl hph))).1]
    exact lookup_insert _
  | installed hph | answered hph | unanswered hph | closed hph | takenOver hph
  | unarmed hph | sessionless hph => exact kept (by rw [hph]; rfl) rfl
  | disconnected hph hhand =>
    exact kept (by rw [hph]; rfl) (willsSteady_handleDisconnect hhand).clients
  | arming hph =>
    refine kept (by rw [hph]; rfl) ?_
    unfold armWill
    split <;> rfl
  | unflowed hph => exact kept (by rw [hph]; rfl) willsSteady_releaseSessionFlows.clients
  | _ => cases hreg

theorem WillSound.will_self (hsess : c'.phase.hasSession)
    (hnorm : c'.normalDisconnect = false) : c'.will = c'.claimant.connect.will := by
  have hfits := hs.claims i c hc
  cases h with
  | installed hph => exact (hfits.claim _ (.inr (.inr hph))).2
  | disconnected hph hhand =>
    obtain ⟨_, _, rfl, hkept, -⟩ := handleDisconnect_eq hhand
    obtain ⟨hwill, hpre⟩ := hkept hnorm
    exact hwill.trans (hfits.will (by rw [hph]; rfl) hpre)
  | unflowed hph hsome =>
    rw [← hfits.will (by rw [hph]; rfl) hnorm]
    unfold Connection.will
    rw [hsome]
    exact releaseSessionFlows_will.1
  | mismatched => cases hsess
  | claimed => cases hsess
  | stored => cases hsess
  | unwritten => cases hsess
  | registered => cases hsess
  | _ => exact hfits.will (by rw [‹c.phase = _›]; rfl) hnorm

theorem WillSound.claimFits_self : (s.moved i b c' effect).ClaimFits i c' := by
  obtain ⟨hbounded, hpos⟩ := hs.bounded_self hc h
  refine ⟨by rwa [broker_moved], hpos, hs.claim_self hc h, hs.newest_self hc h, ?_, ?_,
    hs.will_self hc h⟩
  · rw [broker_moved]
    exact hs.owner_self hc h
  · intro hnote
    obtain ⟨hreg, hsup⟩ := hs.notice_other hc h hc hnote
    obtain ⟨hkeeps, hgen⟩ := h.registered_keeps hreg
    exact ⟨hkeeps, hsup.congr h.clientId_eq hgen⟩

end

/-- What is known of an armed Will stays so while the session is released. -/
theorem WillSound.armed_self {exit : Exit} {armed : Bool} (hc : s.connectionAt i c)
    (h : Moves settings order s i c b c' effect) (hreg : c.phase.hasRegistered)
    (hfits : s.ArmedFits c exit armed) (hwills : b.pendingWills = s.broker.pendingWills)
    (hnorm : c'.normalDisconnect = c.normalDisconnect) (hdelay : c'.willDelay = c.willDelay) :
    (s.moved i b c' effect).ArmedFits c' exit armed := by
  have hne := ne_locked_of_hasRegistered hreg
  have later := h.superseded_self hc hne
  unfold State.ArmedFits at hfits ⊢
  rw [broker_moved, hwills, h.clientId_eq, h.generation_eq hne, hnorm, hdelay]
  cases armed with
  | true => exact ⟨hfits.1, hfits.2.imp_right later⟩
  | false => exact hfits.imp_right (Or.imp_right (Or.imp_right later))

theorem WillSound.willFits_self (hs : WillSound s) (hc : s.connectionAt i c)
    (h : Moves settings order s i c b c' effect) : (s.moved i b c' effect).WillFits i c' := by
  have hwill := hs.wills i c hc
  have hfits := hs.claims i c hc
  unfold State.WillFits at hwill
  cases id h with
  | unanswered | closed => exact fun hexit => nomatch hexit
  | disconnected _ hhand =>
    obtain ⟨_, _, rfl, -⟩ := handleDisconnect_eq hhand
    exact fun hexit => nomatch hexit
  | takenOver hph hnote =>
    exact fun _ => h.superseded_self hc (by rw [hph]; simp) (hfits.notice hnote).2
  | arming hph hexit hnorm hdelay =>
    show (s.moved i _ _ _).ArmedFits _ _ _
    have hne : c.phase ≠ .locked := by rw [hph]; simp
    cases hown : s.broker.isCurrentOwner c.clientId c.generation with
    | true =>
      simp only [armWill, hown, if_true, State.ArmedFits, broker_moved]
      exact ⟨hnorm, .inl (lookup_insert _)⟩
    | false =>
      -- a connection that has not been displaced is the owner
      have hsup : s.Superseded c := by
        refine (hfits.owner (by rw [hph]; rfl)).resolve_left fun hent => ?_
        simp [isCurrentOwner, hent] at hown
      have hafter := h.superseded_self hc hne hsup
      simp only [armWill, hown, State.ArmedFits] at hafter ⊢
      exact .inr (.inr (.inr hafter))
  | unarmed hph hno =>
    rename_i exit
    simp only [hph] at hwill
    rcases hno with hexit | hnorm | hdelay
    · cases exit with
      | closed => exact (hexit rfl).elim
      | abandoned => exact .inl rfl
      | takenOver =>
        exact .inr (.inr (.inr (h.superseded_self hc (by rw [hph]; simp) (hwill rfl))))
    · exact .inr (.inl hnorm)
    · exact .inr (.inr (.inl hdelay))
  | sessionless hph | displaced hph | unpersisted hph | unlocked hph =>
    simp only [hph] at hwill
    exact WillSound.armed_self hc h (by rw [hph]; rfl) hwill rfl rfl rfl
  | unflowed hph hsess =>
    simp only [hph] at hwill
    refine WillSound.armed_self hc h (by rw [hph]; rfl) hwill
      willsSteady_releaseSessionFlows.pendingWills rfl ?_
    unfold Connection.willDelay
    rw [hsess]
    exact releaseSessionFlows_will.2
  | released hph =>
    simp only [hph] at hwill
    refine WillSound.armed_self hc h (by rw [hph]; rfl) hwill ?_ rfl rfl
    unfold releaseClient
    split <;> rfl
  | persisted hph =>
    simp only [hph] at hwill
    exact WillSound.armed_self hc h (by rw [hph]; rfl) hwill
      willsSteady_persistSessionEnd.pendingWills rfl rfl
  | unwilling hph hnone =>
    show c.normalDisconnect = true ∨ c.claimant.connect.will = none
    cases hnorm : c.normalDisconnect with
    | true => exact .inl rfl
    | false =>
      rw [hnorm] at hnone
      rw [← hfits.will (by rw [hph]; rfl) hnorm]
      exact .inr (hnone.resolve_left (by simp))
  | willPublished _ _ hnorm =>
    refine ⟨hnorm, ?_⟩
    simp [State.moved, State.setTask]
  | willDenied _ _ hnorm => exact hnorm
  | willDelayed hph _ hnorm hdelay =>
    simp only [hph, State.ArmedFits, if_true] at hwill
    refine ⟨hnorm, hdelay, ?_⟩
    rw [broker_moved, willsSteady_finishQueue.pendingWills]
    exact hwill.2.imp_right (h.superseded_self hc (by rw [hph]; simp))
  | willDropped hph hexit hnorm hdelay =>
    simp only [hph, State.ArmedFits, Bool.false_eq_true, if_false, hexit, hnorm, hdelay,
      false_or] at hwill
    exact ⟨hnorm, hdelay, h.superseded_self hc (by rw [hph]; simp) (by simpa using hwill)⟩
  | fired hph =>
    simp only [hph] at hwill
    exact ⟨hwill.1, hwill.2.1⟩
  | cancelled hph hoth =>
    simp only [hph] at hwill
    exact ⟨hwill.1, hwill.2.1,
      h.superseded_self hc (by rw [hph]; simp) (hwill.2.2.resolve_left hoth)⟩
  | published hph =>
    simp only [hph] at hwill
    refine ⟨hwill.1, ?_⟩
    simp [State.moved, State.setTask]
  | denied hph =>
    simp only [hph] at hwill
    exact hwill.1
  | _ => trivial

/-! ## Runs -/

theorem WillSound.entry_moves (hs : WillSound s) (hc : s.connectionAt i c)
    (h : Moves settings order s i c b c' effect) (hinfo : b.clients.lookup clientId = some info) :
    (s.moved i b c' effect).EntryFits clientId info := by
  -- an entry that was there before, where nobody registers
  have kept : (c'.phase.hasRegistered = true → c.phase.hasRegistered = true) →
      s.broker.clients.lookup clientId = some info →
      (s.moved i b c' effect).EntryFits clientId info := by
    intro hpre hent
    obtain ⟨⟨e, he, hcl, hgen, hreg⟩, hlat⟩ := hs.entry clientId info hent
    constructor
    · by_cases hei : info.connection = i
      · rw [hei] at he ⊢
        cases hc.symm.trans he
        obtain ⟨hkeeps, hsame⟩ := h.registered_keeps hreg
        exact ⟨c', connectionAt_moved_self.mpr rfl, h.clientId_eq.trans hcl,
          hsame.trans hgen, hkeeps⟩
      · exact ⟨e, (connectionAt_moved hei).mpr he, hcl, hgen, hreg⟩
    · intro j d hd hid hdreg
      rcases connectionAt_moved_cases hd with ⟨rfl, rfl⟩ | ⟨-, hd⟩
      · have hcregistered := hpre hdreg
        rw [(h.registered_keeps hcregistered).2]
        exact hlat _ c hc (h.clientId_eq.symm.trans hid) hcregistered
      · exact hlat j d hd hid hdreg
  cases h.kind with
  | steady hstdy _ hreg =>
    exact kept (fun hafter => hreg ▸ hafter) (hstdy.clients ▸ hinfo)
  | claims _ hcls _ _ _ hno =>
    exact kept (fun hafter => by rw [hno] at hafter; cases hafter) (hcls ▸ hinfo)
  | registers hph hcls _ _ hreg hgen =>
    have hfits := hs.claims i c hc
    have hsame := (hfits.claim _ (.inr (.inl hph))).1
    have hnewest := (hfits.newest _ (.inr hph)).2
    by_cases hcl : clientId = c.clientId
    · rw [hcls, hcl, lookup_insert] at hinfo
      cases hinfo
      constructor
      · exact ⟨c', connectionAt_moved_self.mpr rfl, h.clientId_eq.trans hcl.symm,
          hgen.trans hsame.symm, hreg⟩
      · intro j d hd hid hdreg
        rcases connectionAt_moved_cases hd with ⟨rfl, rfl⟩ | ⟨-, hd⟩
        · exact (hgen.trans hsame.symm).le
        · have hlt := hnewest j d hd (hid.trans hcl) hdreg
          rw [hsame]
          exact hlt.le
    · rw [hcls, lookup_insert_of_ne _ hcl] at hinfo
      obtain ⟨⟨e, he, hid, hegeneration, heregistered⟩, hlat⟩ := hs.entry clientId info hinfo
      have hne : info.connection ≠ i := by
        intro heq
        rw [heq] at he
        cases hc.symm.trans he
        exact hcl hid.symm
      refine ⟨⟨e, (connectionAt_moved hne).mpr he, hid, hegeneration, heregistered⟩, ?_⟩
      intro j d hd hdid hdreg
      rcases connectionAt_moved_cases hd with ⟨rfl, rfl⟩ | ⟨-, hd⟩
      · exact absurd (hdid.symm.trans h.clientId_eq) hcl
      · exact hlat j d hd hdid hdreg
  | arms _ hcls _ _ hpre | takes _ hcls _ _ hpre =>
    exact kept (fun _ => hpre) (hcls ▸ hinfo)
  | releases _ hcls _ _ hpre =>
    refine kept (fun _ => hpre) ?_
    rw [hcls] at hinfo
    exact (Table.of_lookup_erase hinfo).2

/-- A Will that is published is the CONNECT packet's, and it has not been published before. -/
theorem WillSound.publishes (hs : WillSound s) (hc : s.connectionAt i c) {publish : PublishPacket}
    (h : Moves settings order s i c b c' (.publishes publish)) :
    c.phase ≠ .ended .published ∧ c'.phase = .ended .published ∧
      ∃ will, c'.claimant.connect.will = some will ∧
        publish = willPublish will c'.clientId c'.claimant.userId := by
  have hfits := hs.claims i c hc
  have hwills := hs.wills i c hc
  unfold State.WillFits at hwills
  cases h with
  | willPublished hph _ hnorm hwill =>
    refine ⟨by rw [hph]; simp, rfl, _, ?_, rfl⟩
    rw [← hwill]
    exact (hfits.will (by rw [hph]; rfl) hnorm).symm
  | published hph hwill =>
    simp only [hph] at hwills
    refine ⟨by rw [hph]; simp, rfl, _, ?_, rfl⟩
    rw [← hwill]
    exact (hfits.will (by rw [hph]; rfl) hwills.1).symm

/-- A connection whose Will has been published has come to its end. -/
theorem Moves.not_published (h : Moves settings order s i c b c' effect) :
    c.phase ≠ .ended .published := by
  cases h <;> rw [‹c.phase = _›] <;> simp

theorem published_moved_of_ne (hne : ∀ publish, effect ≠ .publishes publish) :
    (s.moved i b c' effect).published = s.published := by
  cases effect with
  | publishes publish => exact (hne publish rfl).elim
  | notifies =>
    dsimp only [State.moved, State.setTask, State.notify]
    split <;> rfl
  | _ => rfl

/-- A step gives no generation that another connection has. -/
theorem WillSound.distinct_self (hs : WillSound s) (hc : s.connectionAt i c)
    (h : Moves settings order s i c b c' effect) (hd : s.connectionAt j d) (hne : j ≠ i)
    (hgen : c'.generation = d.generation) (hpos : 0 < c'.generation) : False := by
  cases h.kind with
  | claims _ _ _ _ hnew =>
    have hbounded := (hs.claims j d hd).bounded
    omega
  | steady _ _ _ hsame | registers _ _ _ _ _ hsame | arms _ _ _ _ _ _ hsame
  | releases _ _ _ _ _ _ hsame | takes _ _ _ _ _ _ hsame =>
    exact hne (hs.distinct i j c d hc hd (hsame ▸ hgen) (hsame ▸ hpos)).symm

/-- Every step of a connection keeps the invariant. -/
theorem WillSound.moves (hs : WillSound s) (hc : s.connectionAt i c)
    (h : Moves settings order s i c b c' effect) : WillSound (s.moved i b c' effect) := by
  -- what has been published is not of this connection, which takes another step
  have hold : ∀ p ∈ s.published, p.1 ≠ i ∧ ∃ d will, (s.moved i b c' effect).connectionAt p.1 d ∧
      d.phase = .ended .published ∧ d.claimant.connect.will = some will ∧
      p.2 = willPublish will d.clientId d.claimant.userId := by
    intro p hp
    obtain ⟨d, will, hd, hph, hwill, hpubl⟩ := hs.published p hp
    have hne : p.1 ≠ i := by
      intro heq
      rw [heq] at hd
      cases hc.symm.trans hd
      exact h.not_published hph
    exact ⟨hne, d, will, (connectionAt_moved hne).mpr hd, hph, hwill, hpubl⟩
  refine ⟨hs.slots.moves hc h, ?_, ?_, ?_, ?_, ?_, ?_, ?_⟩
  · intro j hnote hnone
    rw [tasks_moved, update_apply] at hnone
    split at hnone
    · cases hnone
    rename_i hji
    by_cases heffect : effect = .notifies
    · subst heffect
      rcases notices_notifies hnote with hj | ⟨info, hinfo, hj⟩
      · exact hs.noticed j hj hnone
      · obtain ⟨⟨e, he, -⟩, -⟩ := hs.entry _ info hinfo
        rw [hj, State.connectionAt, hnone] at he
        cases he
    · rw [notices_moved heffect] at hnote
      exact hs.noticed j hnote hnone
  · intro j k d e hd he hgen hpos
    rcases connectionAt_moved_cases hd with ⟨rfl, rfl⟩ | ⟨hji, hd'⟩
    · rcases connectionAt_moved_cases he with ⟨rfl, -⟩ | ⟨hki, he'⟩
      · rfl
      · exact (hs.distinct_self hc h he' hki hgen hpos).elim
    · rcases connectionAt_moved_cases he with ⟨rfl, rfl⟩ | ⟨-, he'⟩
      · exact (hs.distinct_self hc h hd' hji hgen.symm (hgen ▸ hpos)).elim
      · exact hs.distinct j k d e hd' he' hgen hpos
  · intro j d hd
    rcases connectionAt_moved_cases hd with ⟨rfl, rfl⟩ | ⟨hji, hd⟩
    · exact hs.claimFits_self hc h
    · exact hs.claimFits_other hc h hd hji
  · intro j d hd
    rcases connectionAt_moved_cases hd with ⟨rfl, rfl⟩ | ⟨hji, hd⟩
    · exact hs.willFits_self hc h
    · exact hs.willFits_other hc h hd hji
  · intro clientId info hinfo
    rw [broker_moved] at hinfo
    exact hs.entry_moves hc h hinfo
  · intro p hp
    by_cases hpub : ∃ publish, effect = .publishes publish
    · obtain ⟨publish, rfl⟩ := hpub
      rcases mem_append.mp hp with hp | hp
      · exact (hold p hp).2
      · obtain ⟨-, hph, will, hwill, hpubl⟩ := hs.publishes hc h
        cases mem_singleton.mp hp
        exact ⟨c', will, connectionAt_moved_self.mpr rfl, hph, hwill, hpubl⟩
    · rw [published_moved_of_ne fun publish heq => hpub ⟨publish, heq⟩] at hp
      exact (hold p hp).2
  · by_cases hpub : ∃ publish, effect = .publishes publish
    · obtain ⟨publish, rfl⟩ := hpub
      show ((s.published ++ [(i, publish)]).map Prod.fst).Nodup
      rw [map_append, nodup_append]
      refine ⟨hs.once, by simp, ?_⟩
      intro j hj k hk hjk
      obtain ⟨p, hp, hpj⟩ := mem_map.mp hj
      have hki : k = i := by simpa using hk
      exact (hold p hp).1 (hpj.trans (hjk.trans hki))
    · rw [published_moved_of_ne fun publish heq => hpub ⟨publish, heq⟩]
      exact hs.once

/-- How the phase of a connection changes as it takes its slot. -/
inductive PhaseLocks : Phase → Phase → Prop where
  | same {phase : Phase} : PhaseLocks phase phase
  | claim : PhaseLocks .accepted .locked
  | release {exit : Exit} : PhaseLocks (.leaving exit) (.releasing exit)

/-- A step that is not of a connection, or that only takes a slot. -/
structure Calm (s s' : State) : Prop where
  slots : s'.SlotsHeld
  broker : WillsSteady s.broker s'.broker
  notices : s'.notices = s.notices
  published : s'.published = s.published
  started : ∀ i, s.tasks i ≠ none → s'.tasks i ≠ none
  /-- The connections were there before, or are new. -/
  before : ∀ i c, s'.connectionAt i c →
    (s.tasks i = none ∧ ∃ claimant, c = { claimant }) ∨
      ∃ phase, s.connectionAt i { c with phase } ∧ PhaseLocks phase c.phase
  after : ∀ i c, s.connectionAt i c → ∃ phase, s'.connectionAt i { c with phase } ∧
    PhaseLocks c.phase phase

theorem PhaseLocks.hasRegistered {phase' : Phase} (h : PhaseLocks phase phase') :
    phase'.hasRegistered = phase.hasRegistered := by
  cases h <;> rfl

theorem Calm.superseded (h : Calm s s') (hsup : s.Superseded c) : s'.Superseded c := by
  obtain ⟨j, d, hd, hcl, hlater, hreg⟩ := hsup
  obtain ⟨_, hd', hlocks⟩ := h.after j d hd
  exact ⟨j, _, hd', hcl, hlater, hlocks.hasRegistered.trans hreg⟩

/-- A registered connection was one before. -/
theorem Calm.registered (h : Calm s s') (hd : s'.connectionAt j d) (hreg : d.phase.hasRegistered) :
    ∃ phase, s.connectionAt j { d with phase } ∧ phase.hasRegistered := by
  rcases h.before j d hd with ⟨-, _, rfl⟩ | ⟨phase, hpre, hlocks⟩
  · cases hreg
  · exact ⟨phase, hpre, hlocks.hasRegistered.symm.trans hreg⟩

theorem WillSound.claimFits_calm (hs : WillSound s) (h : Calm s s')
    (hlocks : PhaseLocks phase c.phase) (hc : s.connectionAt i { c with phase }) :
    s'.ClaimFits i c := by
  have hfits := hs.claims i _ hc
  have bounded : c.generation ≤ s'.broker.generations := h.broker.generations ▸ hfits.bounded
  have owner : s.broker.clients.lookup c.clientId = some ⟨c.generation, i⟩ ∨ s.Superseded c →
      s'.broker.clients.lookup c.clientId = some ⟨c.generation, i⟩ ∨ s'.Superseded c := by
    rw [h.broker.clients]
    exact Or.imp_right h.superseded
  have notice : s'.notices i → phase.hasRegistered ∧ s'.Superseded c := by
    rw [h.notices]
    exact fun hnote => (hfits.notice hnote).imp_right h.superseded
  obtain ⟨_, _, generation, _, _, _⟩ := c
  cases hlocks with
  | same =>
    refine ⟨bounded, hfits.positive, hfits.claim, ?_, fun hreg => owner (hfits.owner hreg),
      notice, hfits.will⟩
    intro claim hph
    refine ⟨(hfits.newest claim hph).1, fun j d hd hcl hreg => ?_⟩
    obtain ⟨before, hd', hpre⟩ := h.registered hd hreg
    exact (hfits.newest claim hph).2 j { d with phase := before } hd' hcl hpre
  | claim =>
    refine ⟨bounded, (fun hreg => nomatch hreg), ?_, ?_,
      (fun hreg => nomatch hreg), ?_, (fun hsess => nomatch hsess)⟩
    · rintro claim (hph | hph | hph) <;> cases hph
    · rintro claim (hph | hph) <;> cases hph
    · intro hnote
      cases (notice hnote).1
  | release =>
    refine ⟨bounded, fun _ => hfits.positive rfl, ?_, ?_, fun _ => owner (hfits.owner rfl), notice,
      fun _ => hfits.will rfl⟩
    · rintro claim (hph | hph | hph) <;> cases hph
    · rintro claim (hph | hph) <;> cases hph

theorem WillSound.willFits_calm (hs : WillSound s) (h : Calm s s')
    (hlocks : PhaseLocks phase c.phase) (hc : s.connectionAt i { c with phase }) :
    s'.WillFits i c := by
  have hwill := hs.wills i _ hc
  have pending : (s.broker.pendingWills.lookup c.clientId = some c.generation ∨ s.Superseded c) →
      s'.broker.pendingWills.lookup c.clientId = some c.generation ∨ s'.Superseded c := by
    rw [h.broker.pendingWills]
    exact Or.imp_right h.superseded
  obtain ⟨_, _, generation, _, _, _⟩ := c
  cases hlocks with
  | claim => trivial
  | release => exact fun hexit => h.superseded (hwill hexit)
  | same =>
    refine State.WillFits.mono h.superseded hwill (fun _ => pending) fun p hp => ?_
    exact h.published ▸ hp

/-- A connection that has just been accepted. -/
theorem claimFits_new {claimant : Claimant} (hnote : s.notices i = false) :
    s.ClaimFits i { claimant } := by
  refine ⟨Nat.zero_le _, (fun hreg => nomatch hreg), ?_, ?_,
    (fun hreg => nomatch hreg), ?_, (fun hsess => nomatch hsess)⟩
  · rintro claim (hph | hph | hph) <;> cases hph
  · rintro claim (hph | hph) <;> cases hph
  · intro hyes
    rw [hnote] at hyes
    cases hyes

theorem WillSound.calm (hs : WillSound s) (h : Calm s s') : WillSound s' := by
  refine ⟨h.slots, ?_, ?_, ?_, ?_, ?_, ?_, ?_⟩
  · intro i hnote
    exact h.started i (hs.noticed i (h.notices ▸ hnote))
  · intro i j c d hc hd hgen hpos
    rcases h.before i c hc with ⟨-, claimant, rfl⟩ | ⟨phase, hc', -⟩
    · cases hpos
    · rcases h.before j d hd with ⟨-, claimant, rfl⟩ | ⟨_, hd', -⟩
      · rw [hgen] at hpos
        cases hpos
      · exact hs.distinct i j _ _ hc' hd' hgen hpos
  · intro i c hc
    rcases h.before i c hc with ⟨hnone, claimant, rfl⟩ | ⟨phase, hc', hlocks⟩
    · refine claimFits_new ?_
      rw [h.notices, ← Bool.not_eq_true]
      exact fun hnote => hs.noticed i hnote hnone
    · exact hs.claimFits_calm h hlocks hc'
  · intro i c hc
    rcases h.before i c hc with ⟨-, claimant, rfl⟩ | ⟨phase, hc', hlocks⟩
    · trivial
    · exact hs.willFits_calm h hlocks hc'
  · intro clientId info hinfo
    rw [h.broker.clients] at hinfo
    obtain ⟨⟨c, hc, hcl, hgen, hreg⟩, hlat⟩ := hs.entry clientId info hinfo
    obtain ⟨phase, hc', hlocks⟩ := h.after _ c hc
    refine ⟨⟨_, hc', hcl, hgen, hlocks.hasRegistered.trans hreg⟩, ?_⟩
    intro j d hd hid hdreg
    obtain ⟨before, hd', hpre⟩ := h.registered hd hdreg
    exact hlat j { d with phase := before } hd' hid hpre
  · intro p hp
    rw [h.published] at hp
    obtain ⟨c, will, hc, hph, hwill, hpubl⟩ := hs.published p hp
    obtain ⟨phase, hc', hlocks⟩ := h.after _ c hc
    refine ⟨_, will, hc', ?_, hwill, hpubl⟩
    rw [hph] at hlocks
    cases hlocks
    rfl
  · rw [h.published]
    exact hs.once

/-- A step that leaves every connection as it is. -/
theorem Calm.of_connections (hslots : s'.SlotsHeld) (hbroker : WillsSteady s.broker s'.broker)
    (hnotices : s'.notices = s.notices) (hpublished : s'.published = s.published)
    (hstarted : ∀ i, s.tasks i ≠ none → s'.tasks i ≠ none)
    (hsame : ∀ i c, s'.connectionAt i c ↔ s.connectionAt i c) : Calm s s' :=
  ⟨hslots, hbroker, hnotices, hpublished, hstarted,
    fun i c hc => .inr ⟨c.phase, (hsame i c).mp hc, .same⟩,
    fun i c hc => ⟨c.phase, (hsame i c).mpr hc, .same⟩⟩

theorem setTask_ne_none (hne : s.tasks j ≠ none) (t : Task) : (s.setTask i t).tasks j ≠ none := by
  dsimp only [State.setTask]
  rw [update_apply]
  split
  · simp
  · exact hne

theorem connectionAt_setTask_sweep {stage stage' : Stage}
    (htask : s.tasks i = some (.sweep clientId stage)) :
    (s.setTask i (.sweep clientId stage')).connectionAt j c ↔ s.connectionAt j c := by
  unfold State.connectionAt State.setTask
  dsimp only
  rw [update_apply]
  split
  · rename_i hji
    rw [hji, htask]
    constructor <;> exact fun h => nomatch h
  · rfl

/-- Every step keeps the invariant. -/
theorem WillSound.act (hs : WillSound s) (h : act settings order s a = some s') : WillSound s' := by
  have hslots := hs.slots.act h
  cases act_steps h with
  | advanced =>
    exact hs.calm (.of_connections hslots (.refl _) rfl rfl (fun _ => id) fun _ _ => Iff.rfl)
  | moved _ htask hmov => exact hs.moves htask hmov
  | swept htask hsweeps =>
    exact hs.calm (.of_connections hslots (by cases hsweeps <;> exact ⟨rfl, rfl, rfl⟩) rfl rfl
      (fun _ hne => setTask_ne_none hne _) fun _ _ => connectionAt_setTask_sweep htask)
  | unlocked _ htask =>
    exact hs.calm (.of_connections hslots (.refl _) rfl rfl
      (fun _ hne => setTask_ne_none hne _) fun _ _ => connectionAt_setTask_sweep htask)
  | started _ hnone hnew =>
    rename_i i t _
    refine hs.calm ⟨hslots, .refl _, rfl, rfl, fun _ hne => setTask_ne_none hne _, ?_, ?_⟩
    · intro j c hc
      dsimp only [State.connectionAt, State.setTask] at hc
      rw [update_apply] at hc
      split at hc
      · rename_i hji
        cases hc
        exact .inl ⟨hji ▸ hnone, hnew⟩
      · exact .inr ⟨c.phase, hc, .same⟩
    · intro j c hc
      refine ⟨c.phase, ?_, .same⟩
      have hji : j ≠ i := by
        rintro rfl
        cases hnone.symm.trans hc
      dsimp only [State.connectionAt, State.setTask]
      rw [update_of_ne hji]
      exact hc
  | locked htask hfree hlocks =>
    rename_i i t _
    refine hs.calm ⟨hslots, .refl _, rfl, rfl, fun _ hne => setTask_ne_none hne _, ?_, ?_⟩
    · intro j c hc
      dsimp only [State.connectionAt, State.setTask] at hc
      rw [update_apply] at hc
      split at hc
      · rename_i hji
        cases hc
        rw [hji]
        cases hlocks with
        | claim hph => exact .inr ⟨.accepted, hph ▸ htask, .claim⟩
        | release hph => exact .inr ⟨.leaving _, hph ▸ htask, .release⟩
      · exact .inr ⟨c.phase, hc, .same⟩
    · intro j c hc
      dsimp only [State.connectionAt, State.setTask]
      by_cases hji : j = i
      · rw [hji] at hc ⊢
        rw [update_self]
        cases htask.symm.trans hc
        cases hlocks with
        | claim hph => exact ⟨.locked, rfl, hph ▸ .claim⟩
        | release hph => exact ⟨.releasing _, rfl, hph ▸ .release⟩
      · rw [update_of_ne hji]
        exact ⟨c.phase, hc, .same⟩

end Lifecycle

end MqttLib.Broker
