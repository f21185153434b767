/-
MqttLib.Broker.Agreement

The router and the storage agree on who owns a session: a client that is registered has a
stored session that is marked connected, with the generation of its connection, except while
the slot is held by a connection that has written its claim and not registered yet.
-/

import MqttLib.Broker.Lifecycle

namespace MqttLib.Broker

open Foundation Protocol Storage Function Option Finmap

namespace BrokerState

/-! ## What the storage says of an owner -/

/-- What a stored session says of its owner. -/
structure Mark where
  clientId : String
  token : UInt64
  connected : Bool

def sessionMark (session : ClientSession) : Mark :=
  ⟨session.clientId, session.connectionToken, session.connected⟩

def mark (b : BrokerState) (clientId : String) : Option Mark :=
  (b.stored clientId).map sessionMark

/-- The owners are the same to the router and to the storage. -/
structure Steady (b b' : BrokerState) : Prop where
  clients : b'.clients = b.clients
  storage : b'.sessions.isSome = b.sessions.isSome
  mark : ∀ clientId, b'.mark clientId = b.mark clientId

/-- The same, apart from one client. -/
structure SteadyBeyond (clientId : String) (b b' : BrokerState) : Prop where
  storage : b'.sessions.isSome = b.sessions.isSome
  clients : ∀ c, c ≠ clientId → b'.clients.lookup c = b.clients.lookup c
  mark : ∀ c, c ≠ clientId → b'.mark c = b.mark c

variable {b b' b'' : BrokerState} {clientId : String} {generation : Nat} {written : Bool}

theorem Steady.of_eq (hcls : b'.clients = b.clients) (hsesns : b'.sessions = b.sessions) :
    Steady b b' := by
  refine ⟨hcls, by rw [hsesns], fun c => ?_⟩
  unfold BrokerState.mark stored
  rw [hsesns]

theorem Steady.refl (b : BrokerState) : Steady b b := .of_eq rfl rfl

theorem Steady.trans (h : Steady b b') (h' : Steady b' b'') : Steady b b'' :=
  ⟨h'.clients.trans h.clients, h'.storage.trans h.storage, fun c => (h'.mark c).trans (h.mark c)⟩

theorem Steady.beyond (h : Steady b b') : SteadyBeyond clientId b b' :=
  ⟨h.storage, fun c _ => by rw [h.clients], fun c _ => h.mark c⟩

theorem steady_updateStored {update : ClientSession → ClientSession}
    (hupd : ∀ session, sessionMark (update session) = sessionMark session) :
    Steady b (b.updateStored clientId generation written update) := by
  unfold updateStored
  split
  · refine ⟨rfl, by simp, fun c => ?_⟩
    unfold mark stored
    cases b.sessions with
    | none => rfl
    | some sessions =>
      simp only [map_some, bind_some, Sessions.lookup_updateSession, map_map]
      congr 1
      funext session
      dsimp only [comp]
      split
      · exact hupd session
      · rfl
  · exact Steady.refl b

theorem steady_clearStoredWill : Steady b (b.clearStoredWill clientId generation written) :=
  steady_updateStored fun _ => rfl

theorem steady_armWill : Steady b (b.armWill clientId generation).1 := by
  unfold armWill
  split
  · exact .of_eq rfl rfl
  · exact Steady.refl b

theorem steady_claimWill : Steady b (b.claimWill clientId generation written).1 := by
  unfold claimWill
  split
  · refine Steady.trans ?_ steady_clearStoredWill
    exact .of_eq rfl rfl
  · exact Steady.refl b

theorem steady_removeFlowSubscriptions {flows : Finset UInt64} {written : UInt64 → Bool} :
    Steady b (b.removeFlowSubscriptions clientId generation flows written) := by
  unfold removeFlowSubscriptions
  dsimp only
  split
  · refine Steady.trans ?_ (steady_updateStored fun _ => rfl)
    exact .of_eq rfl rfl
  · exact Steady.refl b

variable {session : ClientSession} {now : SystemTime} {claim : Claim} {normal : Bool}

theorem steady_releaseSessionFlows {written : UInt64 → Bool} :
    Steady b (b.releaseSessionFlows clientId generation session written now).1 := by
  unfold releaseSessionFlows
  dsimp only
  split
  · exact Steady.refl b
  · refine Steady.trans (Steady.trans ?_ steady_removeFlowSubscriptions) (.of_eq rfl rfl)
    exact .of_eq rfl rfl

theorem steady_finishQueue {discard : Bool} : Steady b (b.finishQueue clientId discard) := by
  unfold finishQueue
  split
  · exact .of_eq rfl rfl
  · exact Steady.refl b

theorem steadyBeyond_releaseClient {preserve : Bool} :
    SteadyBeyond clientId b (b.releaseClient clientId generation preserve).1 ∧
      ∀ c, (b.releaseClient clientId generation preserve).1.mark c = b.mark c := by
  unfold releaseClient
  split
  · exact ⟨⟨rfl, fun c hne => lookup_erase_ne hne, fun _ _ => rfl⟩, fun _ => rfl⟩
  · exact ⟨(Steady.refl b).beyond, fun _ => rfl⟩

theorem steadyBeyond_writeClaim (hcl : claim.session.clientId = clientId) :
    SteadyBeyond clientId b (b.writeClaim claim) := by
  refine ⟨by simp [writeClaim], fun _ _ => rfl, fun c hne => ?_⟩
  unfold mark stored writeClaim
  cases b.sessions with
  | none => rfl
  | some sessions =>
    simp only [map_some, bind_some]
    rw [Sessions.lookup_storeSession_of_ne (hcl ▸ hne)]

theorem mark_writeClaim (hstore : b.sessions.isSome) (hcl : claim.session.clientId = clientId) :
    (b.writeClaim claim).mark clientId =
      some (sessionMark claim.session) := by
  obtain ⟨sessions, hsesns⟩ := isSome_iff_exists.mp hstore
  unfold mark stored writeClaim
  simp only [hsesns, map_some, bind_some, Sessions.storeSession]
  rw [hcl, lookup_insert]
  rfl

theorem clients_persistSessionEnd :
    (b.persistSessionEnd clientId generation session normal now).clients = b.clients := by
  unfold persistSessionEnd
  split
  · split <;> rfl
  · rfl

theorem steadyBeyond_persistSessionEnd :
    SteadyBeyond clientId b (b.persistSessionEnd clientId generation session normal now) := by
  refine ⟨?_, fun c _ => by rw [clients_persistSessionEnd], fun c hne => ?_⟩
  · unfold persistSessionEnd
    split
    · split
      · rfl
      · rename_i sessions hsesns
        rw [hsesns]
        rfl
    · simp [updateStored]
  · unfold persistSessionEnd mark stored
    split
    · split
      · rfl
      · rename_i sessions hsesns
        rw [hsesns]
        dsimp only [bind_some]
        rw [Sessions.lookup_removeOwnedSession_of_ne hne]
    · unfold updateStored
      cases b.sessions with
      | none => rfl
      | some sessions =>
        simp only [if_true, map_some, bind_some, Sessions.lookup_updateSession, hne,
          false_and, if_false, map_id']

/-- What is left of a session is under its client identifier. -/
theorem keyed_persistSessionEnd {m : Mark}
    (hkeyed : ∀ m, b.mark clientId = some m → m.clientId = clientId)
    (h : (b.persistSessionEnd clientId generation session normal now).mark clientId = some m) :
    m.clientId = clientId := by
  unfold persistSessionEnd at h
  split at h
  · split at h
    · exact hkeyed m h
    · rename_i sessions hsesns
      refine hkeyed m ?_
      unfold mark stored Sessions.removeOwnedSession at h
      unfold mark stored
      rw [hsesns]
      dsimp only [bind_some] at h ⊢
      split at h
      · rw [lookup_erase] at h
        cases h
      · exact h
  · unfold mark stored updateStored at h
    unfold mark stored at hkeyed
    cases hsesns : b.sessions with
    | none => simp [hsesns] at h
    | some sessions =>
      simp only [hsesns, if_true, map_some, bind_some, Sessions.lookup_updateSession, map_map] at h
      obtain ⟨found, hfound, hm⟩ := map_eq_some_iff.mp h
      have hid := hkeyed (sessionMark found) (by rw [hsesns]; simp [hfound])
      rw [← hm, ← hid]
      dsimp only [comp, sessionMark]
      split
      · split <;> rfl
      · rfl

end BrokerState

namespace Lifecycle

open BrokerState

/-! ## The invariant -/

/-- What a task that holds its slot can rely on. -/
def Task.Fits (b : BrokerState) : Task → Prop
  | .connection c =>
    match c.phase with
    | .claimed claim => sessionMark claim.session = ⟨c.clientId, .ofNat claim.generation, true⟩
    | .stored claim => b.mark c.clientId = some ⟨c.clientId, .ofNat claim.generation, true⟩
    | .persisting .. => b.clients.lookup c.clientId = none
    | _ => True
  | .sweep clientId stage =>
    match stage with
    | .unowned | .swept | .stranded _ | .clearing => b.clients.lookup clientId = none
    | _ => True

/-- The slot is held by a connection that has written its claim and is not registered yet. -/
def State.Claiming (s : State) (clientId : String) : Prop :=
  ∃ i c claim, s.slots.lookup clientId = some i ∧ s.tasks i = some (.connection c) ∧
    c.clientId = clientId ∧ c.phase = .stored claim

/-- A registered client has a connected session, of its connection or of one that takes over. -/
def State.Agreed (s : State) (clientId : String) : Prop :=
  ∀ info, s.broker.clients.lookup clientId = some info →
    ∃ token, s.broker.mark clientId = some ⟨clientId, token, true⟩ ∧
      (token = .ofNat info.generation ∨ s.Claiming clientId)

structure Sound (s : State) : Prop where
  storage : s.broker.sessions.isSome = true
  slot : s.SlotsHeld
  fits : ∀ i t, s.tasks i = some t → t.Fits s.broker
  keyed : ∀ clientId mark, s.broker.mark clientId = some mark → mark.clientId = clientId
  agreed : ∀ clientId, s.Agreed clientId

variable {settings : BrokerSettings}
  {order : Table String StoredSubscription → List (String × StoredSubscription)}
  {s s' : State} {i : Nat} {t t' : Task} {b b' : BrokerState} {c c' : Connection} {a : Action}
  {effect : Effect}

theorem Task.fits_of_not_holdsSlot (h : t.holdsSlot = false) : t.Fits b := by
  cases t with
  | connection c =>
    dsimp only [Task.holdsSlot] at h
    dsimp only [Task.Fits]
    split <;> rename_i hph <;> first | trivial | (rw [hph] at h; cases h)
  | sweep _ stage =>
    dsimp only [Task.holdsSlot] at h
    cases stage <;> trivial

theorem Task.Fits.congr (h : t.Fits b)
    (hcls : b'.clients.lookup t.clientId = b.clients.lookup t.clientId)
    (hmark : b'.mark t.clientId = b.mark t.clientId) : t.Fits b' := by
  cases t with
  | connection c =>
    dsimp only [Task.clientId] at hcls hmark
    dsimp only [Task.Fits] at h ⊢
    split <;> rename_i hph <;> simp only [hph] at h
    · exact h
    · exact hmark.trans h
    · exact hcls.trans h
    · trivial
  | sweep clientId _ =>
    dsimp only [Task.clientId] at hcls
    dsimp only [Task.Fits] at h ⊢
    split <;> first | trivial | exact hcls.trans h

/-- A step that holds no slot, before or after, and leaves the owners as they are. -/
theorem Sound.loose (hs : Sound s) (hslot : s'.SlotsHeld)
    (hpre : ∀ t, s.tasks i = some t → t.holdsSlot = false) (hafter : t'.holdsSlot = false)
    (htasks : s'.tasks = update s.tasks i (some t')) (hslots : s'.slots = s.slots)
    (hstdy : Steady s.broker s'.broker) : Sound s' := by
  refine ⟨hstdy.storage.trans hs.storage, hslot, ?_,
    fun clientId mark hmark => hs.keyed _ _ ((hstdy.mark _).symm.trans hmark), ?_⟩
  · intro j t hj
    rw [htasks, update_apply] at hj
    split at hj
    · cases hj
      exact Task.fits_of_not_holdsSlot hafter
    · exact (hs.fits j t hj).congr (by rw [hstdy.clients]) (hstdy.mark _)
  · intro clientId info hinfo
    rw [hstdy.clients] at hinfo
    obtain ⟨token, hmark, htoken⟩ := hs.agreed clientId info hinfo
    refine ⟨token, (hstdy.mark clientId).trans hmark, htoken.imp_right ?_⟩
    rintro ⟨j, c, claim, hslot, hj, hcl, hph⟩
    refine ⟨j, c, claim, hslots ▸ hslot, ?_, hcl, hph⟩
    have hne : j ≠ i := by
      rintro rfl
      have hno := hpre _ hj
      simp [Task.holdsSlot, hph, Phase.holdsSlot] at hno
    rw [htasks, update_of_ne hne]
    exact hj

/-- A step of the task that holds the slot of a client, for the other clients. -/
theorem Sound.held (hs : Sound s) (hslot : s'.SlotsHeld) (htask : s.tasks i = some t)
    (hhold : t.holdsSlot) (htasks : s'.tasks = update s.tasks i (some t'))
    (hslots : ∀ c, c ≠ t.clientId → s'.slots.lookup c = s.slots.lookup c)
    (hbeyond : SteadyBeyond t.clientId s.broker s'.broker) (hfits : t'.Fits s'.broker)
    (hkeyed : ∀ mark, s'.broker.mark t.clientId = some mark → mark.clientId = t.clientId)
    (hagreed : s'.Agreed t.clientId) : Sound s' := by
  -- the other tasks that hold a slot are of other clients
  have hoth : ∀ j u, j ≠ i → s.tasks j = some u → u.holdsSlot = true →
      u.clientId ≠ t.clientId := by
    intro j u hne hj hu heq
    have hsame := hs.slot j u hj hu
    rw [heq, hs.slot i t htask hhold] at hsame
    exact hne (some.inj hsame).symm
  refine ⟨hbeyond.storage.trans hs.storage, hslot, ?_, ?_, ?_⟩
  · intro j u hj
    rw [htasks, update_apply] at hj
    split at hj
    · cases hj
      exact hfits
    · rename_i hji
      cases hu : u.holdsSlot with
      | false => exact Task.fits_of_not_holdsSlot hu
      | true =>
        have hne := hoth j u hji hj hu
        exact (hs.fits j u hj).congr (hbeyond.clients _ hne) (hbeyond.mark _ hne)
  · intro clientId mark hmark
    by_cases hne : clientId = t.clientId
    · rw [hne] at hmark ⊢
      exact hkeyed mark hmark
    · exact hs.keyed clientId mark ((hbeyond.mark _ hne).symm.trans hmark)
  · intro clientId
    by_cases hne : clientId = t.clientId
    · rw [hne]
      exact hagreed
    · intro info hinfo
      rw [hbeyond.clients _ hne] at hinfo
      obtain ⟨token, hmark, htoken⟩ := hs.agreed clientId info hinfo
      refine ⟨token, (hbeyond.mark _ hne).trans hmark, htoken.imp_right ?_⟩
      rintro ⟨j, c, claim, hj, hc, hcl, hph⟩
      refine ⟨j, c, claim, (hslots _ hne).trans hj, ?_, hcl, hph⟩
      have hji : j ≠ i := by
        rintro rfl
        rw [htask] at hc
        cases hc
        exact hne hcl.symm
      rw [htasks, update_of_ne hji]
      exact hc

variable {info : ClientInfo} {now : SystemTime} {clientId : String} {stage stage' : Stage}
  {sessions : Sessions} {token : UInt64}

/-- While the slot is held, and not between the write of a claim and its registration, the token
is the registered generation. -/
theorem Sound.mark_of_entry (hs : Sound s) (htask : s.tasks i = some t)
    (hhold : t.holdsSlot) (hnot : ∀ c claim, t = .connection c → c.phase ≠ .stored claim)
    (hinfo : s.broker.clients.lookup t.clientId = some info) :
    s.broker.mark t.clientId = some ⟨t.clientId, .ofNat info.generation, true⟩ := by
  obtain ⟨_, hmark, htoken⟩ := hs.agreed _ info hinfo
  rcases htoken with htoken | ⟨j, c, claim, hslot, hj, -, hph⟩
  · rw [hmark, htoken]
  · rw [hs.slot i t htask hhold] at hslot
    cases hslot
    rw [htask] at hj
    cases hj
    exact (hnot c claim rfl hph).elim

/-- A step of the task that holds the slot that leaves the owners as they are. -/
theorem Sound.steady (hs : Sound s) (hslot : s'.SlotsHeld) (htask : s.tasks i = some t)
    (hhold : t.holdsSlot) (hnot : ∀ c claim, t = .connection c → c.phase ≠ .stored claim)
    (htasks : s'.tasks = update s.tasks i (some t'))
    (hslots : ∀ c, c ≠ t.clientId → s'.slots.lookup c = s.slots.lookup c)
    (hstdy : Steady s.broker s'.broker) (hfits : t'.Fits s'.broker) : Sound s' := by
  refine hs.held hslot htask hhold htasks hslots hstdy.beyond hfits
    (fun mark hmark => hs.keyed _ _ ((hstdy.mark _).symm.trans hmark)) ?_
  intro _ hinfo
  rw [hstdy.clients] at hinfo
  exact ⟨_, (hstdy.mark _).trans (hs.mark_of_entry htask hhold hnot hinfo), .inl rfl⟩

/-! ## Steps of connections -/

/-- A claim is of its connection, and connected. -/
theorem sessionMark_prepareClaim (hs : Sound s) {claimant : Claimant} :
    sessionMark (s.broker.prepareClaim settings claimant s.clock).2.session =
      ⟨claimant.clientId, .ofNat (s.broker.prepareClaim settings claimant s.clock).2.generation,
        true⟩ := by
  have hcl : (sessionForClaim settings claimant (s.broker.resumable claimant.connect s.clock)
      (s.broker.grantedExpiry settings claimant.connect) s.clock).clientId = claimant.clientId := by
    unfold sessionForClaim
    cases hresumable : s.broker.resumable claimant.connect s.clock with
    | none => rfl
    | some session =>
      obtain ⟨hfound, -⟩ := filter_eq_some_iff.mp hresumable
      obtain ⟨sessions, hsesns, hget⟩ := bind_eq_some_iff.mp hfound
      obtain ⟨hlook, -⟩ := filter_eq_some_iff.mp hget
      refine hs.keyed _ (sessionMark session) ?_
      simp only [mark, stored, hsesns, bind_some]
      rw [show sessions.lookup claimant.clientId = some session from hlook]
      rfl
  exact congrArg (fun clientId => Mark.mk clientId _ true) hcl

section

variable (hs : Sound s) (htask : s.tasks i = some (.connection c))
  (hmoves : Moves settings order s i c b c' effect)
include hs htask hmoves

/-- A step without the slot, which leaves the owners alone. -/
theorem Sound.looseMove (hfree : c.phase.holdsSlot = false)
    (hstdy : Steady s.broker b) : Sound (s.moved i b c' effect) := by
  obtain ⟨-, hunlocks, hkeeps⟩ := hmoves.facts
  have hquiet : effect ≠ .unlocks := by
    intro hunlock
    rw [(hunlocks hunlock).1] at hfree
    cases hfree
  refine hs.loose (hs.slot.moves htask hmoves) ?_
    (show (Task.connection c').holdsSlot = false from (hkeeps hquiet).trans hfree) tasks_moved
    (slots_moved hquiet) (by rwa [broker_moved])
  intro t ht
  rw [htask] at ht
  cases ht
  exact hfree

/-- A step with the slot of the client. -/
theorem Sound.heldMove (hheld : c.phase.holdsSlot)
    (hbeyond : SteadyBeyond c.clientId s.broker b) (hfits : (Task.connection c').Fits b)
    (hkeyed : ∀ mark, b.mark c.clientId = some mark → mark.clientId = c.clientId)
    (hagreed : (s.moved i b c' effect).Agreed c.clientId) : Sound (s.moved i b c' effect) := by
  refine hs.held (hs.slot.moves htask hmoves) htask hheld tasks_moved ?_ ?_ ?_ ?_ hagreed
  · exact fun clientId hne => lookup_slots_moved (.inl (hmoves.clientId_eq ▸ hne))
  · rwa [broker_moved]
  · rwa [broker_moved]
  · rwa [broker_moved]

/-- A step with the slot of the client, which leaves the owners alone. -/
theorem Sound.steadyMove (hheld : c.phase.holdsSlot)
    (hnot : ∀ claim, c.phase ≠ .stored claim) (hstdy : Steady s.broker b)
    (hfits : (Task.connection c').Fits b) : Sound (s.moved i b c' effect) := by
  refine hs.heldMove htask hmoves hheld hstdy.beyond hfits
    (fun mark hmark => hs.keyed _ _ ((hstdy.mark _).symm.trans hmark)) ?_
  intro _ hinfo
  rw [broker_moved, hstdy.clients] at hinfo
  rw [broker_moved]
  refine ⟨_, (hstdy.mark _).trans (hs.mark_of_entry htask hheld ?_ hinfo), .inl rfl⟩
  rintro _ claim h
  cases h
  exact hnot claim

end

theorem handleDisconnect_steady {reasonCode : ReasonCode} {expiry : Option UInt32} {written : Bool}
    (h : handleDisconnect settings s c reasonCode expiry written = some (b, c')) :
    Steady s.broker b := by
  unfold handleDisconnect at h
  dsimp only at h
  split at h
  · cases h
    exact .refl _
  · split at h
    · cases h
      exact .refl _
    · split at h
      · cases h
      · cases h
        exact steady_updateStored fun _ => rfl

/-- Every step of a connection keeps the agreement. -/
theorem Sound.moves (hs : Sound s) (htask : s.tasks i = some (.connection c))
    (hmoves : Moves settings order s i c b c' effect) : Sound (s.moved i b c' effect) := by
  have hfits := hs.fits i _ htask
  dsimp only [Task.Fits] at hfits
  cases id hmoves with
  | mismatched hph | unlocked hph =>
    exact hs.steadyMove htask hmoves (by rw [hph]; rfl) (by simp [hph]) (.refl _) trivial
  | claimed hph =>
    refine hs.steadyMove htask hmoves (by rw [hph]; rfl) (by simp [hph]) (.of_eq rfl rfl) ?_
    exact sessionMark_prepareClaim hs
  | stored hph =>
    rename_i claim
    simp only [hph] at hfits
    have hcl : claim.session.clientId = c.clientId := congrArg Mark.clientId hfits
    have hmark : (s.broker.writeClaim claim).mark c.clientId =
        some ⟨c.clientId, .ofNat claim.generation, true⟩ := by
      rw [mark_writeClaim hs.storage hcl, hfits]
    have hslot := hs.slot i _ htask (by simp [Task.holdsSlot, hph, Phase.holdsSlot])
    refine hs.heldMove htask hmoves (by rw [hph]; rfl) ?_ ?_ ?_ ?_
    · exact steadyBeyond_writeClaim hcl
    · exact hmark
    · intro mark h
      rw [hmark] at h
      cases h
      rfl
    · intro info _
      rw [broker_moved]
      refine ⟨_, hmark, .inr ⟨i, { c with phase := .stored claim }, claim, hslot, ?_, rfl, rfl⟩⟩
      rw [tasks_moved, update_self]
  | unwritten hph | installed hph =>
    exact hs.steadyMove htask hmoves (by rw [hph]; rfl) (by simp [hph]) (.of_eq rfl rfl) trivial
  | registered hph =>
    rename_i claim
    simp only [hph] at hfits
    refine hs.heldMove htask hmoves (by rw [hph]; rfl) ?_ trivial ?_ ?_
    · exact ⟨rfl, fun _ hne => lookup_insert_of_ne _ hne, fun _ _ => rfl⟩
    · intro mark h
      exact hs.keyed c.clientId mark h
    · intro info hinfo
      rw [broker_moved] at hinfo ⊢
      have hent : info = ⟨claim.generation, i⟩ := by
        rw [registerSession, lookup_insert] at hinfo
        exact (some.inj hinfo).symm
      rw [hent]
      exact ⟨_, hfits, .inl rfl⟩
  | answered hph | unanswered hph | closed hph | takenOver hph | cancelled hph
  | published hph | denied hph =>
    exact hs.looseMove htask hmoves (by rw [hph]; rfl) (.refl _)
  | disconnected hph hhand =>
    exact hs.looseMove htask hmoves (by rw [hph]; rfl) (handleDisconnect_steady hhand)
  | arming hph =>
    exact hs.steadyMove htask hmoves (by rw [hph]; rfl) (by simp [hph]) steady_armWill
      trivial
  | unarmed hph | sessionless hph | displaced hph | unpersisted hph =>
    exact hs.steadyMove htask hmoves (by rw [hph]; rfl) (by simp [hph]) (.refl _)
      trivial
  | unflowed hph =>
    exact hs.steadyMove htask hmoves (by rw [hph]; rfl) (by simp [hph])
      steady_releaseSessionFlows trivial
  | released hph hown =>
    have hgone : (s.broker.releaseClient c.clientId c.generation
        c.sessionPreserved).1.clients.lookup
        c.clientId = none := by
      rw [releaseClient, hown]
      exact lookup_erase _ _
    obtain ⟨hbeyond, hmark⟩ := steadyBeyond_releaseClient (b := s.broker)
    refine hs.heldMove htask hmoves (by rw [hph]; rfl) ?_ ?_ ?_ ?_
    · exact hbeyond
    · exact hgone
    · intro mark h
      rw [hmark] at h
      exact hs.keyed _ mark h
    · intro info hinfo
      rw [broker_moved] at hinfo
      cases hgone.symm.trans hinfo
  | persisted hph hsess =>
    simp only [hph] at hfits
    refine hs.heldMove htask hmoves (by rw [hph]; rfl) ?_ trivial ?_ ?_
    · exact steadyBeyond_persistSessionEnd
    · intro mark h
      exact keyed_persistSessionEnd (hs.keyed c.clientId) h
    · intro info hinfo
      rw [broker_moved, clients_persistSessionEnd] at hinfo
      cases hfits.symm.trans hinfo
  | abandoned hph | unwilling hph | willDelayed hph | willDropped hph =>
    exact hs.looseMove htask hmoves (by rw [hph]; rfl) steady_finishQueue
  | willPublished hph | willDenied hph =>
    exact hs.looseMove htask hmoves (by rw [hph]; rfl)
      (steady_finishQueue.trans steady_clearStoredWill)
  | fired hph => exact hs.looseMove htask hmoves (by rw [hph]; rfl) steady_claimWill

/-! ## Steps of sweeps -/

theorem removeExpired_beyond (hsesns : b.sessions = some sessions) :
    SteadyBeyond clientId b
      { b with sessions := some (sessions.removeExpiredSession clientId now).1 } := by
  refine ⟨by rw [hsesns]; rfl, fun _ _ => rfl, fun c hne => ?_⟩
  unfold mark stored
  rw [hsesns]
  dsimp only [bind_some]
  rw [Sessions.lookup_removeExpiredSession_of_ne hne]

theorem stored_removeExpired {session : ClientSession} (hsesns : b.sessions = some sessions)
    (h : { b with sessions := some (sessions.removeExpiredSession clientId now).1 }.stored
      clientId = some session) : b.stored clientId = some session := by
  unfold stored at h ⊢
  rw [hsesns]
  dsimp only [bind_some] at h ⊢
  unfold Sessions.removeExpiredSession at h
  split at h
  · rw [lookup_erase] at h
    cases h
  · exact h

theorem stored_endStrandedSession {clientId c : String} :
    (b.endStrandedSession clientId token now).stored c =
      (b.stored c).map fun session =>
        if c = clientId ∧ session.connectionToken = token then
          session.markDisconnected (.ofNat (now / 1000000)) now
        else session := by
  unfold endStrandedSession stored
  cases b.sessions with
  | none => rfl
  | some sessions => simp only [map_some, bind_some, Sessions.lookup_updateSession]

theorem stored_endStrandedSession_of_ne {clientId c : String}
    (hne : c ≠ clientId) : (b.endStrandedSession clientId token now).stored c = b.stored c := by
  rw [stored_endStrandedSession]
  simp [hne]

/-- Every step of a sweep keeps the agreement. -/
theorem Sound.sweeps (hs : Sound s)
    (htask : s.tasks i = some (.sweep clientId stage))
    (hsweeps : Sweeps s clientId stage b stage') :
    Sound ({ s with broker := b }.setTask i (.sweep clientId stage')) := by
  have hfits := hs.fits i _ htask
  have hhold : (Task.sweep clientId stage).holdsSlot := by cases hsweeps <;> rfl
  have hslot : ({ s with broker := b }.setTask i (.sweep clientId stage')).SlotsHeld :=
    hs.slot.update htask rfl rfl (fun _ => hhold) (fun _ _ => rfl)
  -- a step that leaves the owners alone
  have steady (hstdy : Steady s.broker b) (hfits : (Task.sweep clientId stage').Fits b) :=
    hs.steady hslot htask hhold (fun _ _ h => nomatch h) rfl (fun _ _ => rfl) hstdy hfits
  -- a step on the session of a client that is not registered
  have unowned : s.broker.clients.lookup clientId = none → b.clients = s.broker.clients →
      SteadyBeyond clientId s.broker b →
      (∀ mark, b.mark clientId = some mark → mark.clientId = clientId) →
      (Task.sweep clientId stage').Fits b →
      Sound ({ s with broker := b }.setTask i (.sweep clientId stage')) := by
    intro hnone hcls hbeyond hkeyed hfits
    refine hs.held hslot htask hhold rfl (fun _ _ => rfl) hbeyond hfits hkeyed ?_
    intro info hinfo
    have hinfo' : b.clients.lookup clientId = some info := hinfo
    rw [hcls, hnone] at hinfo'
    cases hinfo'
  cases hsweeps with
  | owned | unwritten | kept | unended => exact steady (.refl _) trivial
  | unowned hnone => exact steady (.refl _) hnone
  | storeless | found | gone => exact steady (.refl _) hfits
  | expired hsesns =>
    refine unowned hfits rfl (removeExpired_beyond hsesns) ?_ hfits
    intro mark hmark
    obtain ⟨session, hsto, hm⟩ := map_eq_some_iff.mp hmark
    refine hs.keyed clientId mark ?_
    unfold BrokerState.mark
    rw [stored_removeExpired hsesns hsto, map_some, hm]
  | ended =>
    rename_i token
    refine unowned hfits rfl ⟨by simp [endStrandedSession], fun _ _ => rfl, fun c hne => ?_⟩ ?_
      trivial
    · exact congrArg (Option.map sessionMark) (stored_endStrandedSession_of_ne hne)
    · intro mark hmark
      have hmark' : ((s.broker.endStrandedSession clientId token s.clock).stored clientId).map
          sessionMark =
          some mark := hmark
      rw [stored_endStrandedSession, map_map] at hmark'
      obtain ⟨session, hsto, hm⟩ := map_eq_some_iff.mp hmark'
      have hid := hs.keyed clientId (sessionMark session) (by simp [BrokerState.mark, hsto])
      rw [← hm]
      dsimp only [comp]
      split <;> exact hid
  | cleared => exact steady (.of_eq rfl rfl) trivial

/-- A sweep does not touch the session of a client that is registered. -/
theorem Sweeps.stored_eq {clientId c : String}
    (hfits : (Task.sweep clientId stage).Fits s.broker) (hsweeps : Sweeps s clientId stage b stage')
    (hinfo : s.broker.clients.lookup c = some info) : b.stored c = s.broker.stored c := by
  -- where a session is written, the client of the sweep is not registered
  have hne : s.broker.clients.lookup clientId = none → c ≠ clientId := by
    rintro hnone rfl
    rw [hnone] at hinfo
    cases hinfo
  cases hsweeps with
  | expired hsesns =>
    unfold stored
    rw [hsesns]
    exact Sessions.lookup_removeExpiredSession_of_ne (hne hfits)
  | ended => exact stored_endStrandedSession_of_ne (hne hfits)
  | _ => rfl

/-! ## Agreement in every run -/

theorem Locks.fits (h : Locks t t') : t'.Fits b := by
  cases h <;> trivial

theorem Sound.locks (hs : Sound s) (htask : s.tasks i = some t)
    (hfree : s.slots.lookup t.clientId = none) (hlocks : Locks t t') :
    Sound ({ s with slots := s.slots.insert t.clientId i }.setTask i t') := by
  obtain ⟨hpre, hid⟩ := hlocks.facts
  refine ⟨hs.storage, hs.slot.locks hfree hlocks, ?_, hs.keyed, ?_⟩
  · intro j u hj
    dsimp only [State.setTask] at hj ⊢
    rw [update_apply] at hj
    split at hj
    · cases hj
      exact hlocks.fits
    · exact hs.fits j u hj
  · intro clientId info hinfo
    obtain ⟨token, hmark, htoken⟩ := hs.agreed clientId info hinfo
    refine ⟨token, hmark, htoken.imp_right ?_⟩
    rintro ⟨j, c, claim, hslot, hj, hcl, hph⟩
    have hji : j ≠ i := by
      rintro rfl
      rw [htask] at hj
      cases hj
      simp [Task.holdsSlot, hph, Phase.holdsSlot] at hpre
    have hne : clientId ≠ t.clientId := by
      rintro rfl
      rw [hfree] at hslot
      cases hslot
    refine ⟨j, c, claim, ?_, ?_, hcl, hph⟩
    · exact (lookup_insert_of_ne _ hne).trans hslot
    · dsimp only [State.setTask]
      rw [update_of_ne hji]
      exact hj

/-- Every step keeps the agreement. -/
theorem Sound.act (hs : Sound s) (h : act settings order s a = some s') : Sound s' := by
  cases act_steps h with
  | advanced => exact ⟨hs.storage, hs.slot, hs.fits, hs.keyed, hs.agreed⟩
  | started _ hnone hnew =>
    refine hs.loose (hs.slot.act h) (fun t ht => ?_) hnew.holdsSlot rfl rfl (.refl _)
    rw [hnone] at ht
    cases ht
  | locked htask hfree hlocks => exact hs.locks htask hfree hlocks
  | moved _ htask hmoves => exact hs.moves htask hmoves
  | swept htask hsweeps => exact hs.sweeps htask hsweeps
  | unlocked _ htask =>
    exact hs.steady (hs.slot.act h) htask rfl (fun _ _ h => nomatch h) rfl
      (fun c hne => lookup_erase_ne hne) (.refl _) trivial

/-- A step that ends a registration leaves the stored sessions alone. -/
theorem Moves.entry_kept (hmoves : Moves settings order s i c b c' effect) :
    (∀ clientId, s.broker.clients.lookup clientId ≠ none → b.clients.lookup clientId ≠ none) ∨
      ∀ clientId, b.mark clientId = s.broker.mark clientId := by
  have same : b.clients = s.broker.clients → (∀ clientId,
      s.broker.clients.lookup clientId ≠ none → b.clients.lookup clientId ≠ none) := by
    intro hcls clientId
    rw [hcls]
    exact id
  cases hmoves with
  | released => exact .inr steadyBeyond_releaseClient.2
  | registered =>
    refine .inl fun clientId hent => ?_
    by_cases hne : clientId = c.clientId
    · rw [hne, registerSession, lookup_insert]
      simp
    · rwa [registerSession, lookup_insert_of_ne _ hne]
  | disconnected _ hhand => exact .inr (handleDisconnect_steady hhand).mark
  | persisted => exact .inl (same clients_persistSessionEnd)
  | arming => exact .inr steady_armWill.mark
  | unflowed => exact .inr steady_releaseSessionFlows.mark
  | abandoned | unwilling | willDelayed | willDropped => exact .inr steady_finishQueue.mark
  | willPublished | willDenied => exact .inr (steady_finishQueue.trans steady_clearStoredWill).mark
  | fired => exact .inr steady_claimWill.mark
  | _ => exact .inl (same rfl)

/-- The session of a registered client is stored and connected after any step. -/
theorem Sound.mark_after (hs : Sound s) (h : Lifecycle.act settings order s a = some s')
    (hinfo : s.broker.clients.lookup clientId = some info) :
    ∃ token, s'.broker.mark clientId = some ⟨clientId, token, true⟩ := by
  have hkept : s'.broker.clients.lookup clientId ≠ none ∨
      s'.broker.mark clientId = s.broker.mark clientId := by
    have hent : s.broker.clients.lookup clientId ≠ none := by simp [hinfo]
    cases act_steps h with
    | moved _ htask hmoves =>
      rw [broker_moved]
      exact hmoves.entry_kept.imp (fun hk => hk clientId hent) fun hk => hk clientId
    | swept htask hsweeps =>
      exact .inr (congrArg (Option.map sessionMark) (hsweeps.stored_eq (hs.fits _ _ htask) hinfo))
    | _ => exact .inr rfl
  rcases hkept with hent | hmark
  · obtain ⟨info', hinfo'⟩ := Option.ne_none_iff_exists'.mp hent
    obtain ⟨token, hmark, -⟩ := (hs.act h).agreed clientId info' hinfo'
    exact ⟨token, hmark⟩
  · obtain ⟨token, hpre, -⟩ := hs.agreed clientId info hinfo
    exact ⟨token, hmark.trans hpre⟩

/-- A broker that has a storage and has not accepted a connection yet; the sessions it finds are
stored under their client identifiers. -/
structure Initial (s : State) : Prop where
  storage : s.broker.sessions.isSome = true
  keyed : ∀ clientId session, s.broker.stored clientId = some session → session.clientId = clientId
  clients : s.broker.clients = ∅
  tasks : ∀ i, s.tasks i = none

theorem Initial.sound (h : Initial s) : Sound s := by
  refine ⟨h.storage, fun i t ht => ?_, fun i t ht => ?_, fun clientId _ hmark => ?_,
    fun clientId _ hinfo => ?_⟩
  · rw [h.tasks i] at ht
    cases ht
  · rw [h.tasks i] at ht
    cases ht
  · obtain ⟨session, hsto, hm⟩ := map_eq_some_iff.mp hmark
    rw [← hm]
    exact h.keyed clientId session hsto
  · rw [h.clients, lookup_empty] at hinfo
    cases hinfo

/-- In every run, whenever the slot of a client is free and the router has the client with a
generation, the stored session has that generation and is marked connected.  Whatever step
comes next, the session of a client the router has stays in the storage and is not expired,
and no step of a sweep changes it. -/
theorem ownership_agreement {s₀ : State} (hinitial : Initial s₀)
    (hrun : Reachable (act settings order) (fun _ _ => True) s₀ s) {clientId : String}
    {info : ClientInfo} (hinfo : s.broker.clients.lookup clientId = some info) :
    (s.slots.lookup clientId = none →
      ∃ session, s.broker.stored clientId = some session ∧
        session.connectionToken = .ofNat info.generation ∧ session.connected = true) ∧
    ∀ a s', act settings order s a = some s' →
      (∃ session, s'.broker.stored clientId = some session ∧ ∀ now, session.isExpired now = false) ∧
        (a.isSweep = true → s'.broker.stored clientId = s.broker.stored clientId) := by
  have hs : Sound s := hrun.invariant hinitial.sound fun _ _ _ hs _ h => hs.act h
  constructor
  · intro hfree
    obtain ⟨token, hmark, htoken⟩ := hs.agreed clientId info hinfo
    obtain ⟨session, hstored, hm⟩ := map_eq_some_iff.mp hmark
    refine ⟨session, hstored, ?_, congrArg Mark.connected hm⟩
    rcases htoken with htoken | ⟨i, c, _, hslot, -⟩
    · rw [← htoken]
      exact congrArg Mark.token hm
    · rw [hfree] at hslot
      cases hslot
  · intro a s' h
    constructor
    · obtain ⟨token, hmark⟩ := hs.mark_after h hinfo
      obtain ⟨session, hstored, hm⟩ := map_eq_some_iff.mp hmark
      refine ⟨session, hstored, fun now => ?_⟩
      have hconnected : session.connected := congrArg Mark.connected hm
      simp [ClientSession.isExpired, hconnected]
    · intro hsweep
      cases act_steps h with
      | swept htask hsweeps => exact hsweeps.stored_eq (hs.fits _ _ htask) hinfo
      | started hno | moved hno | unlocked hno => rw [hsweep] at hno; cases hno
      | _ => rfl

/-- A connection that has registered while a sweep of its client waits for the slot. -/
theorem ownership_agreement_first :
    ∃ s : State, s.broker.clients.lookup "c" = some ⟨1, 0⟩ ∧ s.slots.lookup "c" = none ∧
      (∃ session, s.broker.stored "c" = some session ∧ session.connectionToken = .ofNat 1 ∧
        session.connected = true) ∧
      ∃ s', act {} (fun _ => []) s (.lock 1) = some s' := by
  let s₀ : State := { broker := { sessions := some ∅ } }
  have hinitial : Initial s₀ := by
    refine ⟨rfl, fun clientId session h => ?_, rfl, fun _ => rfl⟩
    simp [s₀, stored] at h
  let run : List Action :=
    [.connect 0 ⟨{ clientId := "c", protocolVersion := 5, cleanStart := true, keepAlive := 60 },
      none⟩,
      .sweep 1 "c", .lock 0, .read 0,
      .write 0 true, .register 0, .install 0]
  have hfinal : (follow (act {} fun _ => []) s₀ run).map
      (fun s => (s.broker.clients.lookup "c", s.slots.lookup "c",
        (act {} (fun _ => []) s (.lock 1)).isSome)) = some (some ⟨1, 0⟩, none, true) := by
    decide +kernel
  obtain ⟨s, hfollow, hfacts⟩ := map_eq_some_iff.mp hfinal
  simp only [Prod.mk.injEq] at hfacts
  obtain ⟨hentry, hfree, hlock⟩ := hfacts
  have hrun : Reachable (act {} fun _ => []) (fun _ _ => True) s₀ s :=
    Reachable.start.follow (fun _ _ _ => trivial) hfollow
  exact ⟨s, hentry, hfree, (ownership_agreement hinitial hrun hentry).1 hfree,
    isSome_iff_exists.mp hlock⟩

end Lifecycle

end MqttLib.Broker
