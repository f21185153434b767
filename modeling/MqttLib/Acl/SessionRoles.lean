/-
MqttLib.Acl.SessionRoles

The roles that federated tokens grant (`acl/mod.rs`, `auth_mechanisms/jwt_federated.rs`):
an authentication writes the entry of its user, and the end of a connection clears the
entry of the connection's user if it is session-bound.

There is one entry for each user, whoever wrote it last.  A step keeps what is promised to
the users (`Kept`) exactly when it is `Harmless`: the entry it writes has the roles of the
other connections of the user, it clears no entry another connection relies on, and it does
not leave one behind.
-/

import MqttLib.Foundation.LastWrite
import MqttLib.Foundation.Reachable

namespace MqttLib.Acl.SessionRoles

open Foundation Function Option Finmap

/-! ## State -/

/-- `FederatedRoleEntry`, without the issuer and mode, which are only reported. -/
structure FederatedRoleEntry where
  roles : Finset String
  sessionBound : Bool
  deriving DecidableEq

/-- A connection authenticates in its handshake, is established, and ends. -/
inductive Phase where
  | fresh
  | connecting
  | established
  | ended
  deriving DecidableEq

structure Connection where
  phase : Phase := .fresh
  /-- The handler's `user_id`. -/
  userId : Option String := none
  /-- What the last token of the connection granted. -/
  granted : Option FederatedRoleEntry := none

structure State where
  userRoles : Table String (Finset String) := ∅
  federatedUserRoles : Table String FederatedRoleEntry := ∅
  connections : Nat → Connection := fun _ => {}

/-- A live connection obtained session-bound roles for the user. -/
def Connection.Holds (c : Connection) (user : String) (roles : Finset String) : Prop :=
  (c.phase = .connecting ∨ c.phase = .established) ∧ c.userId = some user ∧
    c.granted = some ⟨roles, true⟩

namespace State

section

variable (s : State) (k : Nat) (user : String)

/-- The roles the user has without a token. -/
def ownRoles : Finset String := (s.userRoles.lookup user).getD ∅

/-- The roles `check_permission` finds for the user. -/
def allAssignedRoles : Finset String :=
  s.ownRoles user ∪ ((s.federatedUserRoles.lookup user).map (·.roles)).getD ∅

def sessionBound : Bool := (s.federatedUserRoles.lookup user).any (·.sessionBound)

/-- The session-bound roles of the user. -/
def sessionBoundRoles : Finset String :=
  match s.federatedUserRoles.lookup user with
  | some entry => if entry.sessionBound then entry.roles else ∅
  | none => ∅

/-! ## Operations -/

def setFederatedRoles (entry : FederatedRoleEntry) : State :=
  { s with federatedUserRoles := s.federatedUserRoles.insert user entry }

def clearSessionBoundRoles : State :=
  match s.federatedUserRoles.lookup user with
  | some entry =>
    if entry.sessionBound then { s with federatedUserRoles := s.federatedUserRoles.erase user }
    else s
  | none => s

def setConnection (c : Connection) : State :=
  { s with connections := Function.update s.connections k c }

/-- A token is accepted, in the handshake or from an established connection; it may be for
another user than the connection's last one. -/
def authenticate (entry : FederatedRoleEntry) : Option State :=
  let accepted (phase : Phase) :=
    (s.setFederatedRoles user entry).setConnection k ⟨phase, some user, some entry⟩
  match (s.connections k).phase with
  | .fresh => some (accepted .connecting)
  | .established => some (accepted .established)
  | _ => none

/-- The handshake goes through another provider, which grants no roles. -/
def join (userId : Option String) : Option State :=
  match (s.connections k).phase with
  | .fresh => some (s.setConnection k ⟨.connecting, userId, none⟩)
  | _ => none

def establish : Option State :=
  match (s.connections k).phase with
  | .connecting => some (s.setConnection k { s.connections k with phase := .established })
  | _ => none

/-- The handshake fails after the authentication: `run` returns without the clean-up. -/
def fail : Option State :=
  match (s.connections k).phase with
  | .connecting => some (s.setConnection k { s.connections k with phase := .ended })
  | _ => none

/-- `cleanup_session` when an established connection ends. -/
def cleanup : Option State :=
  match (s.connections k).phase with
  | .established =>
    let cleared := match (s.connections k).userId with
      | some user => s.clearSessionBoundRoles user
      | none => s
    some (cleared.setConnection k { s.connections k with phase := .ended })
  | _ => none

end

end State

inductive Action where
  | authenticate (k : Nat) (user : String) (entry : FederatedRoleEntry)
  | join (k : Nat) (userId : Option String)
  | establish (k : Nat)
  | fail (k : Nat)
  | cleanup (k : Nat)

def act (s : State) : Action → Option State
  | .authenticate k user entry => s.authenticate k user entry
  | .join k userId => s.join k userId
  | .establish k => s.establish k
  | .fail k => s.fail k
  | .cleanup k => s.cleanup k

/-! ## What is promised to the users -/

/-- Every role a live connection obtained for the user is assigned, and without such a connection
the user has no session-bound role. -/
structure KeptFor (s : State) (user : String) : Prop where
  assigned : ∀ k roles, (s.connections k).Holds user roles → roles ⊆ s.allAssignedRoles user
  cleared : (∀ k roles, ¬ (s.connections k).Holds user roles) → s.sessionBoundRoles user = ∅

def Kept (s : State) : Prop := ∀ user, KeptFor s user

/-- Without the connection, another one holds session-bound roles of the user or the user has
none. -/
def Covered (s : State) (k : Nat) (user : String) : Prop :=
  (∃ k', k' ≠ k ∧ ∃ roles, (s.connections k').Holds user roles) ∨ s.sessionBoundRoles user = ∅

/-- The step takes no role from another connection, and leaves none behind. -/
def Harmless (s : State) : Action → Prop
  | .authenticate k user entry =>
    (∀ k' roles, k' ≠ k → (s.connections k').Holds user roles →
      roles ⊆ s.ownRoles user ∪ entry.roles) ∧
    (∀ former roles, former ≠ user → (s.connections k).Holds former roles → Covered s k former)
  | .fail k => ∀ user roles, (s.connections k).Holds user roles → Covered s k user
  | .cleanup k => ∀ user, (s.connections k).userId = some user → s.sessionBound user = true →
    ∀ k' roles, k' ≠ k → (s.connections k').Holds user roles → roles ⊆ s.ownRoles user
  | .join _ _ | .establish _ => True

variable {s s' : State} {k : Nat} {user : String}

theorem connections_setConnection (s : State) (k : Nat) (c : Connection) :
    (s.setConnection k c).connections = update s.connections k c :=
  rfl

theorem Kept.initial (userRoles : Table String (Finset String)) : Kept { userRoles } := by
  intro _
  refine ⟨?_, fun _ => ?_⟩
  · rintro k roles ⟨h | h, -⟩ <;> cases h
  · unfold State.sessionBoundRoles
    rw [lookup_empty]

/-! ## One user -/

theorem keptFor_congr (hown : s'.userRoles = s.userRoles)
    (hent : s'.federatedUserRoles.lookup user = s.federatedUserRoles.lookup user)
    (hhold : ∀ k roles, (s'.connections k).Holds user roles ↔ (s.connections k).Holds user roles) :
    KeptFor s' user ↔ KeptFor s user := by
  have hasg : s'.allAssignedRoles user = s.allAssignedRoles user := by
    unfold State.allAssignedRoles State.ownRoles
    rw [hown, hent]
  have hbound : s'.sessionBoundRoles user = s.sessionBoundRoles user := by
    unfold State.sessionBoundRoles
    rw [hent]
  constructor
  · rintro ⟨h₁, h₂⟩
    refine ⟨fun k roles h => ?_, fun h => ?_⟩
    · rw [← hasg]
      exact h₁ k roles ((hhold k roles).mpr h)
    · rw [← hbound]
      exact h₂ fun k roles hk => h k roles ((hhold k roles).mp hk)
  · rintro ⟨h₁, h₂⟩
    refine ⟨fun k roles h => ?_, fun h => ?_⟩
    · rw [hasg]
      exact h₁ k roles ((hhold k roles).mp h)
    · rw [hbound]
      exact h₂ fun k roles hk => h k roles ((hhold k roles).mpr hk)

variable {c : Connection} {entry : FederatedRoleEntry}

/-- A connection stops holding roles of a user whose entry stays. -/
theorem keptFor_release (hs : KeptFor s user) (hown : s'.userRoles = s.userRoles)
    (hent : s'.federatedUserRoles.lookup user = s.federatedUserRoles.lookup user)
    (hconns : s'.connections = update s.connections k c) (hnot : ∀ roles, ¬ c.Holds user roles) :
    KeptFor s' user ↔ ∀ roles, (s.connections k).Holds user roles → Covered s k user := by
  have hbound : s'.sessionBoundRoles user = s.sessionBoundRoles user := by
    unfold State.sessionBoundRoles
    rw [hent]
  by_cases hheld : ∃ roles, (s.connections k).Holds user roles
  · obtain ⟨held, hheld⟩ := hheld
    constructor
    · intro hkept roles _
      by_cases hcover : ∃ k', k' ≠ k ∧ ∃ roles, (s.connections k').Holds user roles
      · exact .inl hcover
      · refine .inr ?_
        rw [← hbound]
        refine hkept.cleared (forall_update hconns hnot ?_)
        exact fun k' hkk roles' hk' => hcover ⟨k', hkk, roles', hk'⟩
    · intro hcovered
      refine ⟨?_, ?_⟩
      · refine forall_update hconns (fun roles h => (hnot roles h).elim) ?_
        intro k' _ roles hk'
        have hpre := hs.assigned k' roles hk'
        unfold State.allAssignedRoles State.ownRoles at hpre ⊢
        rw [hown, hent]
        exact hpre
      · intro hnone
        rw [hbound]
        rcases hcovered held hheld with ⟨k', hkk, roles, hk'⟩ | hemp
        · refine (hnone k' roles ?_).elim
          rwa [hconns, update_of_ne hkk]
        · exact hemp
  · -- the connection held nothing of the user's, so nothing changes
    have hnone : ∀ roles, ¬ (s.connections k).Holds user roles := fun roles h => hheld ⟨roles, h⟩
    refine iff_of_true ((keptFor_congr hown hent ?_).mpr hs) (fun roles h => (hnone roles h).elim)
    exact forall_update hconns (fun roles => iff_of_false (hnot roles) (hnone roles))
      fun _ _ _ => .rfl

/-- The entry of the user is written with the roles of a token. -/
theorem keptFor_write {phase : Phase} (hph : phase = .connecting ∨ phase = .established) :
    KeptFor ((s.setFederatedRoles user entry).setConnection k ⟨phase, some user, some entry⟩) user ↔
      ∀ k' roles, k' ≠ k → (s.connections k').Holds user roles →
        roles ⊆ s.ownRoles user ∪ entry.roles := by
  have hlook : (s.federatedUserRoles.insert user entry).lookup user = some entry := lookup_insert _
  have hasg : ((s.setFederatedRoles user entry).setConnection k
      ⟨phase, some user, some entry⟩).allAssignedRoles user = s.ownRoles user ∪ entry.roles := by
    show s.ownRoles user ∪ (((s.federatedUserRoles.insert user entry).lookup user).map
      (·.roles)).getD ∅ = _
    rw [hlook]
    rfl
  constructor
  · intro hkept k' roles hkk hhold
    rw [← hasg]
    refine hkept.assigned k' roles ?_
    show (update s.connections k _ k').Holds user roles
    rw [update_of_ne hkk]
    exact hhold
  · intro hoth
    refine ⟨?_, ?_⟩
    · rw [hasg]
      refine forall_update (connections_setConnection _ k _) ?_
        fun k' hkk roles => hoth k' roles hkk
      rintro roles ⟨-, -, hent⟩
      cases hent
      exact Finset.subset_union_right
    · intro hnone
      show (match (s.federatedUserRoles.insert user entry).lookup user with
        | some entry => if entry.sessionBound then entry.roles else ∅
        | none => ∅) = (∅ : Finset String)
      rw [hlook]
      cases hbound : entry.sessionBound with
      | false => simp [hbound]
      | true =>
        -- a session-bound entry is held by the connection that wrote it
        refine (hnone k entry.roles ?_).elim
        show (update s.connections k _ k).Holds user entry.roles
        rw [update_self]
        refine ⟨hph, rfl, ?_⟩
        rw [← hbound]

/-! ## The steps -/

theorem kept_accept (hs : Kept s) {phase : Phase}
    (hph : phase = .connecting ∨ phase = .established) :
    Kept ((s.setFederatedRoles user entry).setConnection k ⟨phase, some user, some entry⟩) ↔
      Harmless s (.authenticate k user entry) := by
  have hother : ∀ former, former ≠ user →
      (KeptFor ((s.setFederatedRoles user entry).setConnection k ⟨phase, some user, some entry⟩)
        former ↔ ∀ roles, (s.connections k).Holds former roles → Covered s k former) := by
    intro former hformer
    refine keptFor_release (hs former) rfl (lookup_insert_of_ne _ hformer) rfl ?_
    rintro roles ⟨-, huser, -⟩
    exact hformer (some.inj huser).symm
  constructor
  · intro hkept
    refine ⟨(keptFor_write hph).mp (hkept user), ?_⟩
    intro former roles hformer
    exact (hother former hformer).mp (hkept former) roles
  · rintro ⟨hoth, hformers⟩ former
    by_cases hformer : former = user
    · subst hformer
      exact (keptFor_write hph).mpr hoth
    · exact (hother former hformer).mpr fun roles => hformers former roles hformer

theorem kept_authenticate (hs : Kept s) (hstep : s.authenticate k user entry = some s') :
    Kept s' ↔ Harmless s (.authenticate k user entry) := by
  unfold State.authenticate at hstep
  dsimp only at hstep
  split at hstep
  · cases hstep
    exact kept_accept hs (.inl rfl)
  · cases hstep
    exact kept_accept hs (.inr rfl)
  · cases hstep

/-- A connection that holds the same before and after. -/
theorem kept_setConnection (hs : Kept s)
    (hhold : ∀ user roles, c.Holds user roles ↔ (s.connections k).Holds user roles) :
    Kept (s.setConnection k c) := by
  intro user
  have hsame : KeptFor (s.setConnection k c) user ↔ KeptFor s user := keptFor_congr rfl rfl ?_
  · exact hsame.mpr (hs user)
  exact forall_update (connections_setConnection s k c) (hhold user) fun _ _ _ => .rfl

theorem kept_fail (hs : Kept s) (hstep : s.fail k = some s') : Kept s' ↔ Harmless s (.fail k) := by
  unfold State.fail at hstep
  split at hstep
  · cases hstep
    refine forall_congr' ?_
    intro user
    refine keptFor_release (hs user) rfl rfl rfl ?_
    rintro roles ⟨h | h, -⟩ <;> cases h
  · cases hstep

theorem clearSessionBoundRoles_same :
    (s.clearSessionBoundRoles user).connections = s.connections ∧
      (s.clearSessionBoundRoles user).userRoles = s.userRoles := by
  unfold State.clearSessionBoundRoles
  split
  · split <;> exact ⟨rfl, rfl⟩
  · exact ⟨rfl, rfl⟩

theorem lookup_clearSessionBoundRoles :
    (s.clearSessionBoundRoles user).federatedUserRoles.lookup user =
      if s.sessionBound user then none else s.federatedUserRoles.lookup user := by
  unfold State.clearSessionBoundRoles State.sessionBound
  cases hlook : s.federatedUserRoles.lookup user with
  | none => simpa using hlook
  | some entry =>
    cases hbound : entry.sessionBound with
    | true => simp [hbound]
    | false => simpa [hbound] using hlook

theorem lookup_clearSessionBoundRoles_of_ne {other : String} (h : other ≠ user) :
    (s.clearSessionBoundRoles user).federatedUserRoles.lookup other =
      s.federatedUserRoles.lookup other := by
  unfold State.clearSessionBoundRoles
  split
  · split
    · exact lookup_erase_ne h
    · rfl
  · rfl

/-- The user of the connection that ends. -/
theorem keptFor_cleanup (hs : KeptFor s user) (hended : c.phase = .ended) :
    KeptFor ((s.clearSessionBoundRoles user).setConnection k c) user ↔
      (s.sessionBound user → ∀ k' roles, k' ≠ k → (s.connections k').Holds user roles →
        roles ⊆ s.ownRoles user) := by
  have hlook : (s.clearSessionBoundRoles user).federatedUserRoles.lookup user =
      if s.sessionBound user then none else s.federatedUserRoles.lookup user :=
    lookup_clearSessionBoundRoles
  have hself : ∀ roles, ¬ c.Holds user roles := by
    rintro roles ⟨h | h, -⟩ <;> rw [hended] at h <;> cases h
  have hhold : ∀ k' roles,
      ((s.clearSessionBoundRoles user).setConnection k c).connections k' |>.Holds
      user roles → k' ≠ k ∧ (s.connections k').Holds user roles := by
    have hconns := connections_setConnection (s.clearSessionBoundRoles user) k c
    rw [clearSessionBoundRoles_same.1] at hconns
    exact forall_update hconns (fun roles h => (hself roles h).elim) fun k' hkk roles h => ⟨hkk, h⟩
  have hasg : ((s.clearSessionBoundRoles user).setConnection k c).allAssignedRoles user =
      s.ownRoles user ∪ (((if s.sessionBound user then none else
        s.federatedUserRoles.lookup user).map (·.roles)).getD ∅) := by
    show (s.clearSessionBoundRoles user).ownRoles user ∪ _ = _
    rw [← hlook]
    unfold State.ownRoles
    rw [clearSessionBoundRoles_same.2]
    rfl
  -- no entry is left that lasts for the session
  have hclr : (s.clearSessionBoundRoles user).sessionBoundRoles user = ∅ := by
    show (match (s.clearSessionBoundRoles user).federatedUserRoles.lookup user with
      | some entry => if entry.sessionBound then entry.roles else ∅
      | none => ∅) = (∅ : Finset String)
    rw [hlook]
    unfold State.sessionBound
    cases s.federatedUserRoles.lookup user with
    | none => rfl
    | some entry => cases hbound : entry.sessionBound <;> simp [hbound]
  cases hbound : s.sessionBound user with
  | true =>
    rw [hbound] at hasg
    rw [if_pos rfl, map_none, getD_none, Finset.union_empty] at hasg
    constructor
    · intro hkept _ k' roles hkk h
      rw [← hasg]
      refine hkept.assigned k' roles ?_
      show (update (s.clearSessionBoundRoles user).connections k c k').Holds user roles
      rw [update_of_ne hkk, clearSessionBoundRoles_same.1]
      exact h
    · intro hoth
      refine ⟨?_, fun _ => hclr⟩
      intro k' roles h
      obtain ⟨hkk, hpre⟩ := hhold k' roles h
      rw [hasg]
      exact hoth rfl k' roles hkk hpre
  | false =>
    rw [hbound] at hasg
    refine iff_of_true ⟨?_, fun _ => hclr⟩ (fun h => nomatch h)
    intro k' roles h
    rw [hasg]
    exact hs.assigned k' roles (hhold k' roles h).2

theorem kept_cleanup (hs : Kept s) (hstep : s.cleanup k = some s') :
    Kept s' ↔ Harmless s (.cleanup k) := by
  unfold State.cleanup at hstep
  split at hstep
  · dsimp only at hstep
    split at hstep
    · rename_i user huser
      cases hstep
      constructor
      · intro h named hnamed
        obtain rfl : user = named := some.inj (huser.symm.trans hnamed)
        exact (keptFor_cleanup (hs user) rfl).mp (h user)
      · intro h other
        by_cases hoth : other = user
        · subst hoth
          exact (keptFor_cleanup (hs other) rfl).mpr (h other huser)
        -- the roles of another user are left as they are
        refine Iff.mpr (keptFor_release (hs other) clearSessionBoundRoles_same.2
          (lookup_clearSessionBoundRoles_of_ne hoth)
          (show _ = update s.connections k { s.connections k with phase := .ended } by
            unfold State.setConnection
            rw [clearSessionBoundRoles_same.1]) ?_) ?_
        · rintro roles ⟨h | h, -⟩ <;> cases h
        · rintro roles ⟨-, hholder, -⟩
          rw [huser] at hholder
          exact (hoth (some.inj hholder).symm).elim
    · rename_i huser
      cases hstep
      refine iff_of_true (kept_setConnection hs ?_) ?_
      · intro user roles
        refine iff_of_false ?_ ?_
        · rintro ⟨h | h, -⟩ <;> cases h
        · rintro ⟨-, h, -⟩
          rw [huser] at h
          cases h
      · intro user h
        rw [huser] at h
        cases h
  · cases hstep

/-- A step keeps what is promised exactly when it is harmless. -/
theorem kept_step_iff {a : Action} (hs : Kept s) (hstep : act s a = some s') :
    Kept s' ↔ Harmless s a := by
  cases a with
  | authenticate k user _ => exact kept_authenticate hs hstep
  | join k _ =>
    simp only [act, State.join] at hstep
    split at hstep
    · rename_i hfresh
      cases hstep
      refine iff_of_true (kept_setConnection hs ?_) trivial
      intro user roles
      refine iff_of_false ?_ ?_
      · rintro ⟨-, -, h⟩
        cases h
      · rintro ⟨h | h, -⟩ <;> rw [hfresh] at h <;> cases h
    · cases hstep
  | establish k =>
    simp only [act, State.establish] at hstep
    split at hstep
    · rename_i hconnecting
      cases hstep
      refine iff_of_true (kept_setConnection hs ?_) trivial
      intro user roles
      exact and_congr_left fun _ => iff_of_true (.inr rfl) (.inl hconnecting)
    · cases hstep
  | fail k => exact kept_fail hs hstep
  | cleanup k => exact kept_cleanup hs hstep

/-! ## Runs -/

/-- In every run of harmless steps, every role a live connection obtained for a user is assigned
to the user, and a user without such a connection has no session-bound role; and the first
step that is not harmless breaks one of the two. -/
theorem session_roles_last {userRoles : Table String (Finset String)}
    (hrun : Reachable act Harmless { userRoles } s) :
    Kept s ∧ ∀ a s', act s a = some s' → (Kept s' ↔ Harmless s a) := by
  have hs : Kept s := hrun.invariant (Kept.initial userRoles)
    (fun _ _ _ hs hharmless hstep => (kept_step_iff hs hstep).mpr hharmless)
  exact ⟨hs, fun a s' hstep => kept_step_iff hs hstep⟩

/-! ### Two connections of one user -/

def publisher : FederatedRoleEntry := ⟨{"publisher"}, true⟩

def afterToken : State :=
  (State.setFederatedRoles {} "idp:ann" publisher).setConnection 1
    ⟨.connecting, some "idp:ann", some publisher⟩

def afterHandshake : State :=
  afterToken.setConnection 1 ⟨.established, some "idp:ann", some publisher⟩

def afterEnd : State :=
  (afterHandshake.clearSessionBoundRoles "idp:ann").setConnection 1
    ⟨.ended, some "idp:ann", some publisher⟩

/-- One connection authenticates, is established and ends. -/
theorem session_roles_last_alone :
    act {} (.authenticate 1 "idp:ann" publisher) = some afterToken ∧
    act afterToken (.establish 1) = some afterHandshake ∧
    act afterHandshake (.cleanup 1) = some afterEnd ∧
    Kept afterHandshake ∧ afterHandshake.allAssignedRoles "idp:ann" = {"publisher"} ∧
    Kept afterEnd ∧ afterEnd.allAssignedRoles "idp:ann" = ∅ := by
  have htoken : Reachable act Harmless { userRoles := ∅ } afterToken := by
    refine Reachable.start.step (a := .authenticate 1 "idp:ann" publisher) ⟨?_, ?_⟩ rfl
    · rintro k' roles - ⟨h | h, -⟩ <;> cases h
    · rintro former roles - ⟨h | h, -⟩ <;> cases h
  have hhandshake : Reachable act Harmless { userRoles := ∅ } afterHandshake :=
    htoken.step (a := .establish 1) trivial rfl
  have hend : Reachable act Harmless { userRoles := ∅ } afterEnd := by
    refine hhandshake.step (a := .cleanup 1) ?_ rfl
    rintro user - - k' roles hk' ⟨h, -⟩
    have hother : afterHandshake.connections k' = {} :=
      (update_of_ne hk' ..).trans (update_of_ne hk' ..)
    rw [hother] at h
    rcases h with h | h <;> cases h
  exact ⟨rfl, rfl, rfl, (session_roles_last hhandshake).1, rfl, (session_roles_last hend).1, rfl⟩

/-- Two connections of a user have the same role.  The end of one takes it from the other, which
is established; and a handshake that fails after the authentication leaves a role behind. -/
theorem session_roles_lost_and_left :
    (∃ s, follow act {} [.authenticate 1 "idp:ann" publisher, .establish 1,
        .authenticate 2 "idp:ann" publisher, .establish 2, .cleanup 1] = some s ∧
      (s.connections 2).Holds "idp:ann" {"publisher"} ∧ s.allAssignedRoles "idp:ann" = ∅) ∧
    ∃ s, follow act {} [.authenticate 1 "idp:ann" publisher, .fail 1] = some s ∧
      (∀ k roles, ¬ (s.connections k).Holds "idp:ann" roles) ∧
      s.sessionBoundRoles "idp:ann" = {"publisher"} := by
  refine ⟨⟨_, rfl, ⟨.inr rfl, rfl, rfl⟩, rfl⟩,
    afterToken.setConnection 1 ⟨.ended, some "idp:ann", some publisher⟩, rfl, ?_, rfl⟩
  rintro k roles ⟨h, -⟩
  by_cases hk : k = 1
  · subst hk
    rcases h with h | h <;> cases h
  · have hother : (afterToken.setConnection 1
        ⟨.ended, some "idp:ann", some publisher⟩).connections k = {} :=
      (update_of_ne hk ..).trans (update_of_ne hk ..)
    rw [hother] at h
    rcases h with h | h <;> cases h

end MqttLib.Acl.SessionRoles
