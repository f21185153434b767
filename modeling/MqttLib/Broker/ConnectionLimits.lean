/-
MqttLib.Broker.ConnectionLimits

The numbers of connections the resource monitor keeps, and the limits on them
(`resource_monitor.rs`).  A counter is the number of handlers in the stages between its
increment and its decrement.

A socket is tested against the limits when it is accepted, and counted after its handshake;
a connection that moves to another address is not tested at all.  The tests keep the limits in
the runs in which no socket is tested while another one stands between its tests and its
registration.
-/

import MqttLib.Broker.RateWindows
import MqttLib.Foundation.Census

namespace MqttLib.Broker.ResourceMonitor

open Foundation Finmap Option Function

variable {limits : ResourceLimits} {s s' : State} {g : Nat} {ip : IpAddr}

/-! ## What the counters stand for -/

/-- Between the increment and the decrement of the connection count. -/
def Connection.Counted (c : Connection) : Prop :=
  c.stage = .counted ∨ c.stage = .listed ∨ c.stage = .serving

/-- Between the increment and the decrement of the count of its address. -/
def Connection.Listed (c : Connection) : Prop :=
  c.stage = .listed ∨ c.stage = .serving ∨ c.stage = .uncounted

def Connection.ListedAt (ip : IpAddr) (c : Connection) : Prop := c.Listed ∧ c.addr = ip

/-- There is room when a connection is counted. -/
def room (limits : ResourceLimits) (s : State) : Action → Bool
  | .count _ _ => s.connectionCount < limits.maxConnections
  | .list g => s.ipCount (s.connections g).addr < limits.maxConnectionsPerIp
  | .migrate g ip => ip = (s.connections g).addr ∨ s.ipCount ip < limits.maxConnectionsPerIp
  | _ => true

/-- Between its first test and the count of its address. -/
def Connection.Tested (c : Connection) : Prop :=
  c.stage = .belowTotal ∨ c.stage = .belowAddress ∨ c.stage = .accepted ∨ c.stage = .counted

/-- A socket is tested only when no other one is between its tests and its registration.  Where a
connection moves to another address, which nothing tests, there is none either, and there is
room. -/
def Serial (limits : ResourceLimits) (s : State) : Action → Prop
  | .testTotal _ _ => ∀ k, ¬ (s.connections k).Tested
  | .migrate g ip => ip = (s.connections g).addr ∨
      (∀ k, ¬ (s.connections k).Tested) ∧ s.ipCount ip < limits.maxConnectionsPerIp
  | _ => True

/-! ## The address table -/

theorem ipCountIn_increment (table : Table IpAddr Nat) (ip other : IpAddr) :
    ipCountIn (incrementIp ip table) other =
      ipCountIn table other + if other = ip then 1 else 0 := by
  unfold ipCountIn incrementIp
  by_cases hoth : other = ip
  · subst hoth
    rw [lookup_insert, if_pos rfl]
    rfl
  · rw [lookup_insert_of_ne _ hoth, if_neg hoth]
    rfl

theorem ipCountIn_decrement (table : Table IpAddr Nat) (ip other : IpAddr) :
    ipCountIn (decrementIp ip table) other =
      ipCountIn table other - if other = ip then 1 else 0 := by
  unfold ipCountIn decrementIp
  cases hlook : table.lookup ip with
  | none =>
    by_cases hoth : other = ip
    · subst hoth
      rw [hlook]
      simp
    · simp [hoth]
  | some _ =>
    dsimp only
    by_cases hoth : other = ip
    · subst hoth
      split
      · rename_i hzero
        rw [lookup_erase, hlook]
        simp only [getD_none, getD_some, if_true]
        omega
      · rw [lookup_insert, hlook]
        simp
    · split
      · rw [lookup_erase_ne hoth]
        rfl
      · rw [lookup_insert_of_ne _ hoth]
        rfl

/-! ## The invariant -/

structure Tallied (limits : ResourceLimits) (s : State) : Prop where
  finite : {k | (s.connections k).stage ≠ .idle}.Finite
  total : s.connectionCount.toNat = census Connection.Counted s.connections
  address : ∀ ip, ipCountIn s.ipConnections ip = census (Connection.ListedAt ip) s.connections
  totalBound : s.connectionCount ≤ limits.maxConnections
  addressBound : ∀ ip, ipCountIn s.ipConnections ip ≤ limits.maxConnectionsPerIp

theorem Tallied.initial : Tallied limits {} where
  finite := by simp
  total := by
    rw [census_eq_zero]
    · rfl
    · rintro k (h | h | h) <;> cases h
  address := by
    intro _
    rw [census_eq_zero]
    · rfl
    · rintro k ⟨h | h | h, -⟩ <;> cases h
  totalBound := UInt64.le_iff_toNat_le.mpr (Nat.zero_le _)
  addressBound := fun _ => Nat.zero_le _

section

variable (hs : Tallied limits s) {connection : Connection}
include hs

theorem Tallied.finite_counted : {k | (s.connections k).Counted}.Finite := by
  refine hs.finite.subset ?_
  rintro k (h | h | h) hidle <;> rw [h] at hidle <;> cases hidle

theorem Tallied.finite_listed : {k | (s.connections k).Listed}.Finite := by
  refine hs.finite.subset ?_
  rintro k (h | h | h) hidle <;> rw [h] at hidle <;> cases hidle

theorem Tallied.finite_listedAt (ip : IpAddr) : {k | (s.connections k).ListedAt ip}.Finite :=
  hs.finite_listed.subset fun _ hk => hk.1

section

variable (hconnections : s'.connections = update s.connections g connection)
include hconnections

/-- A step of one connection: its counters follow. -/
theorem Tallied.move (htotal : s'.connectionCount.toNat =
      census Connection.Counted (update s.connections g connection))
    (haddress : ∀ ip, ipCountIn s'.ipConnections ip =
      census (Connection.ListedAt ip) (update s.connections g connection))
    (htotalBound : s'.connectionCount ≤ limits.maxConnections)
    (haddressBound : ∀ ip, ipCountIn s'.ipConnections ip ≤ limits.maxConnectionsPerIp) :
    Tallied limits s' where
  finite := by
    rw [hconnections]
    exact finite_update (p := fun c : Connection => c.stage ≠ .idle) hs.finite
  total := by rw [hconnections, htotal]
  address := by
    intro ip
    rw [hconnections, haddress]
  totalBound := htotalBound
  addressBound := haddressBound

/-- A step of one connection that no counter is about. -/
theorem Tallied.pass (hcnt : connection.Counted ↔ (s.connections g).Counted)
    (hlist : ∀ ip, connection.ListedAt ip ↔ (s.connections g).ListedAt ip)
    (hsame : s'.connectionCount = s.connectionCount ∧ s'.ipConnections = s.ipConnections) :
    Tallied limits s' := by
  obtain ⟨hcount, hips⟩ := hsame
  refine hs.move hconnections ?_ ?_ (hcount ▸ hs.totalBound) (hips ▸ hs.addressBound)
  · rw [census_update_same hcnt, hcount]
    exact hs.total
  · intro ip
    rw [census_update_same (hlist ip), hips]
    exact hs.address ip

/-- A connection in neither group before and after. -/
theorem Tallied.outside (hpre : ¬ (s.connections g).Counted ∧ ¬ (s.connections g).Listed)
    (hafter : ¬ connection.Counted ∧ ¬ connection.Listed)
    (hsame : s'.connectionCount = s.connectionCount ∧ s'.ipConnections = s.ipConnections) :
    Tallied limits s' :=
  hs.pass hconnections (iff_of_false hafter.1 hpre.1)
    (fun _ => iff_of_false (fun h => hafter.2 h.1) (fun h => hpre.2 h.1)) hsame

end

end

/-! ## The steps -/

theorem toNat_succ {n m : UInt64} (h : n < m) : (n + 1).toNat = n.toNat + 1 := by
  have hlt : n.toNat < m.toNat := UInt64.lt_iff_toNat_lt.mp h
  have hm := m.toNat_lt
  rw [UInt64.toNat_add]
  have hone : (1 : UInt64).toNat = 1 := rfl
  rw [hone]
  omega

theorem toNat_pred {n : UInt64} (h : 0 < n.toNat) : (n - 1).toNat = n.toNat - 1 := by
  have hone : (1 : UInt64).toNat = 1 := rfl
  rw [UInt64.toNat_sub_of_le _ _ (UInt64.le_iff_toNat_le.mpr (by omega)), hone]

section

variable (hs : Tallied limits s)
include hs

theorem Tallied.count {clientId : String} (hroom : s.connectionCount < limits.maxConnections)
    (hstep : s.count g clientId = some s') : Tallied limits s' := by
  obtain ⟨hacc, rfl⟩ := ite_some_none_eq_some.mp hstep
  have hnot : ¬ (s.connections g).Counted ∧ ¬ (s.connections g).Listed := by
    simp [Connection.Counted, Connection.Listed, hacc]
  refine hs.move rfl ?_ ?_ ?_ hs.addressBound
  · rw [census_update_gain hs.finite_counted hnot.1 (.inl rfl), ← hs.total]
    exact toNat_succ hroom
  · intro ip
    rw [census_update_same]
    · exact hs.address ip
    · refine iff_of_false ?_ (fun h => hnot.2 h.1)
      rintro ⟨h | h | h, -⟩ <;> cases h
  · rw [UInt64.le_iff_toNat_le, toNat_succ hroom]
    exact UInt64.lt_iff_toNat_lt.mp hroom

/-- The address of a connection is counted. -/
theorem Tallied.list (hroom : s.ipCount (s.connections g).addr < limits.maxConnectionsPerIp)
    (hstep : s.list g = some s') : Tallied limits s' := by
  obtain ⟨hcnt, rfl⟩ := ite_some_none_eq_some.mp hstep
  have hnot : ¬ (s.connections g).Listed := by simp [Connection.Listed, hcnt]
  refine hs.move rfl ?_ ?_ hs.totalBound ?_
  · rw [census_update_same]
    · exact hs.total
    · exact iff_of_true (.inr (.inl rfl)) (.inl hcnt)
  · intro ip
    rw [ipCountIn_increment, hs.address ip]
    by_cases hip : ip = (s.connections g).addr
    · have hgain := census_update_gain (a := { s.connections g with stage := .listed })
        (hs.finite_listedAt ip) (fun h => hnot h.1) ⟨.inl rfl, hip.symm⟩
      rw [if_pos hip]
      exact hgain.symm
    · rw [if_neg hip, census_update_same]
      · rfl
      · exact iff_of_false (fun h => hip h.2.symm) (fun h => hnot h.1)
  · intro ip
    rw [ipCountIn_increment]
    by_cases hip : ip = (s.connections g).addr
    · subst hip
      rw [if_pos rfl]
      exact hroom
    · rw [if_neg hip]
      exact hs.addressBound ip

/-- A connection in service is one of those that are counted. -/
theorem Tallied.count_pos_of_serving (hserv : (s.connections g).stage = .serving) :
    0 < s.connectionCount.toNat := by
  have hlose := census_update_lose (a := {}) hs.finite_counted (.inr (.inr hserv))
    (by rintro (h | h | h) <;> cases h)
  rw [hs.total]
  omega

/-- It is one of those at its address. -/
theorem Tallied.pos_of_serving (hserv : (s.connections g).stage = .serving) :
    0 < ipCountIn s.ipConnections (s.connections g).addr := by
  have hlose := census_update_lose (a := {}) (hs.finite_listedAt (s.connections g).addr)
    ⟨.inr (.inl hserv), rfl⟩ (by rintro ⟨h | h | h, -⟩ <;> cases h)
  rw [hs.address]
  omega

theorem Tallied.uncount (hstep : s.uncount g = some s') : Tallied limits s' := by
  obtain ⟨hserv, rfl⟩ := ite_some_none_eq_some.mp hstep
  have hlose := census_update_lose (a := { s.connections g with stage := .uncounted })
    hs.finite_counted (.inr (.inr hserv)) (by rintro (h | h | h) <;> cases h)
  have hpos := hs.count_pos_of_serving hserv
  refine hs.move rfl ?_ ?_ ?_ hs.addressBound
  · rw [toNat_pred hpos, hs.total]
    omega
  · intro ip
    rw [census_update_same]
    · exact hs.address ip
    · exact and_congr_left fun _ => iff_of_true (.inr (.inr rfl)) (.inr (.inl hserv))
  · have hbound := UInt64.le_iff_toNat_le.mp hs.totalBound
    rw [UInt64.le_iff_toNat_le, toNat_pred hpos]
    omega

theorem Tallied.unlist (hstep : s.unlist g = some s') : Tallied limits s' := by
  obtain ⟨huncounted, rfl⟩ := ite_some_none_eq_some.mp hstep
  have hafter : ¬ Connection.Listed { s.connections g with stage := .unlisted } := by
    rintro (h | h | h) <;> cases h
  refine hs.move rfl ?_ ?_ hs.totalBound ?_
  · rw [census_update_same]
    · exact hs.total
    · refine iff_of_false ?_ ?_
      · rintro (h | h | h) <;> cases h
      · simp [Connection.Counted, huncounted]
  · intro ip
    rw [ipCountIn_decrement, hs.address ip]
    by_cases hip : ip = (s.connections g).addr
    · have hlose := census_update_lose (a := { s.connections g with stage := .unlisted })
        (hs.finite_listedAt ip) ⟨.inr (.inr huncounted), hip.symm⟩ (fun h => hafter h.1)
      rw [if_pos hip]
      omega
    · rw [if_neg hip, census_update_same]
      · rfl
      · exact iff_of_false (fun h => hafter h.1) (fun h => hip h.2.symm)
  · intro ip
    rw [ipCountIn_decrement]
    exact Nat.le_trans (Nat.sub_le _ _) (hs.addressBound ip)

/-- A connection is counted at another address. -/
theorem Tallied.migrate
    (hroom : ip = (s.connections g).addr ∨ s.ipCount ip < limits.maxConnectionsPerIp)
    (hstep : s.migrate g ip = some s') : Tallied limits s' := by
  obtain ⟨hserv, rfl⟩ := ite_some_none_eq_some.mp hstep
  have hlist : (s.connections g).Listed := .inr (.inl hserv)
  have hold := hs.pos_of_serving hserv
  refine hs.move rfl ?_ ?_ hs.totalBound ?_
  · rw [census_update_same]
    · exact hs.total
    · exact Iff.rfl
  · intro other
    rw [ipCountIn_increment, ipCountIn_decrement]
    by_cases hto : other = ip
    · by_cases hfrom : other = (s.connections g).addr
      · rw [if_pos hto, if_pos hfrom, census_update_same, ← hs.address other]
        · rw [← hfrom] at hold
          omega
        · exact iff_of_true ⟨hlist, hto.symm⟩ ⟨hlist, hfrom.symm⟩
      · have hgain := census_update_gain (a := { s.connections g with addr := ip })
          (hs.finite_listedAt other) (fun h => hfrom h.2.symm) ⟨hlist, hto.symm⟩
        rw [if_pos hto, if_neg hfrom, hs.address other]
        exact hgain.symm
    · by_cases hfrom : other = (s.connections g).addr
      · have hlose := census_update_lose (a := { s.connections g with addr := ip })
          (hs.finite_listedAt other) ⟨hlist, hfrom.symm⟩ (fun h => hto h.2.symm)
        rw [if_neg hto, if_pos hfrom, hs.address other]
        omega
      · rw [if_neg hto, if_neg hfrom, census_update_same, ← hs.address other]
        · rfl
        · exact iff_of_false (fun h => hto h.2.symm) (fun h => hfrom h.2.symm)
  · intro other
    have hbound := hs.addressBound other
    rw [ipCountIn_increment, ipCountIn_decrement]
    by_cases hto : other = ip
    · subst hto
      rcases hroom with hsame | hroom
      · rw [if_pos rfl, if_pos hsame]
        rw [← hsame] at hold
        omega
      · have hless : ipCountIn s.ipConnections other < limits.maxConnectionsPerIp := hroom
        rw [if_pos rfl]
        omega
    · rw [if_neg hto]
      omega

theorem Tallied.step {a : Action} (hroom : room limits s a)
    (hstep : act limits s a = some s') : Tallied limits s' := by
  cases a with
  | tick _ =>
    cases hstep
    exact ⟨hs.finite, hs.total, hs.address, hs.totalBound, hs.addressBound⟩
  | testTotal g ip | testAddress g =>
    simp only [act, State.testTotal, State.testAddress] at hstep
    obtain ⟨hstg, rfl⟩ := ite_some_none_eq_some.mp hstep
    refine hs.outside rfl ?_ ?_ ⟨rfl, rfl⟩
    · simp [Connection.Counted, Connection.Listed, hstg]
    · split <;> simp [Connection.Counted, Connection.Listed]
  | testRate g =>
    simp only [act, State.testRate] at hstep
    split at hstep
    · rename_i hbelow
      have hpre : ¬ (s.connections g).Counted ∧ ¬ (s.connections g).Listed := by
        simp [Connection.Counted, Connection.Listed, hbelow]
      split at hstep <;> cases hstep <;>
        exact hs.outside rfl hpre (by simp [Connection.Counted, Connection.Listed]) ⟨rfl, rfl⟩
    · cases hstep
  | fail g | remove g =>
    simp only [act, State.fail, State.remove] at hstep
    obtain ⟨hstg, rfl⟩ := ite_some_none_eq_some.mp hstep
    refine hs.outside rfl ?_ ?_ ⟨rfl, rfl⟩
    · simp [Connection.Counted, Connection.Listed, hstg]
    · simp [Connection.Counted, Connection.Listed]
  | count g clientId => exact hs.count (of_decide_eq_true hroom) hstep
  | list g => exact hs.list (of_decide_eq_true hroom) hstep
  | insert g =>
    simp only [act, State.insert] at hstep
    obtain ⟨hlist, rfl⟩ := ite_some_none_eq_some.mp hstep
    refine hs.pass rfl ?_ ?_ ⟨rfl, rfl⟩
    · exact iff_of_true (.inr (.inr rfl)) (.inr (.inl hlist))
    · intro ip
      exact and_congr_left fun _ => iff_of_true (.inr (.inl rfl)) (.inl hlist)
  | send g size =>
    simp only [act, State.send] at hstep
    obtain ⟨-, rfl⟩ := ite_some_none_eq_some.mp hstep
    obtain ⟨hconnections, hcount, hips⟩ :=
      canSendMessage_frame limits s (s.connections g).clientId size
    refine ⟨?_, ?_, ?_, ?_, ?_⟩
    · rw [hconnections]
      exact hs.finite
    · rw [hconnections, hcount]
      exact hs.total
    · rw [hconnections, hips]
      exact hs.address
    · rw [hcount]
      exact hs.totalBound
    · rw [hips]
      exact hs.addressBound
  | migrate g ip => exact hs.migrate (of_decide_eq_true hroom) hstep
  | uncount g => exact hs.uncount hstep
  | unlist g => exact hs.unlist hstep
  | cleanup clientId =>
    obtain ⟨_, -, rfl⟩ := map_eq_some_iff.mp hstep
    exact ⟨hs.finite, hs.total, hs.address, hs.totalBound, hs.addressBound⟩

end

/-! ## What the tests give -/

/-- There is still the room that the socket was tested for. -/
structure Connection.Fits (limits : ResourceLimits) (s : State) (c : Connection) : Prop where
  total : c.stage = .belowTotal ∨ c.stage = .belowAddress ∨ c.stage = .accepted →
    s.connectionCount < limits.maxConnections
  address : c.stage = .belowAddress ∨ c.stage = .accepted ∨ c.stage = .counted →
    s.ipCount c.addr < limits.maxConnectionsPerIp

/-- At most one socket is between its tests and its registration, and there is room for it. -/
structure Cleared (limits : ResourceLimits) (s : State) : Prop where
  sole : ∀ j k, (s.connections j).Tested → (s.connections k).Tested → j = k
  fits : ∀ k, (s.connections k).Fits limits s

theorem Connection.Fits.of_untested {c : Connection} (h : ¬ c.Tested) : c.Fits limits s := by
  unfold Connection.Tested at h
  exact ⟨fun hstage => absurd hstage (by tauto), fun hstage => absurd hstage (by tauto)⟩

theorem Cleared.initial : Cleared limits {} := by
  have hidle : ∀ k, ¬ (({} : State).connections k).Tested := by
    rintro k (h | h | h | h) <;> cases h
  exact ⟨fun j _ hj => absurd hj (hidle j), fun k => .of_untested (hidle k)⟩

section

variable {connection : Connection}
  (hconnections : s'.connections = update s.connections g connection)
include hconnections

/-- A step of the only socket there is. -/
theorem cleared_of_sole (hothers : ∀ k, k ≠ g → ¬ (s.connections k).Tested)
    (hfits : connection.Fits limits s') : Cleared limits s' := by
  have hsole : ∀ k, (s'.connections k).Tested → k = g := by
    refine forall_update hconnections (fun _ => rfl) fun k hk htested => ?_
    exact absurd htested (hothers k hk)
  refine ⟨fun j k hj hk => (hsole j hj).trans (hsole k hk).symm, ?_⟩
  exact forall_update hconnections hfits fun k hk => .of_untested (hothers k hk)

/-- A step of a socket that is between its tests and its registration. -/
theorem Cleared.advance (hs : Cleared limits s) (hg : (s.connections g).Tested)
    (hfits : connection.Fits limits s') : Cleared limits s' :=
  cleared_of_sole hconnections (fun _ hk htested => hk (hs.sole _ _ htested hg)) hfits

/-- A step of another connection that takes no room from the tested one. -/
theorem Cleared.aside (hs : Cleared limits s) (hafter : ¬ connection.Tested)
    (hcount : s'.connectionCount ≤ s.connectionCount)
    (hips : ∀ k, (s.connections k).Tested →
      s'.ipCount (s.connections k).addr ≤ s.ipCount (s.connections k).addr) :
    Cleared limits s' := by
  refine ⟨fun j k => ?_, ?_⟩
  · refine forall_update (motive := fun j c => c.Tested → (s'.connections k).Tested → j = k)
      hconnections (fun h => absurd h hafter) (fun j hj htested => ?_) j
    refine forall_update (motive := fun k c => c.Tested → j = k) hconnections
      (fun h => absurd h hafter) (fun k _ htested' => hs.sole j k htested htested') k
  · refine forall_update hconnections (.of_untested hafter) fun k _ => ?_
    by_cases htested : (s.connections k).Tested
    · exact ⟨fun h => UInt64.lt_of_le_of_lt hcount ((hs.fits k).total h),
        fun h => Nat.lt_of_le_of_lt (hips k htested) ((hs.fits k).address h)⟩
    · exact .of_untested htested

end

theorem Cleared.room {a : Action} (hs : Cleared limits s) (hserial : Serial limits s a)
    (hstep : act limits s a = some s') : ResourceMonitor.room limits s a := by
  cases a with
  | count g clientId =>
    obtain ⟨hstage, -⟩ := ite_some_none_eq_some.mp hstep
    exact decide_eq_true ((hs.fits g).total (.inr (.inr hstage)))
  | list g =>
    obtain ⟨hstage, -⟩ := ite_some_none_eq_some.mp hstep
    exact decide_eq_true ((hs.fits g).address (.inr (.inr hstage)))
  | migrate g ip => exact decide_eq_true (hserial.imp_right And.right)
  | _ => rfl

theorem Cleared.step {a : Action} (hs : Cleared limits s) (htallied : Tallied limits s)
    (hserial : Serial limits s a) (hstep : act limits s a = some s') : Cleared limits s' := by
  cases a with
  | tick _ =>
    cases hstep
    exact ⟨hs.sole, fun k => ⟨(hs.fits k).total, (hs.fits k).address⟩⟩
  | testTotal g ip =>
    simp only [act, State.testTotal] at hstep
    obtain ⟨-, rfl⟩ := ite_some_none_eq_some.mp hstep
    refine cleared_of_sole rfl (fun k _ => hserial k) ⟨fun h => ?_, fun h => ?_⟩
    · by_contra hfull
      simp [UInt64.not_lt.mp hfull] at h
    · dsimp only at h
      split at h <;> simp at h
  | testAddress g =>
    simp only [act, State.testAddress] at hstep
    obtain ⟨hstage, rfl⟩ := ite_some_none_eq_some.mp hstep
    refine hs.advance rfl (.inl hstage) ⟨fun _ => (hs.fits g).total (.inl hstage), fun h => ?_⟩
    by_contra hfull
    have hover : s.ipCount (s.connections g).addr ≥ limits.maxConnectionsPerIp := not_lt.mp hfull
    simp [hover] at h
  | testRate g =>
    simp only [act, State.testRate] at hstep
    split at hstep
    · rename_i hstage
      have htotal := (hs.fits g).total (.inr (.inl hstage))
      have haddress := (hs.fits g).address (.inl hstage)
      split at hstep <;> cases hstep <;>
        exact hs.advance rfl (.inr (.inl hstage)) ⟨fun _ => htotal, fun _ => haddress⟩
    · cases hstep
  | fail g =>
    obtain ⟨hstage, rfl⟩ := ite_some_none_eq_some.mp hstep
    exact hs.advance rfl (.inr (.inr (.inl hstage))) (.of_untested (by simp [Connection.Tested]))
  | count g clientId =>
    obtain ⟨hstage, rfl⟩ := ite_some_none_eq_some.mp hstep
    refine hs.advance rfl (.inr (.inr (.inl hstage))) ⟨fun h => by simp at h, fun _ => ?_⟩
    exact (hs.fits g).address (.inr (.inl hstage))
  | list g =>
    obtain ⟨hstage, rfl⟩ := ite_some_none_eq_some.mp hstep
    exact hs.advance rfl (.inr (.inr (.inr hstage))) (.of_untested (by simp [Connection.Tested]))
  | insert g =>
    obtain ⟨-, rfl⟩ := ite_some_none_eq_some.mp hstep
    exact hs.aside rfl (by simp [Connection.Tested]) (UInt64.le_refl _) fun _ _ => le_rfl
  | send g size =>
    simp only [act, State.send] at hstep
    obtain ⟨-, rfl⟩ := ite_some_none_eq_some.mp hstep
    obtain ⟨hconnections, hcount, hips⟩ :=
      canSendMessage_frame limits s (s.connections g).clientId size
    refine ⟨by simpa only [hconnections] using hs.sole, fun k => ?_⟩
    rw [hconnections]
    refine ⟨fun h => hcount ▸ (hs.fits k).total h, fun h => ?_⟩
    rw [State.ipCount, hips]
    exact (hs.fits k).address h
  | migrate g ip =>
    simp only [act, State.migrate] at hstep
    obtain ⟨hserv, rfl⟩ := ite_some_none_eq_some.mp hstep
    refine hs.aside rfl (by simp [Connection.Tested, hserv]) (UInt64.le_refl _) fun k hk => ?_
    rcases hserial with rfl | ⟨hnone, -⟩
    · have hold := htallied.pos_of_serving hserv
      simp only [State.ipCount, ipCountIn_increment, ipCountIn_decrement]
      by_cases hsame : (s.connections k).addr = (s.connections g).addr
      · rw [if_pos hsame, hsame]
        omega
      · rw [if_neg hsame]
        omega
    · exact absurd hk (hnone k)
  | uncount g =>
    have hpos := htallied.count_pos_of_serving (ite_some_none_eq_some.mp hstep).1
    obtain ⟨-, rfl⟩ := ite_some_none_eq_some.mp hstep
    refine hs.aside rfl (by simp [Connection.Tested]) ?_ fun _ _ => le_rfl
    rw [UInt64.le_iff_toNat_le, toNat_pred hpos]
    omega
  | unlist g =>
    obtain ⟨-, rfl⟩ := ite_some_none_eq_some.mp hstep
    refine hs.aside rfl (by simp [Connection.Tested]) (UInt64.le_refl _) fun k _ => ?_
    simp only [State.ipCount, ipCountIn_decrement]
    omega
  | remove g =>
    obtain ⟨-, rfl⟩ := ite_some_none_eq_some.mp hstep
    exact hs.aside rfl (by simp [Connection.Tested]) (UInt64.le_refl _) fun _ _ => le_rfl
  | cleanup clientId =>
    obtain ⟨_, -, rfl⟩ := map_eq_some_iff.mp hstep
    exact ⟨hs.sole, fun k => ⟨(hs.fits k).total, (hs.fits k).address⟩⟩

/-! ## The balance -/

/-- The per-address counts together. -/
def State.ipTotal (s : State) : Nat := ∑ ip ∈ s.ipConnections.keys, s.ipCount ip

theorem Tallied.ipTotal_eq (hs : Tallied limits s) :
    s.ipTotal = census Connection.Listed s.connections := by
  have hsum : s.ipTotal =
      ∑ ip ∈ s.ipConnections.keys, census (Connection.ListedAt ip) s.connections :=
    Finset.sum_congr rfl fun ip _ => hs.address ip
  rw [hsum]
  refine sum_census (fun c : Connection => c.addr) _ hs.finite_listed ?_
  intro k hk
  -- an address without an entry has no connection
  by_contra hmissing
  have hzero : ipCountIn s.ipConnections (s.connections k).addr = 0 := by
    unfold ipCountIn
    rw [lookup_eq_none.mpr (fun h => hmissing (mem_keys.mpr h))]
    rfl
  have hlose := census_update_lose (a := {}) (hs.finite_listedAt (s.connections k).addr)
    ⟨hk, rfl⟩ (by rintro ⟨h | h | h, -⟩ <;> cases h)
  rw [hs.address] at hzero
  omega

/-- With no handler between the two decrements, the total is short of the count by the handlers
between the two increments. -/
theorem Tallied.balance (hs : Tallied limits s)
    (hended : ∀ k, (s.connections k).stage ≠ .uncounted) :
    s.ipTotal + census (·.stage = .counted) s.connections = s.connectionCount.toNat := by
  have hregistering : {k | (s.connections k).stage = .counted}.Finite :=
    hs.finite_counted.subset fun _ hk => .inl hk
  rw [hs.ipTotal_eq, hs.total, ← census_or hs.finite_listed hregistering]
  · refine census_congr ?_
    intro k
    have hk := hended k
    unfold Connection.Counted Connection.Listed
    tauto
  · rintro k (h | h | h) hcnt <;> rw [h] at hcnt <;> cases hcnt

/-! ## Runs -/

/-- In every run in which no socket is tested while another one is between its tests and its
registration, and none moves to an address then or without room, neither limit is exceeded, every
counter is the number of the connections it stands for, and once every handler that ended has
unregistered the counts of the addresses sum to the total (but for a handler that has made only the
first of its two increments). -/
theorem connections_within_limits
    (hrun : Reachable (act limits) (Serial limits) {} s) :
    census Connection.Counted s.connections ≤ limits.maxConnections.toNat ∧
    (∀ ip, census (Connection.ListedAt ip) s.connections ≤ limits.maxConnectionsPerIp) ∧
    s.connectionCount.toNat = census Connection.Counted s.connections ∧
    (∀ ip, s.ipCount ip = census (Connection.ListedAt ip) s.connections) ∧
    ((∀ k, (s.connections k).stage ≠ .uncounted) →
      s.ipTotal + census (·.stage = .counted) s.connections = s.connectionCount.toNat ∧
      ((∀ k, (s.connections k).stage ≠ .counted) → s.ipTotal = s.connectionCount.toNat)) := by
  have hboth : Tallied limits s ∧ Cleared limits s := by
    induction hrun with
    | start => exact ⟨Tallied.initial, Cleared.initial⟩
    | step _ hserial hstep ih =>
      exact ⟨ih.1.step (ih.2.room hserial hstep) hstep, ih.2.step ih.1 hserial hstep⟩
  have hs := hboth.1
  refine ⟨?_, ?_, hs.total, hs.address, ?_⟩
  · rw [← hs.total]
    exact UInt64.le_iff_toNat_le.mp hs.totalBound
  · intro ip
    rw [← hs.address]
    exact hs.addressBound ip
  · intro hended
    have hbalance := hs.balance hended
    refine ⟨hbalance, ?_⟩
    intro hregistered
    rw [census_eq_zero hregistered] at hbalance
    exact hbalance

/-! ### Two sockets and one place -/

def onePlace : ResourceLimits where
  maxConnections := 1
  maxConnectionsPerIp := 1
  maxMessageRatePerClient := 0
  maxBandwidthPerClient := 0
  maxConnectionRate := 10
  rateLimitWindow := 60

/-- One connection moves to another address and ends; then the next one has the place. -/
theorem connections_within_limits_successive : ∃ s,
    Reachable (act onePlace) (Serial onePlace) {} s ∧
    follow (act onePlace) {} (accepting 1 ++ registering 1 ++ [.migrate 1 (.v4 2)] ++
      unregistering 1 ++ accepting 2 ++ registering 2) = some s ∧
    census Connection.Counted s.connections ≤ 1 ∧ s.connectionCount = 1 := by
  have hstart : Reachable (act onePlace) (Serial onePlace) {} {} := .start
  have hfirst := hstart.step (a := .testTotal 1 (.v4 1)) ?_ rfl
  · have hserved := hfirst.follow (by simp [registering, Serial])
      (show follow (act onePlace) _ ([.testAddress 1, .testRate 1] ++ registering 1) =
        some _ from rfl)
    have hmoved := hserved.step (a := .migrate 1 (.v4 2)) ?_ rfl
    · have hended := hmoved.follow (by simp [unregistering, Serial])
        (show follow (act onePlace) _ (unregistering 1) = some _ from rfl)
      have hsecond := hended.step (a := .testTotal 2 (.v4 1)) ?_ rfl
      · have hlast := hsecond.follow (by simp [registering, Serial])
          (show follow (act onePlace) _ ([.testAddress 2, .testRate 2] ++ registering 2) = some _
            from rfl)
        exact ⟨_, hlast, rfl, (connections_within_limits hlast).1, rfl⟩
      · intro k
        by_cases hk : k = 1 <;> simp [Connection.Tested, State.setStage, hk]
    · refine .inr ⟨fun k => ?_, by decide⟩
      by_cases hk : k = 1 <;> simp [Connection.Tested, State.setStage, hk]
  · rintro k (h | h | h | h) <;> cases h

/-- Two sockets are tested before either of them is counted: both are served where there is room
for one. -/
theorem two_sockets_one_place : ∃ s,
    follow (act onePlace) {} (accepting 1 ++ accepting 2 ++ registering 1 ++ registering 2) =
      some s ∧
    (s.connections 1).stage = .serving ∧ (s.connections 2).stage = .serving ∧
    s.connectionCount = 2 ∧ s.ipCount (.v4 1) = 2 ∧
    onePlace.maxConnections < s.connectionCount ∧
    onePlace.maxConnectionsPerIp < s.ipCount (.v4 1) :=
  ⟨_, rfl, rfl, rfl, rfl, rfl, by decide, by decide⟩

end MqttLib.Broker.ResourceMonitor
