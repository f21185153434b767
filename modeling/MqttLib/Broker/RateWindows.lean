/-
MqttLib.Broker.RateWindows

The message rate of a client over successive connections (`resource_monitor.rs`): the
accounting of a client is kept under its identifier alone.  As long as no connection ends
its accounting under another one that is in service, every message is counted in a window
of the client, no window has more than the limits allow, and between two registrations the
next window starts only when the last one has passed.
-/

import MqttLib.Broker.ResourceMonitor

namespace MqttLib.Broker.ResourceMonitor

open Foundation Function Finmap Option Table

variable {limits : ResourceLimits} {s s' : State} {g : Nat} {clientId : String}

/-! ## The messages of a window -/

/-- The messages that were counted in a window. -/
def State.inWindow (s : State) (window : Window) : List Admission :=
  s.admissions.filter (·.window = some window)

def bytes (admissions : List Admission) : Nat := (admissions.map (·.size)).sum

open State

theorem inWindow_admission (size : Nat) (window : Option Window) (w : Window) :
    (s.admission clientId size window).inWindow w =
      s.inWindow w ++ if window = some w then [⟨clientId, size, s.now, window⟩] else [] := by
  unfold inWindow admission
  rw [List.filter_append]
  by_cases hw : window = some w <;> simp [hw]

theorem bytes_append (first rest : List Admission) :
    bytes (first ++ rest) = bytes first + bytes rest := by
  simp [bytes]

/-! ## The invariant -/

/-- No connection ends the accounting of a client of which another one is in service. -/
def Sole (s : State) : Action → Prop
  | .remove g => ∀ k, k ≠ g → (s.connections k).clientId = (s.connections g).clientId →
    (s.connections k).stage ≠ .serving
  | _ => True

/-- An entry counts what has been let through in its window. -/
structure ClientResources.Fits (s : State) (clientId : String) (resources : ClientResources) :
    Prop where
  client : resources.window.clientId = clientId
  known : resources.window.number < s.nextWindow
  started : resources.window.start ≤ s.now
  messages : resources.messageCount = (s.inWindow resources.window).length
  bytes : resources.bytesTransferred = bytes (s.inWindow resources.window)

/-- A later window, which a registration has started or the end of the earlier one. -/
structure Window.Follows (limits : ResourceLimits) (w later : Window) : Prop where
  number : w.number < later.number
  start : w.start ≤ later.start
  apart : later.registered = true ∨ w.start + limits.rateLimitWindow < later.start

/-- A message was counted in a window of its client while that lasted, and the client's window is
still this one or a later one. -/
structure Admission.Timely (limits : ResourceLimits) (s : State) (a : Admission) (w : Window) :
    Prop where
  client : w.clientId = a.clientId
  known : w.number < s.nextWindow
  started : w.start ≤ a.time
  lasting : a.time ≤ w.start + limits.rateLimitWindow
  past : w.start ≤ s.now
  latest : ∀ resources, s.clientResources.lookup w.clientId = some resources →
    w = resources.window ∨ w.Follows limits resources.window

/-- Two windows of one client are the same, or one follows the other. -/
def Window.Apart (limits : ResourceLimits) (w w' : Window) : Prop :=
  w.clientId = w'.clientId → w = w' ∨ w.Follows limits w' ∨ w'.Follows limits w

structure Metered (limits : ResourceLimits) (s : State) : Prop where
  entries : ∀ clientId resources, s.clientResources.lookup clientId = some resources →
    resources.Fits s clientId
  served : ∀ k, (s.connections k).stage = .serving →
    ∃ resources, s.clientResources.lookup (s.connections k).clientId = some resources
  timely : ∀ a ∈ s.admissions, ∀ w, a.window = some w → a.Timely limits s w
  apart : ∀ a ∈ s.admissions, ∀ b ∈ s.admissions, ∀ w w', a.window = some w → b.window = some w' →
    w.Apart limits w'
  counted : limits.limited = true → ∀ a ∈ s.admissions, ∃ w, a.window = some w
  messages : 0 < limits.maxMessageRatePerClient → ∀ w,
    (s.inWindow w).length ≤ limits.maxMessageRatePerClient
  bytes : 0 < limits.maxBandwidthPerClient → ∀ w,
    bytes (s.inWindow w) ≤ limits.maxBandwidthPerClient

theorem Metered.initial : Metered limits {} where
  entries := by
    intro _ _ h
    rw [lookup_empty] at h
    cases h
  served := nofun
  timely := nofun
  apart := nofun
  counted := nofun
  messages := fun _ _ => Nat.zero_le _
  bytes := fun _ _ => Nat.zero_le _

theorem Metered.fits_newWindow (hs : Metered limits s) (clientId : String) (registered : Bool)
    (hnext : s.nextWindow < s'.nextWindow) (hnow : s'.now = s.now)
    (hlog : s'.admissions = s.admissions) : (s.newWindow clientId registered).Fits s' clientId := by
  have hemp : s'.inWindow (s.newWindow clientId registered).window = [] := by
    -- nothing has been counted in a window that has not started
    rw [inWindow, hlog]
    refine List.filter_eq_nil_iff.mpr fun a ha hwin => ?_
    exact Nat.lt_irrefl _ (hs.timely a ha _ (of_decide_eq_true hwin)).known
  refine ⟨rfl, hnext, Nat.le_of_eq hnow.symm, ?_, ?_⟩
  · rw [hemp]
    rfl
  · rw [hemp]
    rfl

variable {resources : ClientResources} {size : Nat}

/-- An entry stays right while time goes on and windows are added. -/
theorem ClientResources.Fits.mono (hfits : resources.Fits s clientId)
    (hnext : s.nextWindow ≤ s'.nextWindow) (hnow : s.now ≤ s'.now)
    (hlog : s'.admissions = s.admissions) : resources.Fits s' clientId := by
  have hsame : s'.inWindow resources.window = s.inWindow resources.window := by
    rw [inWindow, inWindow, hlog]
  refine ⟨hfits.client, Nat.lt_of_lt_of_le hfits.known hnext, Nat.le_trans hfits.started hnow, ?_,
    ?_⟩
  · rw [hsame]
    exact hfits.messages
  · rw [hsame]
    exact hfits.bytes

/-- A step that lets no message through. -/
theorem Metered.silent (hs : Metered limits s)
    (hents : ∀ clientId resources, s'.clientResources.lookup clientId = some resources →
      resources.Fits s' clientId)
    (hserved : ∀ k, (s'.connections k).stage = .serving →
      ∃ resources, s'.clientResources.lookup (s'.connections k).clientId = some resources)
    (hlatest : ∀ w : Window, w.number < s.nextWindow → w.start ≤ s.now →
      (∀ resources, s.clientResources.lookup w.clientId = some resources →
        w = resources.window ∨ w.Follows limits resources.window) →
      ∀ resources, s'.clientResources.lookup w.clientId = some resources →
        w = resources.window ∨ w.Follows limits resources.window)
    (hnext : s.nextWindow ≤ s'.nextWindow) (hnow : s.now ≤ s'.now)
    (hlog : s'.admissions = s.admissions) : Metered limits s' where
  entries := hents
  served := hserved
  timely := by
    intro a ha w hw
    rw [hlog] at ha
    obtain ⟨hcl, hknown, hstarted, hlasting, hpast, hlast⟩ := hs.timely a ha w hw
    exact ⟨hcl, Nat.lt_of_lt_of_le hknown hnext, hstarted, hlasting, Nat.le_trans hpast hnow,
      hlatest w hknown hpast hlast⟩
  apart := hlog ▸ hs.apart
  counted := hlog ▸ hs.counted
  messages := by
    intro hrate w
    rw [inWindow, hlog]
    exact hs.messages hrate w
  bytes := by
    intro hband w
    rw [inWindow, hlog]
    exact hs.bytes hband w

/-- A step that touches neither the accounting nor the time, and takes no connection into
service. -/
theorem Metered.frame (hs : Metered limits s) (hnow : s.now ≤ s'.now)
    (hresources : s'.clientResources = s.clientResources) (hnext : s'.nextWindow = s.nextWindow)
    (hlog : s'.admissions = s.admissions) (hserv : ∀ k, (s'.connections k).stage = .serving →
      (s.connections k).stage = .serving ∧
        (s'.connections k).clientId = (s.connections k).clientId) :
    Metered limits s' := by
  refine hs.silent ?_ ?_ ?_ (Nat.le_of_eq hnext.symm) hnow hlog
  · intro clientId resources h
    rw [hresources] at h
    exact (hs.entries clientId resources h).mono (Nat.le_of_eq hnext.symm) hnow hlog
  · intro k hk
    obtain ⟨hpre, hcl⟩ := hserv k hk
    rw [hcl, hresources]
    exact hs.served k hpre
  · rw [hresources]
    exact fun _ _ _ hlast => hlast

/-! ## The steps -/

theorem Metered.insert (hs : Metered limits s) (hstep : s.insert g = some s') :
    Metered limits s' := by
  obtain ⟨-, rfl⟩ := ite_some_none_eq_some.mp hstep
  refine hs.silent ?_ ?_ ?_ (Nat.le_succ _) (Nat.le_refl _) rfl
  · intro clientId resources h
    rcases of_lookup_insert h with ⟨rfl, rfl⟩ | ⟨-, h⟩
    · exact hs.fits_newWindow _ true (Nat.lt_succ_self _) rfl rfl
    · exact (hs.entries clientId resources h).mono (Nat.le_succ _) (Nat.le_refl _) rfl
  · dsimp only [setStage]
    exact forall_update rfl (fun _ => ⟨_, lookup_insert _⟩)
      fun k _ hk => exists_lookup_insert _ (hs.served k hk)
  · intro w hknown hpast hlast resources h
    rcases of_lookup_insert h with ⟨-, rfl⟩ | ⟨-, h⟩
    · exact .inr ⟨hknown, hpast, .inl rfl⟩
    · exact hlast resources h

/-- The window a message is counted in has not ended. -/
theorem currentWindow_lasting (limits : ResourceLimits) (s : State) (clientId : String)
    (resources : ClientResources) :
    s.now ≤ (s.currentWindow limits clientId resources).window.start + limits.rateLimitWindow := by
  unfold currentWindow
  split
  · exact Nat.le_add_right _ _
  · rename_i hexpd
    have hwithin : ¬ s.now - resources.window.start > limits.rateLimitWindow := by
      simpa [expired] using hexpd
    omega

/-- A window that has expired is followed by the one that starts now. -/
theorem follows_currentWindow {w : Window} (hknown : w.number < s.nextWindow)
    (hlast : w = resources.window ∨ w.Follows limits resources.window) :
    w = (s.currentWindow limits clientId resources).window ∨
      w.Follows limits (s.currentWindow limits clientId resources).window := by
  unfold currentWindow
  split
  · rename_i hexpired
    have hover : limits.rateLimitWindow < s.now - resources.window.start := by
      simpa [expired] using hexpired
    have hstart : w.start ≤ resources.window.start := by
      rcases hlast with rfl | hfollows
      · exact Nat.le_refl _
      · exact hfollows.start
    refine .inr ⟨hknown, ?_, .inr ?_⟩ <;> simp only [newWindow] <;> omega
  · exact hlast

section

variable (hs : Metered limits s)
include hs

theorem Metered.fits_currentWindow (hlook : s.clientResources.lookup clientId = some resources)
    (hnext : s.nextWindow < s'.nextWindow) (hnow : s'.now = s.now)
    (hlog : s'.admissions = s.admissions) :
    (s.currentWindow limits clientId resources).Fits s' clientId := by
  unfold currentWindow
  split
  · exact hs.fits_newWindow clientId false hnext hnow hlog
  · exact (hs.entries clientId resources hlook).mono (Nat.le_of_lt hnext)
      (Nat.le_of_eq hnow.symm) hlog

/-- Replacing the entry of a client by the one of its current window. -/
theorem Metered.renew (hlook : s.clientResources.lookup clientId = some resources) :
    Metered limits { s with
      clientResources :=
        s.clientResources.insert clientId (s.currentWindow limits clientId resources)
      nextWindow := s.nextWindow + 1 } := by
  refine hs.silent ?_ ?_ ?_ (Nat.le_succ _) (Nat.le_refl _) rfl
  · intro other entry h
    rcases of_lookup_insert h with ⟨rfl, rfl⟩ | ⟨-, h⟩
    · exact hs.fits_currentWindow hlook (Nat.lt_succ_self _) rfl rfl
    · exact (hs.entries other entry h).mono (Nat.le_succ _) (Nat.le_refl _) rfl
  · exact fun k hk => exists_lookup_insert _ (hs.served k hk)
  · intro w hknown hpast hlast entry h
    rcases of_lookup_insert h with ⟨hclient, rfl⟩ | ⟨-, h⟩
    · exact follows_currentWindow hknown (hlast resources (hclient ▸ hlook))
    · exact hlast entry h

/-- A message that passes the tests is counted. -/
theorem Metered.message_counted {current : ClientResources}
    (hlook : s.clientResources.lookup clientId = some current)
    (hlasting : s.now ≤ current.window.start + limits.rateLimitWindow)
    (hadmits : limits.admits current size) (hs' : s' = admission
      { s with
        clientResources := s.clientResources.insert clientId
          { current with
            messageCount := current.messageCount + 1
            bytesTransferred := current.bytesTransferred + size } }
      clientId size (some current.window)) : Metered limits s' := by
  have hfits := hs.entries clientId current hlook
  have hwin : ∀ w, s'.inWindow w = s.inWindow w ++ if some current.window = some w then
      [⟨clientId, size, s.now, some current.window⟩] else [] :=
    fun w => hs' ▸ inWindow_admission size (some current.window) w
  subst hs'
  unfold ResourceLimits.admits at hadmits
  rw [Bool.and_eq_true] at hadmits
  have hlatest : ∀ a ∈ s.admissions, ∀ w, a.window = some w → w.clientId = clientId →
      w = current.window ∨ w.Follows limits current.window :=
    fun a ha w hw hclient => (hs.timely a ha w hw).latest current (hclient ▸ hlook)
  refine ⟨?_, ?_, ?_, ?_, ?_, ?_, ?_⟩
  · intro other entry h
    rcases of_lookup_insert h with ⟨rfl, rfl⟩ | ⟨hoth, h⟩
    · refine ⟨hfits.client, hfits.known, hfits.started, ?_, ?_⟩
      · rw [hwin, if_pos rfl, List.length_append, ← hfits.messages]
        rfl
      · rw [hwin, if_pos rfl, bytes_append, ← hfits.bytes]
        rfl
    · have hent := hs.entries other entry h
      -- the window of another client has no part in this message
      have hne : current.window ≠ entry.window := by
        intro heq
        exact hoth (hent.client.symm.trans ((congrArg Window.clientId heq).symm.trans
          hfits.client))
      have hsame : some current.window ≠ some entry.window := fun heq => hne (some.inj heq)
      refine ⟨hent.client, hent.known, hent.started, ?_, ?_⟩ <;>
        rw [hwin, if_neg hsame, List.append_nil]
      · exact hent.messages
      · exact hent.bytes
  · exact fun k hk => exists_lookup_insert _ (hs.served k hk)
  · intro a ha w hw
    rcases List.mem_append.mp ha with hold | hnew
    · refine { hs.timely a hold w hw with latest := fun entry h => ?_ }
      rcases of_lookup_insert h with ⟨hclient, rfl⟩ | ⟨-, h⟩
      · exact hlatest a hold w hw hclient
      · exact (hs.timely a hold w hw).latest entry h
    · rw [List.mem_singleton.mp hnew] at hw ⊢
      cases hw
      refine ⟨hfits.client, hfits.known, hfits.started, hlasting, hfits.started, fun entry h => ?_⟩
      rcases of_lookup_insert h with ⟨-, rfl⟩ | ⟨hother, -⟩
      · exact .inl rfl
      · exact absurd hfits.client hother
  · intro a ha b hb w w' hw hw'
    rcases List.mem_append.mp ha with hold | hnew
    · rcases List.mem_append.mp hb with hold' | hnew'
      · exact hs.apart a hold b hold' w w' hw hw'
      · rw [List.mem_singleton.mp hnew'] at hw'
        cases hw'
        intro hclient
        exact (hlatest a hold w hw (hclient.trans hfits.client)).imp_right .inl
    · rw [List.mem_singleton.mp hnew] at hw
      cases hw
      rcases List.mem_append.mp hb with hold' | hnew'
      · intro hclient
        rcases hlatest b hold' w' hw' (hclient.symm.trans hfits.client) with rfl | hfollows
        · exact .inl rfl
        · exact .inr (.inr hfollows)
      · rw [List.mem_singleton.mp hnew'] at hw'
        cases hw'
        exact fun _ => .inl rfl
  · intro hlim a ha
    rcases List.mem_append.mp ha with hold | hnew
    · exact hs.counted hlim a hold
    · rw [List.mem_singleton.mp hnew]
      exact ⟨_, rfl⟩
  · intro hrate w
    rw [hwin]
    by_cases hw : some current.window = some w
    · obtain rfl := some.inj hw
      have hbelow : current.messageCount < limits.maxMessageRatePerClient := by
        simpa [hrate] using hadmits.1
      rw [if_pos rfl, List.length_append, ← hfits.messages]
      exact hbelow
    · rw [if_neg hw, List.append_nil]
      exact hs.messages hrate w
  · intro hband w
    rw [hwin]
    by_cases hw : some current.window = some w
    · obtain rfl := some.inj hw
      have hbelow : current.bytesTransferred + size ≤ limits.maxBandwidthPerClient := by
        simpa [hband] using hadmits.2
      rw [if_pos rfl, bytes_append, ← hfits.bytes]
      exact hbelow
    · rw [if_neg hw, List.append_nil]
      exact hs.bytes hband w

/-- Without limits nothing is counted. -/
theorem Metered.message_unlimited (hlim : limits.limited = false) :
    Metered limits (s.admission clientId size none) := by
  unfold ResourceLimits.limited at hlim
  rw [Bool.or_eq_false_iff] at hlim
  have hwin : ∀ w, (s.admission clientId size none).inWindow w = s.inWindow w := by
    intro w
    rw [inWindow_admission, if_neg nofun, List.append_nil]
  refine ⟨?_, hs.served, ?_, ?_, ?_, ?_, ?_⟩
  · intro other entry h
    have hent := hs.entries other entry h
    refine ⟨hent.client, hent.known, hent.started, ?_, ?_⟩
    · rw [hwin]
      exact hent.messages
    · rw [hwin]
      exact hent.bytes
  · intro a ha w hw
    rcases List.mem_append.mp ha with hold | hnew
    · exact { hs.timely a hold w hw with }
    · rw [List.mem_singleton.mp hnew] at hw
      cases hw
  · intro a ha b hb w w' hw hw'
    rcases List.mem_append.mp ha with hold | hnew
    · rcases List.mem_append.mp hb with hold' | hnew'
      · exact hs.apart a hold b hold' w w' hw hw'
      · rw [List.mem_singleton.mp hnew'] at hw'
        cases hw'
    · rw [List.mem_singleton.mp hnew] at hw
      cases hw
  · intro h
    unfold ResourceLimits.limited at h
    rw [hlim.1, hlim.2] at h
    cases h
  · intro hrate
    exact ((of_decide_eq_false hlim.1) hrate).elim
  · intro hband
    exact ((of_decide_eq_false hlim.2) hband).elim

end

theorem canSendMessage_frame (limits : ResourceLimits) (s : State) (clientId : String)
    (size : Nat) :
    (s.canSendMessage limits clientId size).1.connections = s.connections ∧
      (s.canSendMessage limits clientId size).1.connectionCount = s.connectionCount ∧
      (s.canSendMessage limits clientId size).1.ipConnections = s.ipConnections := by
  unfold canSendMessage
  split
  · split
    · exact ⟨rfl, rfl, rfl⟩
    · dsimp only
      split <;> exact ⟨rfl, rfl, rfl⟩
  · exact ⟨rfl, rfl, rfl⟩

theorem Metered.send (hs : Metered limits s)
    (hstep : s.send limits g size = some s') : Metered limits s' := by
  obtain ⟨hserv, rfl⟩ := ite_some_none_eq_some.mp hstep
  unfold canSendMessage
  split
  · -- the connection is in service, so its client has an entry
    obtain ⟨resources, hlook⟩ := hs.served g hserv
    rw [hlook]
    dsimp only
    have hrenewed := hs.renew hlook
    split
    · rename_i hadmits
      exact hrenewed.message_counted (lookup_insert _)
        (currentWindow_lasting limits s _ resources) hadmits rfl
    · exact hrenewed
  · rename_i hlim
    exact hs.message_unlimited (by simpa using hlim)

theorem Metered.remove (hs : Metered limits s)
    (hsole : ∀ k, k ≠ g → (s.connections k).clientId = (s.connections g).clientId →
      (s.connections k).stage ≠ .serving) (hstep : s.remove g = some s') :
    Metered limits s' := by
  obtain ⟨-, rfl⟩ := ite_some_none_eq_some.mp hstep
  refine hs.silent ?_ ?_ ?_ (Nat.le_refl _) (Nat.le_refl _) rfl
  · intro clientId resources h
    have hold := (of_lookup_erase h).2
    exact (hs.entries clientId resources hold).mono (Nat.le_refl _) (Nat.le_refl _) rfl
  · dsimp only [setStage]
    refine forall_update rfl nofun fun k hkg hk => ?_
    by_cases hcl : (s.connections k).clientId = (s.connections g).clientId
    · exact (hsole k hkg hcl hk).elim
    · rw [lookup_erase_ne hcl]
      exact hs.served k hk
  · exact fun w _ _ hlast resources h => hlast resources (of_lookup_erase h).2

/-- A step of one connection that leaves the accounting alone. -/
theorem Metered.move {connection : Connection} (hs : Metered limits s)
    (hconns : s'.connections = update s.connections g connection)
    (hconnection : connection.stage = .serving →
      (s.connections g).stage = .serving ∧ connection.clientId = (s.connections g).clientId)
    (hsame : s'.now = s.now ∧ s'.clientResources = s.clientResources ∧
      s'.nextWindow = s.nextWindow ∧ s'.admissions = s.admissions) : Metered limits s' := by
  obtain ⟨hnow, hresources, hnext, hlog⟩ := hsame
  refine hs.frame (Nat.le_of_eq hnow.symm) hresources hnext hlog ?_
  exact forall_update hconns hconnection fun _ _ hk => ⟨hk, rfl⟩

theorem Metered.step {a : Action} (hs : Metered limits s) (hsole : Sole s a)
    (hstep : act limits s a = some s') : Metered limits s' := by
  cases a with
  | tick _ =>
    cases hstep
    exact hs.frame (Nat.le_add_right _ _) rfl rfl rfl (fun _ hk => ⟨hk, rfl⟩)
  | testTotal g ip | testAddress g =>
    simp only [act, testTotal, testAddress] at hstep
    split at hstep
    · cases hstep
      refine hs.move rfl ?_ ⟨rfl, rfl, rfl, rfl⟩
      dsimp only
      split <;> nofun
    · cases hstep
  | testRate g =>
    simp only [act, testRate] at hstep
    split at hstep
    · split at hstep <;> cases hstep <;> exact hs.move rfl nofun ⟨rfl, rfl, rfl, rfl⟩
    · cases hstep
  | fail g | count g clientId | list g | uncount g | unlist g =>
    simp only [act, fail, count, list, uncount, unlist] at hstep
    split at hstep
    · cases hstep
      exact hs.move rfl nofun ⟨rfl, rfl, rfl, rfl⟩
    · cases hstep
  | insert g => exact hs.insert hstep
  | send g _ => exact hs.send hstep
  | migrate g ip =>
    simp only [act, migrate] at hstep
    obtain ⟨hserv, rfl⟩ := ite_some_none_eq_some.mp hstep
    exact hs.move rfl (fun _ => ⟨hserv, rfl⟩) ⟨rfl, rfl, rfl, rfl⟩
  | remove g => exact hs.remove hsole hstep
  | cleanup clientId =>
    obtain ⟨_, hlook, rfl⟩ := map_eq_some_iff.mp hstep
    exact hs.renew hlook

/-! ## Runs -/

def accepting (g : Nat) : List Action :=
  [.testTotal g (.v4 1), .testAddress g, .testRate g]

def registering (g : Nat) : List Action := [.count g "c", .list g, .insert g]

def unregistering (g : Nat) : List Action := [.uncount g, .unlist g, .remove g]

end MqttLib.Broker.ResourceMonitor
