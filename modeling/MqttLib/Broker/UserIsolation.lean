/-
MqttLib.Broker.UserIsolation

Session state does not cross users (`client_handler/connect.rs`, `client_handler/mod.rs`,
`router.rs`): at any time the queue, the inflight records and the subscriptions of a client
identifier belong to the user of the connection registered last.

The user check of the claim, the discarding of a fresh session's state and the queue epochs
carry this through every interleaving, except where a connection that has lost the session
still takes from the queue, loads the inflight records or stores one: these are not fenced
by the generation.
-/

import MqttLib.Broker.Users

namespace MqttLib.Broker.Users

open Foundation Storage Function Users.Client Stage Handler List Option
open MqttLib.Broker.Ownership (Exit)

variable {storage : Bool} {owner : User} {c c' : Client} {g : Nat}

/-! ## The condition -/

/-- The connection registered with the router is one of the same user. -/
def Client.sharesOwner (c : Client) (g : Nat) : Bool :=
  c.registered.any fun k => (c.handlers k).user = (c.handlers g).user

/-- The stored session is one of the same user. -/
def Client.sharesSession (c : Client) (g : Nat) : Bool :=
  c.stored.any fun session => session.user = (c.handlers g).user

/-- A connection takes from the queue and loads the inflight records only while the session is
registered for its user, stores an inflight record only while the session is also stored
for its user, and the claim of a fresh session can remove the inflight records. -/
def Client.fenced (storage : Bool) (c : Client) : Step → Bool
  | .discardInflight _ ok => !storage || ok
  | .bind g _ _ => !(c.handlers g).resume || c.sharesOwner g
  | .drain g _ => c.sharesOwner g
  | .sendNext g .. | .receive g .. | .pubrec g .. | .publish g .. =>
    !storage || (c.sharesOwner g && c.sharesSession g)
  | _ => true

/-- `fenced` for the client identifier an action is about. -/
def fenced (storage : Bool) (s : State) (a : Action) : Bool :=
  (s a.clientId).fenced storage a.step

/-! ## The invariant -/

/-- The stages after the registration, while the connection may use its epoch. -/
def Stage.serving : Stage → Bool
  | .idle | .claiming | .stored | .cleared | .gone => false
  | _ => true

/-- The stages of a claim before its registration. -/
def Stage.claims : Stage → Bool
  | .claiming | .stored | .cleared => true
  | _ => false

/-- The user the stored session has: that of a claim that has stored its session and not
registered yet, otherwise that of the connection registered last. -/
def Client.sessionUser (c : Client) (owner : User) : User :=
  match c.slot with
  | some k => if (c.handlers k).stage.claimStored then (c.handlers k).user else owner
  | none => owner

/-- What the connections share belongs to `owner`, the stored session to `sessionUser`. -/
structure Shared (storage : Bool) (owner sessionUser : User) (c : Client) : Prop where
  routes : ∀ subscription ∈ c.routes, subscription.user = owner
  queue : ∀ message ∈ c.queue.messages, message.user = owner
  records : ∀ record ∈ c.records, record.user = owner
  session : ∀ session, c.stored = some session → session.user = sessionUser
  subscriptions : ∀ session, c.stored = some session →
    ∀ subscription ∈ session.subscriptions, subscription.user = session.user
  unstored : storage = false → c.records = [] ∧ c.stored = none

/-- What a connection holds belongs to its user. -/
structure Handler.Own (h : Handler) : Prop where
  messages : ∀ message ∈ h.messages, message.user = h.user
  subscriptions : ∀ subscription ∈ h.subscriptions, subscription.user = h.user

/-- A planned delivery reaches the lane of a connection of its user, or the queue while it
still is that of its user. -/
structure Planned.Fits (owner : User) (c : Client) (planned : Planned) : Prop where
  past : planned.epoch ≤ c.queue.epoch
  current : planned.epoch = c.queue.epoch → planned.message.user = owner
  target : ∀ k, planned.target = some k →
    (c.handlers k).stage.unregistered = false ∧ planned.message.user = (c.handlers k).user

/-- The invariant, for the user of the connection registered last. -/
structure Sound (storage : Bool) (owner : User) (c : Client) : Prop where
  shared : Shared storage owner (c.sessionUser owner) c
  own : ∀ k, (c.handlers k).Own
  slot : ∀ k, (c.handlers k).stage.holdsSlot = true → c.slot = some k
  resumes : ∀ k, (c.handlers k).stage.claims = true → (c.handlers k).resume = true →
    (c.handlers k).user = owner
  installs : ∀ k, (c.handlers k).stage = .registered → (c.handlers k).user = owner
  cleared : ∀ k, (c.handlers k).stage = .cleared →
    ∀ record ∈ c.records, record.user = (c.handlers k).user
  registered : ∀ k, c.registered = some k →
    (c.handlers k).stage.unregistered = false ∧ (c.handlers k).user = owner
  epoch : ∀ k, (c.handlers k).stage.serving = true → (c.handlers k).epoch ≤ c.queue.epoch ∧
    ((c.handlers k).epoch = c.queue.epoch → (c.handlers k).user = owner)
  planned : ∀ task planned, c.routers task = some planned → planned.Fits owner c

theorem Sound.initial (storage : Bool) (owner : User) : Sound storage owner .initial where
  shared := ⟨by simp [Client.initial], by simp [Client.initial], by simp [Client.initial],
    by simp [Client.initial], by simp [Client.initial], by simp [Client.initial]⟩
  own := fun k => ⟨by simp [Client.initial, Handler.messages], by simp [Client.initial]⟩
  slot := by simp [Client.initial, Stage.holdsSlot]
  resumes := by simp [Client.initial, Stage.claims]
  installs := by simp [Client.initial]
  cleared := by simp [Client.initial]
  registered := by simp [Client.initial]
  epoch := by simp [Client.initial, Stage.serving]
  planned := by simp [Client.initial]

theorem Sound.user_of_sharesOwner (hs : Sound storage owner c) (hshares : c.sharesOwner g) :
    (c g).user = owner := by
  unfold sharesOwner at hshares
  cases hreg : c.registered with
  | none =>
    rw [hreg] at hshares
    cases hshares
  | some k =>
    rw [hreg] at hshares
    exact (of_decide_eq_true hshares).symm.trans (hs.registered k hreg).2

theorem Sound.sessionUser_of_sharesSession (hs : Sound storage owner c)
    (hshares : c.sharesSession g) : c.sessionUser owner = (c g).user := by
  unfold sharesSession at hshares
  cases hsto : c.stored with
  | none =>
    rw [hsto] at hshares
    cases hshares
  | some session =>
    rw [hsto] at hshares
    exact (hs.shared.session session hsto).symm.trans (of_decide_eq_true hshares)

/-! ## Steps of a connection in service -/

/-- A connection in service goes on, or is gone. -/
structure Handler.Goes (h h' : Handler) : Prop where
  serving : h.stage.serving = true
  user : h'.user = h.user
  subscriptions : h'.subscriptions = h.subscriptions
  epoch : h'.epoch = h.epoch
  stage : h'.stage.serving = true ∨ h'.stage = .gone
  installed : h'.stage = .registered → h.stage = .registered

variable {stage : Stage} {h' h : Handler} {sessionUser user : User} {records : List InflightRecord}
  {record : InflightRecord} {ok written fits owned : Bool} {message : Message} {packetId : UInt16}
  {exit : Exit}

theorem Stage.claimStored_of_goes (h : stage.serving ∨ stage = .gone) :
    stage.claimStored = false := by
  cases stage <;> simp_all [serving, claimStored]

theorem Stage.unregistered_of_goes (h : stage.serving ∨ stage = .gone) :
    stage.unregistered = false := by
  cases stage <;> simp_all [serving, unregistered]

theorem Stage.claims_of_goes (h : stage.serving ∨ stage = .gone) : stage.claims = false := by
  cases stage <;> simp_all [serving, claims]

/-- The users of the registered connections stay what they are. -/
theorem Planned.Fits.mono {planned : Planned} (hfits : planned.Fits owner c)
    (hepoch : c'.queue.epoch = c.queue.epoch ∨ c.queue.epoch < c'.queue.epoch)
    (hhs : ∀ k, (c k).stage.unregistered = false →
      (c' k).stage.unregistered = false ∧
        (c' k).user = (c k).user) :
    planned.Fits owner c' where
  past := by
    have hpast := hfits.past
    omega
  current := by
    intro heq
    have hpast := hfits.past
    exact hfits.current (by omega)
  target := by
    intro k hk
    obtain ⟨hstg, huser⟩ := hfits.target k hk
    obtain ⟨hstg', huser'⟩ := hhs k hstg
    exact ⟨hstg', huser.trans huser'.symm⟩

/-- A step of one connection in service. -/
theorem Sound.serve (hs : Sound storage owner c) (hhs : c'.handlers = update c.handlers g h')
    (hgoes : (c g).Goes h') (hmsgs : ∀ message ∈ h'.messages, message.user = (c g).user)
    (hshr : Shared storage owner (c.sessionUser owner) c')
    (hrecs : ∀ record ∈ c'.records, record ∈ c.records ∨ record.user = c.sessionUser owner)
    (hepoch : c'.queue.epoch = c.queue.epoch ∨ c.queue.epoch < c'.queue.epoch)
    (hslot : ∀ k, (c' k).stage.holdsSlot → c'.slot = some k)
    (hsess : c'.sessionUser owner = c.sessionUser owner)
    (hreg : ∀ k, c'.registered = some k → c.registered = some k) (hrtrs : c'.routers = c.routers) :
    Sound storage owner c' := by
  refine ⟨hsess ▸ hshr, ?_, hslot, ?_, ?_, ?_, ?_, ?_, ?_⟩
  · refine forall_update hhs
      ⟨fun message hm => (hmsgs message hm).trans hgoes.user.symm, ?_⟩ fun k _ => hs.own k
    rw [hgoes.subscriptions, hgoes.user]
    exact (hs.own g).subscriptions
  · refine forall_update hhs ?_ fun k _ => hs.resumes k
    rw [claims_of_goes hgoes.stage]
    nofun
  · refine forall_update hhs ?_ fun k _ => hs.installs k
    rw [hgoes.user]
    exact fun hstg => hs.installs g (hgoes.installed hstg)
  · refine forall_update hhs ?_ fun k _ => ?_
    · intro hstg
      have hclaims := claims_of_goes hgoes.stage
      rw [hstg] at hclaims
      cases hclaims
    · intro hstg record hrec
      rcases hrecs record hrec with hold | hnew
      · exact hs.cleared k hstg record hold
      · -- the claim holds the slot, so the stored session is already its own
        have hhold : c.slot = some k := hs.slot k (by simp [hstg, holdsSlot])
        rw [hnew, sessionUser, hhold]
        simp [hstg, claimStored]
  · refine forall_update hhs ?_ fun k _ hk => hs.registered k (hreg k hk)
    intro hg
    obtain ⟨-, huser⟩ := hs.registered g (hreg g hg)
    exact ⟨unregistered_of_goes hgoes.stage, hgoes.user.trans huser⟩
  · refine forall_update hhs ?_ fun k _ hserv => ?_
    · rw [hgoes.epoch, hgoes.user]
      intro _
      obtain ⟨hle, heq⟩ := hs.epoch g hgoes.serving
      exact ⟨by omega, fun h => heq (by omega)⟩
    · obtain ⟨hle, heq⟩ := hs.epoch k hserv
      exact ⟨by omega, fun h => heq (by omega)⟩
  · intro task planned hplan
    rw [hrtrs] at hplan
    refine (hs.planned task planned hplan).mono hepoch ?_
    exact forall_update hhs (fun _ => ⟨unregistered_of_goes hgoes.stage, hgoes.user⟩)
      fun k _ hstg => ⟨hstg, rfl⟩

/-- A step of one connection that leaves the slot and the router entry alone. -/
theorem Sound.loop (hs : Sound storage owner c) (hhs : c'.handlers = update c.handlers g h')
    (hgoes : (c g).Goes h') (hfree : h'.stage.holdsSlot = false)
    (hmsgs : ∀ message ∈ h'.messages, message.user = (c g).user)
    (hshr : Shared storage owner (c.sessionUser owner) c')
    (hrecs : ∀ record ∈ c'.records, record ∈ c.records ∨ record.user = c.sessionUser owner)
    (hepoch : c'.queue.epoch = c.queue.epoch ∨ c.queue.epoch < c'.queue.epoch)
    (hslot : c'.slot = c.slot) (hreg : c'.registered = c.registered)
    (hrtrs : c'.routers = c.routers) : Sound storage owner c' := by
  refine hs.serve hhs hgoes hmsgs hshr hrecs hepoch ?_ ?_ (by simp [hreg]) hrtrs
  · rw [hslot]
    refine forall_update hhs ?_ fun k _ => hs.slot k
    rw [hfree]
    nofun
  · unfold sessionUser
    rw [hslot]
    cases c.slot with
    | none => rfl
    | some k =>
      by_cases hk : k = g
      · subst hk
        simp [hhs, claimStored_of_goes hgoes.stage, claimStored_of_goes (.inl hgoes.serving)]
      · simp [hhs, hk]

/-- A step that changes nothing but one connection. -/
theorem Sound.move (hs : Sound storage owner c) (hgoes : (c g).Goes h')
    (hfree : h'.stage.holdsSlot = false)
    (hmsgs : ∀ message ∈ h'.messages, message.user = (c g).user) :
    Sound storage owner (c.setHandler g h') :=
  hs.loop rfl hgoes hfree hmsgs
    ⟨hs.shared.routes, hs.shared.queue, hs.shared.records, hs.shared.session,
      hs.shared.subscriptions, hs.shared.unstored⟩
    (fun _ hr => .inl hr) (.inl rfl) rfl rfl rfl

/-! ### What the operations do to the shared data -/

/-- Fewer records. -/
theorem Shared.fewer_records (hs : Shared storage owner sessionUser c)
    (hroutes : c'.routes = c.routes) (hqueue : ∀ message ∈ c'.queue.messages, message.user = owner)
    (hrecs : ∀ record ∈ c'.records, record ∈ c.records) (hsto : c'.stored = c.stored) :
    Shared storage owner sessionUser c' where
  routes := hroutes ▸ hs.routes
  queue := hqueue
  records := fun record hr => hs.records record (hrecs record hr)
  session := hsto ▸ hs.session
  subscriptions := hsto ▸ hs.subscriptions
  unstored := by
    intro hnone
    obtain ⟨hemp, hnil⟩ := hs.unstored hnone
    refine ⟨eq_nil_iff_forall_not_mem.mpr ?_, hsto.trans hnil⟩
    intro record hr
    exact not_mem_nil (hemp ▸ hrecs record hr)

theorem mem_logged {β : Type} {before after : List β} {x : β}
    (h : x ∈ logged ok before after) : x ∈ before ∨ x ∈ after := by
  unfold logged at h
  split at h
  · exact .inr h
  · exact .inl h

/-- A removal leaves only records that were there. -/
theorem mem_logged_removeInflight {direction : InflightDirection} {ids : List UInt16}
    (h : record ∈ logged ok records (removeInflight records direction ids)) : record ∈ records :=
  (mem_logged h).elim id mem_of_mem_filter

theorem mem_requeueFrontInEpoch {q : Queue} {messages : List Message} {epoch : Nat}
    (h : message ∈ (q.requeueFrontInEpoch messages epoch).messages) :
    message ∈ q.messages ∨ (q.epoch = epoch ∧ message ∈ messages) := by
  unfold Queue.requeueFrontInEpoch at h
  split at h
  · rename_i heq
    rcases mem_append.mp h with hnew | hold
    · exact .inr ⟨heq, hnew⟩
    · exact .inl hold
  · exact .inl h

@[simp]
theorem requeueFrontInEpoch_epoch (q : Queue) (messages : List Message) (epoch : Nat) :
    (q.requeueFrontInEpoch messages epoch).epoch = q.epoch := by
  unfold Queue.requeueFrontInEpoch
  split <;> rfl

theorem mem_pushInEpoch {q : Queue} {new : Message} {epoch : Nat}
    (h : message ∈ (q.pushInEpoch new epoch).messages) :
    message ∈ q.messages ∨ (q.epoch = epoch ∧ message = new) := by
  unfold Queue.pushInEpoch at h
  split at h
  · rename_i heq
    rcases mem_append.mp h with hold | hnew
    · exact .inl hold
    · exact .inr ⟨heq, mem_singleton.mp hnew⟩
  · exact .inl h

@[simp]
theorem pushInEpoch_epoch (q : Queue) (message : Message) (epoch : Nat) :
    (q.pushInEpoch message epoch).epoch = q.epoch := by
  unfold Queue.pushInEpoch
  split <;> rfl

/-- A connection in service puts back only messages of the owner. -/
theorem Sound.requeue {messages : List Message} (hs : Sound storage owner c)
    (hserv : (c g).stage.serving) (hmsgs : ∀ message ∈ messages, message.user = (c g).user) :
    ∀ message ∈ (c.queue.requeueFrontInEpoch messages (c g).epoch).messages,
      message.user = owner := by
  intro message hm
  rcases mem_requeueFrontInEpoch hm with hold | ⟨hepoch, hnew⟩
  · exact hs.shared.queue message hold
  · rw [hmsgs message hnew]
    exact (hs.epoch g hserv).2 hepoch.symm

/-! ### The steps -/

theorem Handler.forall_messages :
    (∀ m ∈ h.messages, m.user = user) ↔ (∀ m ∈ h.lane, m.user = user) ∧
      (∀ m ∈ h.batch, m.user = user) ∧ (∀ m ∈ h.held, m.user = user) ∧
      ∀ sent ∈ h.outboundInflight, sent.message.user = user := by
  simp [messages, or_imp, forall_and]

theorem Handler.listening_serving (hlisten : h.listening) : h.stage.serving := by
  unfold listening at hlisten
  split at hlisten
  · rename_i hstg
    simp [hstg, serving]
  · cases hlisten

theorem Sound.acknowledge (hs : Sound storage owner c)
    (hstep : c.acknowledge g written = some c') : Sound storage owner c' := by
  obtain ⟨hstg, rfl⟩ := ite_some_none_eq_some.mp hstep
  refine hs.move ⟨by simp [hstg, serving], rfl, rfl, rfl, .inl ?_, ?_⟩ ?_ (hs.own g).messages
  · dsimp only
    split
    · rfl
    · split <;> rfl
  · dsimp only
    split
    · nofun
    · split <;> nofun
  · dsimp only
    split
    · rfl
    · split <;> rfl

theorem Sound.turn (hs : Sound storage owner c) (hstep : c.turn g = some c') :
    Sound storage owner c' := by
  obtain ⟨hstg, rfl⟩ := ite_some_none_eq_some.mp hstep
  exact hs.move ⟨by simp [hstg, serving], rfl, rfl, rfl, .inl rfl, nofun⟩ rfl (hs.own g).messages

/-- The records loaded into a connection of the owner are its user's. -/
theorem Handler.load_messages {looked : List InflightRecord}
    (hown : ∀ message ∈ h.messages, message.user = user)
    (hlooked : ∀ record ∈ looked, record.user = user) :
    ∀ message ∈ (h.load looked).messages, message.user = user := by
  obtain ⟨hlane, hbatch, hheld, hinfl⟩ := forall_messages.mp hown
  refine forall_messages.mpr ⟨hlane, hbatch, hheld, fun sent hsent => ?_⟩
  rcases mem_append.mp hsent with hold | hnew
  · exact hinfl sent hold
  · obtain ⟨record, hrec, rfl⟩ := mem_map.mp hnew
    exact hlooked record (mem_of_mem_filter hrec)

theorem Client.serving_of_mayBind (hmay : c.mayBind g) : (c g).stage.serving := by
  unfold mayBind at hmay
  split at hmay <;> simp_all [serving]

section

variable (hs : Sound storage owner c)
include hs

theorem Sound.bind {unwritten : Option Nat} (hfenced : (c g).resume → c.sharesOwner g)
    (hstep : c.bind g unwritten ok = some c') : Sound storage owner c' := by
  obtain ⟨hmay, hstep⟩ := ite_none_right_eq_some.mp hstep
  have hserv := serving_of_mayBind hmay
  split at hstep
  · rename_i hresume
    have huser := hs.user_of_sharesOwner (hfenced hresume)
    have hrecs : ∀ record ∈ c.records, record.user = (c g).user := by
      intro record hr
      rw [huser]
      exact hs.shared.records record hr
    cases hstep
    unfold loadPersistedInflight
    cases unwritten with
    | some n =>
      refine hs.move ⟨hserv, rfl, rfl, rfl, .inl rfl, nofun⟩ rfl ?_
      exact load_messages (hs.own g).messages (fun record hr => hrecs record (mem_of_mem_take hr))
    | none =>
      refine hs.loop rfl ⟨hserv, rfl, rfl, rfl, .inl rfl, nofun⟩ rfl
        (load_messages (hs.own g).messages hrecs)
        (hs.shared.fewer_records rfl ?_ (fun _ hr => mem_logged_removeInflight hr) rfl)
        (fun record hr => .inl (mem_logged_removeInflight hr)) (.inl (by simp)) rfl rfl rfl
      refine hs.requeue hserv ?_
      intro _ hm
      obtain ⟨record, hr, rfl⟩ := mem_map.mp hm
      exact hrecs record (mem_of_mem_filter hr)
  · cases hstep
    have hkept : ∀ record ∈ logged ok c.records [], record ∈ c.records := by
      intro record hr
      exact (mem_logged hr).elim id (fun h => (not_mem_nil h).elim)
    exact hs.loop rfl ⟨hserv, rfl, rfl, rfl, .inl rfl, nofun⟩ rfl (hs.own g).messages
      (hs.shared.fewer_records rfl hs.shared.queue hkept rfl)
      (fun record hr => .inl (hkept record hr)) (.inl rfl) rfl rfl rfl

theorem Sound.drain {count : Nat} (hshares : c.sharesOwner g)
    (hstep : c.drain g count = some c') : Sound storage owner c' := by
  have huser := hs.user_of_sharesOwner hshares
  obtain ⟨hstg, rfl⟩ := ite_some_none_eq_some.mp hstep
  refine hs.loop rfl ⟨by simp [hstg.1, serving], rfl, rfl, rfl, .inl rfl, nofun⟩ rfl ?_
    (hs.shared.fewer_records rfl ?_ (fun _ hr => hr) rfl) (fun _ hr => .inl hr) (.inl rfl) rfl
    rfl rfl
  · obtain ⟨hlane, -, hrest⟩ := forall_messages.mp (hs.own g).messages
    refine forall_messages.mpr ⟨hlane, fun m hm => ?_, hrest⟩
    rw [huser]
    exact hs.shared.queue m (mem_of_mem_take hm)
  · exact fun message hm => hs.shared.queue message (mem_of_mem_drop hm)

theorem Sound.cut (hstep : c.cut g = some c') : Sound storage owner c' := by
  obtain ⟨hlane, hbatch, hrest⟩ := forall_messages.mp (hs.own g).messages
  obtain ⟨hstg, hstep⟩ := ite_none_right_eq_some.mp hstep
  have hserv : (c g).stage.serving := by simp [hstg, serving]
  cases hstep
  exact hs.loop rfl ⟨hserv, rfl, rfl, rfl, .inl rfl, nofun⟩ rfl
    (forall_messages.mpr ⟨hlane, nofun, hrest⟩)
    (hs.shared.fewer_records rfl (hs.requeue hserv hbatch) (fun _ hr => hr) rfl)
    (fun _ hr => .inl hr) (.inl (by simp)) rfl rfl rfl

theorem Sound.endBatch (hstep : c.endBatch g = some c') : Sound storage owner c' := by
  obtain ⟨hstg, rfl⟩ := ite_some_none_eq_some.mp hstep
  exact hs.move ⟨by simp [hstg, serving], rfl, rfl, rfl, .inl rfl, nofun⟩ rfl (hs.own g).messages

theorem Sound.settle (hstep : c.settle g packetId ok = some c') : Sound storage owner c' := by
  obtain ⟨hlisten, rfl⟩ := ite_some_none_eq_some.mp hstep
  refine hs.loop rfl ⟨listening_serving hlisten.1, rfl, rfl, rfl, .inl rfl, nofun⟩ rfl ?_
    (hs.shared.fewer_records rfl hs.shared.queue (fun _ hr => mem_logged_removeInflight hr) rfl)
    (fun _ hr => .inl (mem_logged_removeInflight hr)) (.inl rfl) rfl rfl rfl
  obtain ⟨hlane, hbatch, hheld, hinfl⟩ := forall_messages.mp (hs.own g).messages
  exact forall_messages.mpr
    ⟨hlane, hbatch, hheld, fun sent hsent => hinfl sent (mem_of_mem_filter hsent)⟩

theorem Sound.pubrel (hstep : c.pubrel g packetId ok = some c') : Sound storage owner c' := by
  obtain ⟨hlisten, rfl⟩ := ite_some_none_eq_some.mp hstep
  exact hs.loop rfl ⟨listening_serving hlisten.1, rfl, rfl, rfl, .inl rfl, nofun⟩ rfl
    (hs.own g).messages
    (hs.shared.fewer_records rfl hs.shared.queue (fun _ hr => mem_logged_removeInflight hr) rfl)
    (fun _ hr => .inl (mem_logged_removeInflight hr)) (.inl rfl) rfl rfl rfl

variable (hfenced : storage = true → c.sharesOwner g = true ∧ c.sharesSession g = true)
include hfenced

/-- A connection in service stores an inflight record. -/
theorem Sound.persistInflight (hgoes : (c g).Goes h') (hfree : h'.stage.holdsSlot = false)
    (hmsgs : ∀ message ∈ h'.messages, message.user = (c g).user)
    (huser : record.user = (c g).user) :
    Sound storage owner ((c.setHandler g h').persistInflight storage ok record) := by
  cases hstore : storage with
  | false =>
    rw [hstore] at hs
    exact hs.move hgoes hfree hmsgs
  | true =>
    obtain ⟨hown, hsess⟩ := hfenced hstore
    rw [hstore] at hs
    have hmem : ∀ r ∈ logged (true && ok) c.records (storeInflight c.records record),
        r ∈ c.records ∨ r = record := by
      intro r hr
      rcases mem_logged hr with hold | hnew
      · exact .inl hold
      · exact (mem_append.mp hnew).imp mem_of_mem_filter mem_singleton.mp
    refine hs.loop rfl hgoes hfree hmsgs
      ⟨hs.shared.routes, hs.shared.queue, ?_, hs.shared.session, hs.shared.subscriptions, ?_⟩ ?_
      (.inl rfl) rfl rfl rfl
    · intro r hr
      rcases hmem r hr with hold | rfl
      · exact hs.shared.records r hold
      · exact huser.trans (hs.user_of_sharesOwner hown)
    · intro h
      cases h
    · intro r hr
      rcases hmem r hr with hold | rfl
      · exact .inl hold
      · exact .inr (huser.trans (hs.sessionUser_of_sharesSession hsess).symm)

theorem Sound.sendPublish (hgoes : (c g).Goes h) (hfree : h.stage.holdsSlot = false)
    (hserv : h.stage.serving) (hmsgs : ∀ m ∈ h.messages, m.user = (c g).user)
    (hmsg : message.user = (c g).user) :
    Sound storage owner (c.sendPublish storage g h message packetId fits ok written) := by
  unfold Client.sendPublish
  split
  · refine hs.persistInflight hfenced ⟨hgoes.serving, hgoes.user, hgoes.subscriptions,
      hgoes.epoch, .inl ?_, ?_⟩ ?_ ?_ hgoes.user
    · dsimp only
      split
      · exact hserv
      · rfl
    · dsimp only
      split
      · exact hgoes.installed
      · nofun
    · dsimp only
      split
      · exact hfree
      · rfl
    · obtain ⟨hlane, hbatch, hheld, hinfl⟩ := forall_messages.mp hmsgs
      refine forall_messages.mpr ⟨hlane, ?_, ?_, fun sent hsent => ?_⟩
      · dsimp only
        split
        · exact hbatch
        · nofun
      · dsimp only
        split
        · exact hheld
        · exact fun m hm => (mem_append.mp hm).elim (hheld m) (hbatch m)
      · rcases mem_append.mp hsent with hold | hnew
        · exact hinfl sent hold
        · rw [mem_singleton.mp hnew]
          exact hmsg
  · exact hs.move hgoes hfree hmsgs

theorem Sound.sendNext
    (hstep : c.sendNext storage g packetId fits ok written = some c') : Sound storage owner c' := by
  obtain ⟨hlane, hown, hheld, hinfl⟩ := forall_messages.mp (hs.own g).messages
  unfold Client.sendNext at hstep
  dsimp only at hstep
  split at hstep
  · cases hstep
  rename_i message _ hbatch
  obtain ⟨hstg, hstep⟩ := ite_none_right_eq_some.mp hstep
  have hserv : (c g).stage.serving := by simp [hstg, serving]
  split at hstep
  · cases hstep
    refine hs.move ⟨hserv, rfl, rfl, rfl, .inl rfl, nofun⟩ rfl ?_
    refine forall_messages.mpr ⟨hlane, nofun, fun m hm => ?_, hinfl⟩
    exact (mem_append.mp hm).elim (hheld m) (hown m)
  · cases hstep
    refine hs.sendPublish hfenced ⟨hserv, rfl, rfl, rfl, .inl hserv, id⟩ ?_ hserv ?_ ?_
    · simp [hstg, holdsSlot]
    · exact forall_messages.mpr ⟨hlane,
        fun m hm => hown m (hbatch ▸ mem_cons_of_mem message hm), hheld, hinfl⟩
    · exact hown message (hbatch ▸ mem_cons_self)

theorem Sound.receive
    (hstep : c.receive storage g packetId fits ok written = some c') : Sound storage owner c' := by
  obtain ⟨hown, hrest⟩ := forall_messages.mp (hs.own g).messages
  unfold Client.receive at hstep
  dsimp only at hstep
  split at hstep
  · cases hstep
  rename_i message _ hlane
  obtain ⟨hstg, hstep⟩ := ite_none_right_eq_some.mp hstep
  have hserv : (c g).stage.serving := by
    rcases hstg with h | h
    · simp [h, serving]
    · simp [h.1, serving]
  cases hstep
  refine hs.sendPublish hfenced ⟨hserv, rfl, rfl, rfl, .inl rfl, nofun⟩ rfl rfl ?_ ?_
  · exact forall_messages.mpr ⟨fun m hm => hown m (hlane ▸ mem_cons_of_mem message hm), hrest⟩
  · exact hown message (hlane ▸ mem_cons_self)

theorem Sound.pubrec (hstep : c.pubrec storage g packetId ok = some c') :
    Sound storage owner c' := by
  obtain ⟨hlisten, rfl⟩ := ite_some_none_eq_some.mp hstep
  refine hs.persistInflight hfenced
    ⟨listening_serving hlisten.1, rfl, rfl, rfl, .inl rfl, nofun⟩ rfl ?_ rfl
  obtain ⟨hlane, hbatch, hheld, hinfl⟩ := forall_messages.mp (hs.own g).messages
  refine forall_messages.mpr ⟨hlane, hbatch, hheld, fun _ hsent => ?_⟩
  obtain ⟨before, hpre, rfl⟩ := mem_map.mp hsent
  rw [← hinfl before hpre]
  split <;> rfl

theorem Sound.publish (hstep : c.publish storage g packetId ok = some c') :
    Sound storage owner c' := by
  obtain ⟨hlisten, rfl⟩ := ite_some_none_eq_some.mp hstep
  exact hs.persistInflight hfenced ⟨listening_serving hlisten, rfl, rfl, rfl, .inl rfl, nofun⟩
    rfl (hs.own g).messages rfl

end

theorem Client.sessionUser_of_free (hslot : c.slot = none) : c.sessionUser owner = owner := by
  rw [sessionUser, hslot]

theorem updateSession_eq_some {stored : Option StoredSession}
    {update : StoredSession → StoredSession} {session : StoredSession}
    (h : updateSession stored g update = some session) :
    ∃ before, stored = some before ∧
      (session = before ∨ (before.generation = g ∧ session = update before)) := by
  obtain ⟨before, hpre, rfl⟩ := map_eq_some_iff.mp h
  refine ⟨before, hpre, ?_⟩
  split
  · rename_i hgen
    exact .inr ⟨hgen, rfl⟩
  · exact .inl rfl

@[simp]
theorem updateSession_none (g : Nat) (update : StoredSession → StoredSession) :
    updateSession none g update = none := rfl

/-- A change of the subscriptions that adds only subscriptions of the connection's user. -/
theorem Sound.changeSubscriptions {change : List Subscription → List Subscription}
    (hs : Sound storage owner c) (hchange : ∀ subscriptions,
      (∀ subscription ∈ subscriptions, subscription.user = (c g).user) →
      ∀ subscription ∈ change subscriptions, subscription.user = (c g).user)
    (hstep : c.changeSubscriptions g ok change = some c') : Sound storage owner c' := by
  obtain ⟨hrdy, hstep⟩ := ite_none_right_eq_some.mp hstep
  have hserv := listening_serving hrdy.1
  have hfree : c.sessionUser owner = owner := sessionUser_of_free hrdy.2
  split at hstep
  · rename_i hreg
    have huser := (hs.registered g hreg).2
    split at hstep
    · cases hstep
      refine hs.loop rfl ⟨hserv, rfl, rfl, rfl, .inl rfl, nofun⟩ rfl (hs.own g).messages
        ⟨?_, hs.shared.queue, hs.shared.records, ?_, ?_, ?_⟩ (fun _ hr => .inl hr) (.inl rfl)
        rfl rfl rfl
      · have hroutes := hchange c.routes (by simpa [huser] using hs.shared.routes)
        simpa [huser] using hroutes
      · intro session hsess
        obtain ⟨before, hpre, rfl | ⟨-, rfl⟩⟩ := updateSession_eq_some hsess
        · exact hs.shared.session _ hpre
        · exact hs.shared.session before hpre
      · intro session hsess
        obtain ⟨before, hpre, rfl | ⟨-, rfl⟩⟩ := updateSession_eq_some hsess
        · exact hs.shared.subscriptions _ hpre
        · have hbeforeUser : before.user = (c g).user := by
            rw [hs.shared.session before hpre, hfree, huser]
          have hnew := hchange before.subscriptions (by
            rw [← hbeforeUser]
            exact hs.shared.subscriptions before hpre)
          intro subscription hsub
          rw [hnew subscription hsub]
          exact hbeforeUser.symm
      · intro hnone
        obtain ⟨hemp, hnil⟩ := hs.shared.unstored hnone
        refine ⟨hemp, ?_⟩
        show updateSession c.stored g _ = none
        rw [hnil, updateSession_none]
    · cases hstep
      refine hs.loop rfl ⟨hserv, rfl, rfl, rfl, .inl rfl, nofun⟩ rfl (hs.own g).messages
        ⟨?_, hs.shared.queue, hs.shared.records, hs.shared.session, hs.shared.subscriptions,
          hs.shared.unstored⟩ (fun _ hr => .inl hr) (.inl rfl) rfl rfl rfl
      -- the stored subscriptions are put back: those of the owner while no claim is under way
      show ∀ subscription ∈ c.stored.elim [] (·.subscriptions), subscription.user = owner
      cases hsto : c.stored with
      | none => simp
      | some session =>
        intro subscription hsub
        rw [hs.shared.subscriptions session hsto subscription hsub,
          hs.shared.session session hsto, hfree]
  · cases hstep
    exact hs.move ⟨hserv, rfl, rfl, rfl, .inl rfl, nofun⟩ rfl (hs.own g).messages

theorem Sound.subscribe {topicFilter : String} (hs : Sound storage owner c)
    (hstep : c.subscribe g topicFilter ok = some c') : Sound storage owner c' := by
  refine hs.changeSubscriptions ?_ hstep
  intro _ hsubs subscription hmem
  rcases mem_append.mp hmem with hold | hnew
  · exact hsubs subscription (mem_of_mem_filter hold)
  · rw [mem_singleton.mp hnew]

theorem Sound.unsubscribe {topicFilter : String} {ok : Bool} (hs : Sound storage owner c)
    (hstep : c.unsubscribe g topicFilter ok = some c') : Sound storage owner c' := by
  refine hs.changeSubscriptions ?_ hstep
  intro _ hsubs subscription hmem
  exact hsubs subscription (mem_of_mem_filter hmem)

theorem Shared.with_session {update : StoredSession → StoredSession}
    (hs : Shared storage owner sessionUser c) (hsto : c'.stored = updateSession c.stored g update)
    (hrest : c'.routes = c.routes ∧ c'.queue = c.queue ∧ c'.records = c.records)
    (hupd : ∀ session, (update session).user = session.user ∧
      (update session).subscriptions = session.subscriptions) :
    Shared storage owner sessionUser c' := by
  obtain ⟨hroutes, hqueue, hrecs⟩ := hrest
  refine ⟨hroutes ▸ hs.routes, hqueue ▸ hs.queue, hrecs ▸ hs.records, ?_, ?_, ?_⟩
  · intro session hsess
    rw [hsto] at hsess
    obtain ⟨before, hpre, rfl | ⟨-, rfl⟩⟩ := updateSession_eq_some hsess
    · exact hs.session _ hpre
    · rw [(hupd before).1]
      exact hs.session _ hpre
  · intro session hsess
    rw [hsto] at hsess
    obtain ⟨before, hpre, rfl | ⟨-, rfl⟩⟩ := updateSession_eq_some hsess
    · exact hs.subscriptions _ hpre
    · rw [(hupd before).1, (hupd before).2]
      exact hs.subscriptions _ hpre
  · intro hnone
    obtain ⟨hemp, hnil⟩ := hs.unstored hnone
    rw [hrecs, hsto, hnil]
    exact ⟨hemp, rfl⟩

theorem Sound.close {drops : Bool} (hs : Sound storage owner c)
    (hstep : c.close g drops = some c') : Sound storage owner c' := by
  obtain ⟨hlisten, rfl⟩ := ite_some_none_eq_some.mp hstep
  exact hs.loop rfl ⟨listening_serving hlisten, rfl, rfl, rfl, .inl rfl, nofun⟩ rfl
    (hs.own g).messages
    (hs.shared.with_session rfl ⟨rfl, rfl, rfl⟩ (fun _ => ⟨rfl, rfl⟩))
    (fun _ hr => .inl hr) (.inl rfl) rfl rfl rfl

theorem Sound.takenOver (hs : Sound storage owner c) (hstep : c.takenOver g = some c') :
    Sound storage owner c' := by
  obtain ⟨hrdy, rfl⟩ := ite_some_none_eq_some.mp hstep
  exact hs.move ⟨listening_serving hrdy.1, rfl, rfl, rfl, .inl rfl, nofun⟩ rfl (hs.own g).messages

theorem Sound.handBack (hs : Sound storage owner c)
    (hstep : c.handBack g ok = some c') : Sound storage owner c' := by
  obtain ⟨hlane, hbatch, hheld, hinfl⟩ := forall_messages.mp (hs.own g).messages
  unfold Client.handBack at hstep
  dsimp only at hstep
  split at hstep
  · rename_i exit hstg
    have hserv : (c g).stage.serving := by simp [hstg, serving]
    have hkept : ∀ message ∈ ({ c g with
        stage := .handedBack exit
        lane := []
        held := []
        outboundInflight := [] } : Handler).messages,
        message.user = (c g).user :=
      forall_messages.mpr ⟨nofun, hbatch, nofun, nofun⟩
    split at hstep
    · cases hstep
      exact hs.loop rfl ⟨hserv, rfl, rfl, rfl, .inl rfl, nofun⟩ rfl hkept
        (hs.shared.fewer_records rfl hs.shared.queue (fun _ hr => mem_logged_removeInflight hr) rfl)
        (fun _ hr => .inl (mem_logged_removeInflight hr)) (.inl rfl) rfl rfl rfl
    · cases hstep
      refine hs.loop rfl ⟨hserv, rfl, rfl, rfl, .inl rfl, nofun⟩ rfl hkept
        (hs.shared.fewer_records rfl (hs.requeue hserv ?_)
          (fun _ hr => mem_logged_removeInflight hr) rfl)
        (fun _ hr => .inl (mem_logged_removeInflight hr)) (.inl (by simp)) rfl rfl rfl
      intro message hm
      rcases mem_append.mp hm with hfirst | hlast
      · rcases mem_append.mp hfirst with hunack | hmem
        · obtain ⟨sent, hsent, rfl⟩ := mem_map.mp hunack
          exact hinfl sent (mem_of_mem_filter hsent)
        · exact hheld message hmem
      · exact hlane message hlast
  · cases hstep

theorem Client.handlers_setHandler (c : Client) (g : Nat) (h : Handler) :
    (c.setHandler g h).handlers = update c.handlers g h :=
  rfl

@[simp]
theorem Client.setHandler_self (c : Client) (g : Nat) (h : Handler) :
    (c.setHandler g h).handlers g = h :=
  update_self ..

theorem Sound.endHandOff (hs : Sound storage owner c) (hstep : c.endHandOff g = some c') :
    Sound storage owner c' := by
  obtain ⟨hstg, hstep⟩ := ite_none_right_eq_some.mp hstep
  have hserv : (c g).stage.serving := by simp [hstg, serving]
  unfold answer at hstep
  dsimp only at hstep
  split at hstep
  · cases hstep
    refine hs.loop (update_idem ..)
      ⟨hserv, by simp, by simp, by simp, .inl rfl, nofun⟩ rfl ?_
      (hs.shared.fewer_records rfl hs.shared.queue (fun _ hr => hr) rfl)
      (fun _ hr => .inl hr) (.inl rfl) rfl rfl rfl
    simpa [messages] using (hs.own g).messages
  · cases hstep
    exact hs.move ⟨hserv, rfl, rfl, rfl, .inl rfl, nofun⟩ rfl (hs.own g).messages

theorem Stage.serving_of_leavingBy (h : stage.leavingBy = some exit) : stage.serving := by
  unfold leavingBy at h
  split at h <;> first | rfl | cases h

section

variable (hs : Sound storage owner c)
include hs

/-- While the slot is free no connection is in a stage that holds it. -/
theorem Sound.holdsSlot_of_free (hslot : c.slot = none) (k : Nat) :
    (c k).stage.holdsSlot = false := by
  cases hhold : (c k).stage.holdsSlot with
  | false => rfl
  | true =>
    rw [hs.slot k hhold] at hslot
    cases hslot

/-- The slot has one holder. -/
theorem Sound.holdsSlot_unique (hhold : (c g).stage.holdsSlot) {k : Nat}
    (hk : k ≠ g) : (c k).stage.holdsSlot = false := by
  cases hoth : (c k).stage.holdsSlot with
  | false => rfl
  | true => exact (hk (some.inj ((hs.slot k hoth).symm.trans (hs.slot g hhold)))).elim

/-- The connection takes the free slot. -/
theorem Sound.lock (hhs : c'.handlers = update c.handlers g h')
    (hfree : c.slot = none) (hslot : c'.slot = some g) (hserv : (c g).stage.serving)
    (hh' : h' = { c g with stage := .persisting exit owned })
    (hroutes : ∀ subscription ∈ c'.routes, subscription ∈ c.routes)
    (hreg : ∀ k, c'.registered = some k → c.registered = some k)
    (hrest : c'.queue = c.queue ∧ c'.records = c.records ∧ c'.stored = c.stored ∧
      c'.routers = c.routers) : Sound storage owner c' := by
  obtain ⟨hqueue, hrecs, hsto, hrtrs⟩ := hrest
  subst hh'
  refine hs.serve hhs ⟨hserv, rfl, rfl, rfl, .inl rfl, nofun⟩ (hs.own g).messages
    ⟨?_, hqueue ▸ hs.shared.queue, hrecs ▸ hs.shared.records, hsto ▸ hs.shared.session,
      hsto ▸ hs.shared.subscriptions, ?_⟩ ?_ (.inl (by rw [hqueue])) ?_ ?_ hreg hrtrs
  · exact fun subscription hmem => hs.shared.routes subscription (hroutes subscription hmem)
  · rw [hrecs, hsto]
    exact hs.shared.unstored
  · rw [hrecs]
    exact fun _ hr => .inl hr
  · refine forall_update hhs (fun _ => hslot) fun k _ hhold => ?_
    rw [hs.holdsSlot_of_free hfree k] at hhold
    cases hhold
  · rw [sessionUser_of_free hfree, sessionUser, hslot]
    simp [hhs, Stage.claimStored]

theorem Sound.release (hstep : c.release g = some c') : Sound storage owner c' := by
  unfold Client.release at hstep
  dsimp only at hstep
  split at hstep
  · rename_i hleaving
    have hserv := serving_of_leavingBy hleaving
    obtain ⟨hfree, hstep⟩ := ite_none_right_eq_some.mp hstep
    split at hstep
    · cases hstep
      refine hs.lock rfl hfree rfl hserv rfl ?_ nofun ⟨rfl, rfl, rfl, rfl⟩
      dsimp only
      split
      · exact fun _ hmem => hmem
      · nofun
    · cases hstep
      exact hs.lock rfl hfree rfl hserv rfl (fun _ hmem => hmem) (fun _ hk => hk)
        ⟨rfl, rfl, rfl, rfl⟩
  · cases hstep

/-- The connection gives the slot back. -/
theorem Sound.unlock (hhs : c'.handlers = update c.handlers g h')
    (hstg : (c g).stage = .persisting exit owned)
    (hh' : h' = { c g with stage := .released exit owned }) (hslot : c'.slot = none)
    (hshr : Shared storage owner owner c') (hrecs : ∀ record ∈ c'.records, record ∈ c.records)
    (hepoch : c'.queue.epoch = c.queue.epoch ∨ c.queue.epoch < c'.queue.epoch)
    (hreg : c'.registered = c.registered) (hrtrs : c'.routers = c.routers) :
    Sound storage owner c' := by
  have hhold : (c g).stage.holdsSlot := by simp [hstg, holdsSlot]
  have hsess : c.sessionUser owner = owner := by
    rw [sessionUser, hs.slot g hhold]
    simp [hstg, claimStored]
  subst hh'
  refine hs.serve hhs ⟨by simp [hstg, serving], rfl, rfl, rfl, .inl rfl, nofun⟩
    (hs.own g).messages (hsess.symm ▸ hshr) (fun r hr => .inl (hrecs r hr)) hepoch ?_ ?_
    (by simp [hreg]) hrtrs
  · refine forall_update hhs nofun fun k hk => ?_
    rw [hs.holdsSlot_unique hhold hk]
    nofun
  · rw [sessionUser_of_free hslot, hsess]

/-- The stored session and the queue as a connection that persists its end finds them. -/
theorem Sound.shared_of_persisting
    (hstg : (c g).stage = .persisting exit owned) : Shared storage owner owner c := by
  have hsess : c.sessionUser owner = owner := by
    rw [sessionUser, hs.slot g (by simp [hstg, holdsSlot])]
    simp [hstg, claimStored]
  have hshr := hs.shared
  rwa [hsess] at hshr

theorem Sound.persist {removed cleared : Bool}
    (hstep : c.persist storage g removed cleared = some c') : Sound storage owner c' := by
  unfold Client.persist at hstep
  dsimp only at hstep
  split at hstep
  · rename_i exit owned hstg
    have hshr := hs.shared_of_persisting hstg
    have hsame : Sound storage owner
        { c.setHandler g { c g with stage := .released exit owned } with slot := none } :=
      hs.unlock rfl hstg rfl rfl
        (hshr.fewer_records rfl hshr.queue (fun _ hr => hr) rfl)
        (fun _ hr => hr) (.inl rfl) rfl rfl
    split at hstep
    · split at hstep
      · cases hstep
        exact hs.unlock rfl hstg rfl rfl
          (hshr.with_session rfl ⟨rfl, rfl, rfl⟩ (fun _ => ⟨rfl, rfl⟩)) (fun _ hr => hr)
          (.inl rfl) rfl rfl
      · split at hstep
        · cases hstep
          have hkept : ∀ record ∈ logged cleared c.records [], record ∈ c.records := by
            intro record hr
            exact (mem_logged hr).elim id (fun h => (not_mem_nil h).elim)
          refine hs.unlock rfl hstg rfl rfl
            ⟨hshr.routes, nofun, ?_, nofun, nofun, ?_⟩ hkept (.inr (Nat.lt_succ_self _)) rfl rfl
          · exact fun record hr => hshr.records record (hkept record hr)
          · intro hnone
            refine ⟨eq_nil_iff_forall_not_mem.mpr ?_, rfl⟩
            intro record hr
            exact not_mem_nil ((hshr.unstored hnone).1 ▸ hkept record hr)
        · cases hstep
          exact hsame
    · cases hstep
      exact hsame
  · cases hstep

theorem Sound.finish (hstep : c.finish g = some c') : Sound storage owner c' := by
  unfold Client.finish at hstep
  dsimp only at hstep
  split at hstep
  · rename_i hstg
    have hserv : (c g).stage.serving := by simp [hstg, serving]
    have hmsgs : ∀ message ∈ ({ c g with
        stage := .gone
        lane := [] } : Handler).messages, message.user = (c g).user :=
      forall_messages.mpr ⟨nofun, (forall_messages.mp (hs.own g).messages).2⟩
    have hgone : (c g).Goes { c g with
        stage := .gone
        lane := [] } := ⟨hserv, rfl, rfl, rfl, .inr rfl, nofun⟩
    split at hstep
    · split at hstep
      · cases hstep
        exact hs.move hgone rfl hmsgs
      · cases hstep
        exact hs.loop rfl hgone rfl hmsgs
          (hs.shared.fewer_records rfl nofun (fun _ hr => hr) rfl) (fun _ hr => .inl hr)
          (.inr (Nat.lt_succ_self _)) rfl rfl rfl
    · cases hstep
      unfold answer
      dsimp only
      split
      · refine hs.loop (update_idem ..)
          ⟨hserv, by simp, by simp, by simp, .inr (by simp), by simp⟩ (by simp [holdsSlot]) ?_
          (hs.shared.fewer_records rfl hs.shared.queue (fun _ hr => hr) rfl)
          (fun _ hr => .inl hr) (.inl rfl) rfl rfl rfl
        simpa [messages] using hmsgs
      · exact hs.move hgone rfl hmsgs
  · cases hstep

/-! ## Steps of the sweep and of the router -/

theorem Sound.sweep {expired : Bool} (hstep : c.sweep expired = some c') :
    Sound storage owner c' := by
  unfold Client.sweep at hstep
  dsimp only at hstep
  obtain ⟨-, hstep⟩ := ite_none_right_eq_some.mp hstep
  split at hstep
  · cases hstep
    refine ⟨⟨hs.shared.routes, hs.shared.queue, hs.shared.records, ?_, ?_, ?_⟩, hs.own, hs.slot,
      hs.resumes, hs.installs, hs.cleared, hs.registered, hs.epoch, ?_⟩
    · exact fun session h => hs.shared.session session (filter_eq_some_iff.mp h).1
    · exact fun session h => hs.shared.subscriptions session (filter_eq_some_iff.mp h).1
    · intro hnone
      obtain ⟨hemp, hnil⟩ := hs.shared.unstored hnone
      refine ⟨hemp, ?_⟩
      show c.stored.filter _ = none
      rw [hnil]
      rfl
    · exact fun task planned h => (hs.planned task planned h).mono (.inl rfl)
        (fun _ hstg => ⟨hstg, rfl⟩)
  · cases hstep
    refine ⟨⟨nofun, nofun, hs.shared.records, nofun, nofun, ?_⟩, hs.own, hs.slot, hs.resumes,
      hs.installs, hs.cleared, hs.registered, ?_, ?_⟩
    · exact fun hnone => ⟨(hs.shared.unstored hnone).1, rfl⟩
    · intro k hserv
      have hle := (hs.epoch k hserv).1
      refine ⟨Nat.le_succ_of_le hle, fun heq => ?_⟩
      have heq : (c k).epoch = c.queue.epoch + 1 := heq
      omega
    · exact fun task planned h => (hs.planned task planned h).mono
        (.inr (Nat.lt_succ_self _)) (fun _ hstg => ⟨hstg, rfl⟩)

/-- A router task has planned a delivery, or has made it. -/
theorem Sound.setRouter {task : Nat} {plan : Option Planned}
    (hplan : ∀ planned, plan = some planned → planned.Fits owner c) :
    Sound storage owner { c with routers := update c.routers task plan } := by
  refine ⟨⟨hs.shared.routes, hs.shared.queue, hs.shared.records, hs.shared.session,
    hs.shared.subscriptions, hs.shared.unstored⟩, hs.own, hs.slot, hs.resumes, hs.installs,
    hs.cleared, hs.registered, hs.epoch, ?_⟩
  show ∀ other planned, update c.routers task plan other = some planned → _
  refine forall_update rfl (fun planned hplanned => ?_) fun other _ planned hplanned => ?_
  · exact (hplan planned hplanned).mono (.inl rfl) fun _ hstg => ⟨hstg, rfl⟩
  · exact (hs.planned other planned hplanned).mono (.inl rfl) fun _ hstg => ⟨hstg, rfl⟩

theorem Sound.plan {task index : Nat}
    (hstep : c.plan task index = some c') : Sound storage owner c' := by
  obtain ⟨-, hstep⟩ := ite_none_right_eq_some.mp hstep
  obtain ⟨subscription, hsub, rfl⟩ := map_eq_some_iff.mp hstep
  have hroute := hs.shared.routes subscription (mem_of_getElem? hsub)
  refine hs.setRouter fun _ hplan => ?_
  -- the subscription, the connection and the epoch are all the owner's
  cases hplan
  refine ⟨Nat.le_refl _, fun _ => hroute, ?_⟩
  intro k hk
  obtain ⟨hstg, huser⟩ := hs.registered k hk
  exact ⟨hstg, hroute.trans huser.symm⟩

end

theorem Stage.serving_of_laneOpen (hopen : stage.laneOpen)
    (hreg : stage.unregistered = false) : stage.serving := by
  cases stage <;> simp_all [laneOpen, unregistered, serving]

theorem Sound.pushLane (hs : Sound storage owner c) (hserv : (c g).stage.serving)
    (hmsg : message.user = (c g).user) :
    Sound storage owner
      (c.setHandler g { c g with lane := (c g).lane ++ [message] }) := by
  have hstg : ∀ k, ((c.setHandler g
      { c g with lane := (c g).lane ++ [message] }).handlers k).stage =
        (c k).stage := by
    exact forall_update (handlers_setHandler c g _) rfl fun _ _ => rfl
  refine hs.serve rfl ⟨hserv, rfl, rfl, rfl, .inl hserv, id⟩ ?_
    (hs.shared.fewer_records rfl hs.shared.queue (fun _ hr => hr) rfl) (fun _ hr => .inl hr)
    (.inl rfl) (fun k => (hstg k).symm ▸ hs.slot k) ?_ (fun _ hk => hk) rfl
  · obtain ⟨hlane, hrest⟩ := forall_messages.mp (hs.own g).messages
    refine forall_messages.mpr ⟨fun m hm => ?_, hrest⟩
    rcases mem_append.mp hm with hold | hnew
    · exact hlane m hold
    · rw [mem_singleton.mp hnew]
      exact hmsg
  · unfold sessionUser
    show (match c.slot with | some k => _ | none => _) = _
    cases c.slot with
    | none => rfl
    | some k =>
      dsimp only
      rw [hstg k]
      by_cases hk : k = g
      · subst hk
        simp
      · simp [setHandler, hk]

theorem Sound.deliver {task : Nat} {toLane : Bool} (hs : Sound storage owner c)
    (hstep : c.deliver task toLane = some c') : Sound storage owner c' := by
  unfold Client.deliver at hstep
  obtain ⟨planned, hplan, hstep⟩ := bind_eq_some_iff.mp hstep
  have hfits := hs.planned task planned hplan
  have hdlvd : Sound storage owner { c with routers := update c.routers task none } :=
    hs.setRouter nofun
  dsimp only at hstep
  split at hstep
  · split at hstep
    · rename_i k htgt
      obtain ⟨hreg, huser⟩ := hfits.target k htgt
      obtain ⟨hopen, rfl⟩ := ite_some_none_eq_some.mp hstep
      exact hdlvd.pushLane (serving_of_laneOpen hopen hreg) huser
    · cases hstep
  · cases hstep
    refine ⟨hdlvd.shared.fewer_records rfl ?_ (fun _ hr => hr) rfl, hs.own, hs.slot,
      hs.resumes, hs.installs, hs.cleared, hs.registered, ?_, ?_⟩
    · intro message hm
      rcases mem_pushInEpoch hm with hold | ⟨hepoch, rfl⟩
      · exact hs.shared.queue message hold
      · exact hfits.current hepoch.symm
    · simpa using hs.epoch
    · exact fun other p hp => (hdlvd.planned other p hp).mono (.inl (by simp))
        (fun _ hstg => ⟨hstg, rfl⟩)

/-! ## Steps of a claim -/

/-- A step of a claim before the registration, while no other connection holds the slot. -/
theorem Sound.claim (hs : Sound storage owner c) (hhs : c'.handlers = update c.handlers g h')
    (hstg : (c g).stage.unregistered) (hstg' : h'.stage.serving = false)
    (hown : h'.Own) (hsess : c'.sessionUser owner = sessionUser)
    (hshr : Shared storage owner sessionUser c') (hoth : ∀ k, k ≠ g → (c k).stage.holdsSlot = false)
    (hslot : h'.stage.holdsSlot → c'.slot = some g)
    (hresumes : h'.stage.claims → h'.resume → h'.user = owner)
    (hclr : h'.stage = .cleared → ∀ record ∈ c'.records, record.user = h'.user)
    (hrest : c'.queue = c.queue ∧ c'.registered = c.registered ∧ c'.routers = c.routers) :
    Sound storage owner c' := by
  obtain ⟨hqueue, hreg, hrtrs⟩ := hrest
  -- what is registered is not the claiming connection
  have hother : ∀ k, (c k).stage.unregistered = false →
      c'.handlers k = c k := by
    intro k hk
    rw [hhs, update_of_ne]
    rintro rfl
    rw [hstg] at hk
    cases hk
  refine ⟨hsess ▸ hshr, forall_update hhs hown fun k _ => hs.own k, ?_,
    forall_update hhs hresumes fun k _ => hs.resumes k, ?_, ?_, ?_, ?_, ?_⟩
  · refine forall_update hhs hslot fun k hk hhold => ?_
    rw [hoth k hk] at hhold
    cases hhold
  · refine forall_update hhs (fun hinstalls => ?_) fun k _ => hs.installs k
    rw [hinstalls] at hstg'
    cases hstg'
  · refine forall_update hhs hclr fun k hk hk' => ?_
    have hhold := hoth k hk
    rw [hk'] at hhold
    cases hhold
  · intro k hk
    rw [hreg] at hk
    obtain ⟨hun, huser⟩ := hs.registered k hk
    rw [hother k hun]
    exact ⟨hun, huser⟩
  · rw [hqueue]
    refine forall_update hhs (fun hserv => ?_) fun k _ => hs.epoch k
    rw [hstg'] at hserv
    cases hserv
  · intro task planned hplan
    rw [hrtrs] at hplan
    refine (hs.planned task planned hplan).mono (.inl (by rw [hqueue])) ?_
    intro k hk
    rw [hother k hk]
    exact ⟨hk, rfl⟩

/-- A session that the user may resume is theirs. -/
theorem Shared.resumable {resumable : Option StoredSession} (hshr : Shared storage owner owner c)
    (hfound : ∀ session, resumable = some session → c.stored = some session)
    (hallowed : ¬resumable.any (fun session => session.user ≠ user)) :
    (resumable.isSome → user = owner) ∧
      ∀ subscription ∈ resumable.elim [] (·.subscriptions), subscription.user = user := by
  cases resumable with
  | none => exact ⟨nofun, nofun⟩
  | some session =>
    have huser : session.user = user := by simpa using hallowed
    have hsto := hfound session rfl
    refine ⟨fun _ => huser.symm.trans (hshr.session session hsto), ?_⟩
    rw [← huser]
    exact hshr.subscriptions session hsto

theorem Sound.connect {cleanStart preserve expired : Bool} {authorized : String → Bool}
    (hs : Sound storage owner c)
    (hstep : c.connect storage g user cleanStart preserve expired authorized = some c') :
    Sound storage owner c' := by
  obtain ⟨hrdy, hstep⟩ := ite_none_right_eq_some.mp hstep
  obtain ⟨hfree, hidle⟩ := hrdy
  have hoth : ∀ k, k ≠ g → (c k).stage.holdsSlot = false := fun k _ => hs.holdsSlot_of_free hfree k
  have hunreg : (c g).stage.unregistered := by
    simp [hidle, unregistered]
  have hshr := hs.shared
  rw [sessionUser_of_free hfree] at hshr
  split at hstep
  · cases hstep
    exact hs.claim rfl hunreg rfl ⟨nofun, nofun⟩ (sessionUser_of_free hfree)
      (hshr.fewer_records rfl hshr.queue (fun _ hr => hr) rfl) hoth nofun nofun nofun
      ⟨rfl, rfl, rfl⟩
  · rename_i hallowed
    obtain ⟨huser, hsubs⟩ := hshr.resumable (fun _ h => (filter_eq_some_iff.mp h).1) hallowed
    cases hstep
    refine hs.claim rfl hunreg rfl ⟨nofun, ?_⟩ ?_
      (hshr.fewer_records rfl hshr.queue (fun _ hr => hr) rfl) hoth (fun _ => rfl)
      (fun _ => huser) nofun ⟨rfl, rfl, rfl⟩
    · exact fun subscription h => hsubs subscription (mem_of_mem_filter h)
    · simp [sessionUser, claimStored]

theorem Sound.storeClaim (hs : Sound storage owner c)
    (hstep : c.storeClaim storage g ok = some c') : Sound storage owner c' := by
  obtain ⟨hstg, hstep⟩ := ite_none_right_eq_some.mp hstep
  have hhold : (c g).stage.holdsSlot := by simp [hstg, holdsSlot]
  have hslot := hs.slot g hhold
  have hoth : ∀ k, k ≠ g → (c k).stage.holdsSlot = false := fun k hk => hs.holdsSlot_unique hhold hk
  have hunreg : (c g).stage.unregistered := by
    simp [hstg, unregistered]
  have hresumes := hs.resumes g (by simp [hstg, claims])
  have hsess : c.sessionUser owner = owner := by
    simp [sessionUser, hslot, hstg, claimStored]
  have hshr : Shared storage owner owner c := by
    have hshr := hs.shared
    rwa [hsess] at hshr
  split at hstep
  · rename_i hstore
    split at hstep
    · cases hstep
      refine hs.claim rfl hunreg rfl ⟨(hs.own g).messages, (hs.own g).subscriptions⟩
        (?_ : sessionUser _ owner = (c g).user)
        ⟨hshr.routes, hshr.queue, hshr.records, ?_, ?_, ?_⟩ hoth (fun _ => hslot)
        (fun _ => hresumes) nofun ⟨rfl, rfl, rfl⟩
      · simp [sessionUser, setHandler, hslot, claimStored]
      · intro session hsess
        cases hsess
        rfl
      · intro session hsess
        cases hsess
        exact (hs.own g).subscriptions
      · intro hnone
        rw [hstore] at hnone
        cases hnone
    · cases hstep
      exact hs.claim rfl hunreg rfl ⟨(hs.own g).messages, (hs.own g).subscriptions⟩
        (sessionUser_of_free rfl)
        (hshr.fewer_records rfl hshr.queue (fun _ hr => hr) rfl) hoth nofun nofun nofun
        ⟨rfl, rfl, rfl⟩
  · rename_i hstore
    have hnone : storage = false := by simpa using hstore
    obtain ⟨hemp, hnil⟩ := hshr.unstored hnone
    cases hstep
    refine hs.claim rfl hunreg rfl ⟨(hs.own g).messages, (hs.own g).subscriptions⟩
      rfl ⟨hshr.routes, hshr.queue, hshr.records, ?_, ?_, hshr.unstored⟩ hoth
      (fun _ => hslot) (fun _ => hresumes) nofun ⟨rfl, rfl, rfl⟩ <;>
    · intro session hsess
      cases hnil.symm.trans hsess

theorem Sound.discardInflight (hs : Sound storage owner c) (hok : storage → ok)
    (hstep : c.discardInflight g ok = some c') : Sound storage owner c' := by
  obtain ⟨hrdy, hstep⟩ := ite_none_right_eq_some.mp hstep
  obtain ⟨hstg, -⟩ := hrdy
  have hhold : (c g).stage.holdsSlot := by simp [hstg, holdsSlot]
  have hslot := hs.slot g hhold
  have hemp : logged ok c.records [] = [] := by
    cases hstore : storage with
    | false =>
      rw [(hs.shared.unstored hstore).1]
      simp [logged]
    | true => simp [logged, hok hstore]
  have hnone : ∀ record, record ∉ logged ok c.records [] := by simp [hemp]
  cases hstep
  refine hs.claim rfl (by simp [hstg, unregistered]) rfl
    ⟨(hs.own g).messages, (hs.own g).subscriptions⟩ ?_
    (hs.shared.fewer_records rfl hs.shared.queue (fun r hr => (hnone r hr).elim) rfl)
    (fun k hk => hs.holdsSlot_unique hhold hk) (fun _ => hslot)
    (fun _ => hs.resumes g (by simp [hstg, claims]))
    (fun _ r hr => (hnone r hr).elim) ⟨rfl, rfl, rfl⟩
  simp [sessionUser, setHandler, hslot, hstg, claimStored]

theorem Client.register_other {k : Nat} (hstep : c.register g = some c') (hk : k ≠ g) :
    ∃ notice, c'.handlers k = { c k with notice := notice } := by
  obtain ⟨-, rfl⟩ := ite_some_none_eq_some.mp hstep
  dsimp only
  rw [update_of_ne hk]
  cases c.registered with
  | none => exact ⟨_, rfl⟩
  | some old =>
    dsimp only
    by_cases hkold : k = old
    · rw [hkold, update_self]
      exact ⟨_, rfl⟩
    · rw [update_of_ne hkold]
      exact ⟨_, rfl⟩

theorem Client.register_eq (hstep : c.register g = some c') :
    ((c g).stage = .cleared ∨
      ((c g).stage = .stored ∧ (c g).resume)) ∧
    c'.registered = some g ∧ c'.slot = c.slot ∧ c'.stored = c.stored ∧ c'.records = c.records ∧
    c'.routers = c.routers ∧
    (∃ predecessor, c'.handlers g =
      { c g with
        stage := .registered
        epoch := c'.queue.epoch
        predecessor := predecessor }) ∧
    ((c g).resume ∧ c'.routes = c.routes ∧
        c'.queue.messages = c.queue.messages ∧ c'.queue.epoch = c.queue.epoch ∨
      (c g).resume = false ∧ c'.routes = [] ∧ c'.queue.messages = [] ∧
        c'.queue.epoch = c.queue.epoch + 1) := by
  obtain ⟨hrdy, rfl⟩ := ite_some_none_eq_some.mp hstep
  refine ⟨hrdy, rfl, rfl, rfl, rfl, rfl, ⟨_, update_self ..⟩, ?_⟩
  cases (c g).resume with
  | true => exact .inl ⟨rfl, rfl, rfl, rfl⟩
  | false => exact .inr ⟨rfl, rfl, rfl, rfl⟩

/-- After its registration the session is that of the connection's user: a resumed one
already was, and a fresh one starts with nothing. -/
theorem Sound.register (hs : Sound storage owner c) (hstep : c.register g = some c') :
    Sound storage (c g).user c' := by
  have hoth : ∀ k, k ≠ g → ∃ notice, c'.handlers k = { c k with notice := notice } :=
    fun k hk => register_other hstep hk
  obtain ⟨hrdy, hreg, hslot, hsto, hrecs, hrtrs, ⟨_, hself⟩, hstart⟩ := register_eq hstep
  obtain ⟨hhold, hclmd, hclaims⟩ : (c g).stage.holdsSlot ∧
      (c g).stage.claimStored ∧ (c g).stage.claims := by
    rcases hrdy with h | ⟨h, -⟩ <;> simp [h, holdsSlot, claimStored, claims]
  have hsess : c.sessionUser owner = (c g).user := by
    simp [sessionUser, hs.slot g hhold, hclmd]
  have hsess' : c'.sessionUser (c g).user = (c g).user := by
    simp [sessionUser, hslot, hs.slot g hhold, hself, claimStored]
  have hresumed := hs.resumes g hclaims
  -- the stages of the others are none that hold the slot
  have hfree : ∀ k, k ≠ g → (c' k).stage.holdsSlot = false := by
    intro k hk
    obtain ⟨notice, hk'⟩ := hoth k hk
    rw [hk']
    exact hs.holdsSlot_unique hhold hk
  have hepoch : c'.queue.epoch = c.queue.epoch ∧ owner = (c g).user ∨
      c.queue.epoch < c'.queue.epoch := by
    rcases hstart with ⟨hresume, -, -, heq⟩ | ⟨-, -, -, heq⟩
    · exact .inl ⟨heq, (hresumed hresume).symm⟩
    · exact .inr (by omega)
  refine ⟨hsess'.symm ▸ ⟨?_, ?_, ?_, ?_, ?_, ?_⟩, ?_, ?_, ?_, ?_, ?_, ?_, ?_, ?_⟩
  · rcases hstart with ⟨hresume, hroutes, -, -⟩ | ⟨-, hroutes, -, -⟩
    · rw [hroutes, hresumed hresume]
      exact hs.shared.routes
    · rw [hroutes]
      nofun
  · rcases hstart with ⟨hresume, -, hqueue, -⟩ | ⟨-, -, hqueue, -⟩
    · rw [hqueue, hresumed hresume]
      exact hs.shared.queue
    · rw [hqueue]
      nofun
  · rw [hrecs]
    rcases hrdy with h | h
    · exact hs.cleared g h
    · rw [hresumed h.2]
      exact hs.shared.records
  · rw [hsto, ← hsess]
    exact hs.shared.session
  · rw [hsto]
    exact hs.shared.subscriptions
  · rw [hrecs, hsto]
    exact hs.shared.unstored
  · intro k
    by_cases hk : k = g
    · rw [hk, hself]
      exact ⟨(hs.own g).messages, (hs.own g).subscriptions⟩
    · obtain ⟨notice, hk'⟩ := hoth k hk
      rw [hk']
      exact ⟨(hs.own k).messages, (hs.own k).subscriptions⟩
  · intro k hk'
    by_cases hk : k = g
    · rw [hk, hslot]
      exact hs.slot g hhold
    · rw [hfree k hk] at hk'
      cases hk'
  · intro k hk'
    by_cases hk : k = g
    · rw [hk, hself] at hk'
      cases hk'
    · have hnot := hfree k hk
      cases hstg : (c' k).stage <;> simp_all [claims, holdsSlot]
  · intro k hk'
    by_cases hk : k = g
    · rw [hk, hself]
    · have hnot := hfree k hk
      rw [hk'] at hnot
      cases hnot
  · intro k hk'
    by_cases hk : k = g
    · rw [hk, hself] at hk'
      cases hk'
    · have hnot := hfree k hk
      rw [hk'] at hnot
      cases hnot
  · intro k hk
    rw [hreg] at hk
    cases hk
    rw [hself]
    exact ⟨rfl, rfl⟩
  · intro k hserv
    by_cases hk : k = g
    · rw [hk, hself]
      exact ⟨Nat.le_refl _, fun _ => rfl⟩
    · obtain ⟨notice, hk'⟩ := hoth k hk
      rw [hk'] at hserv ⊢
      obtain ⟨hle, heq⟩ := hs.epoch k hserv
      dsimp only at hle heq ⊢
      rcases hepoch with ⟨hsame, hown⟩ | hlater
      · exact ⟨by omega, fun h => (heq (by omega)).trans hown⟩
      · exact ⟨by omega, fun h => absurd h (by omega)⟩
  · intro task planned hplan
    rw [hrtrs] at hplan
    obtain ⟨hpast, hcur, htgt⟩ := hs.planned task planned hplan
    refine ⟨?_, ?_, ?_⟩
    · rcases hepoch with ⟨hsame, -⟩ | hlater <;> omega
    · rcases hepoch with ⟨hsame, hown⟩ | hlater
      · exact fun h => (hcur (by omega)).trans hown
      · exact fun h => absurd h (by omega)
    · intro k hk'
      obtain ⟨hstg, huser⟩ := htgt k hk'
      by_cases hk : k = g
      · subst hk
        rw [hself]
        exact ⟨rfl, huser⟩
      · obtain ⟨notice, hkept⟩ := hoth k hk
        rw [hkept]
        exact ⟨hstg, huser⟩

theorem Sound.install (hs : Sound storage owner c) (hstep : c.install g = some c') :
    Sound storage owner c' := by
  obtain ⟨hstg, hstep⟩ := ite_none_right_eq_some.mp hstep
  have hhold : (c g).stage.holdsSlot := by simp [hstg, holdsSlot]
  have hslot := hs.slot g hhold
  have hsess : c.sessionUser owner = owner := by
    simp [sessionUser, hslot, hstg, claimStored]
  have huser := hs.installs g hstg
  cases hstep
  refine hs.serve rfl ⟨by simp [hstg, serving], rfl, rfl, rfl, .inl rfl, nofun⟩
    (hs.own g).messages
    ⟨?_, hs.shared.queue, hs.shared.records, hs.shared.session, hs.shared.subscriptions,
      hs.shared.unstored⟩ (fun _ hr => .inl hr) (.inl rfl) ?_ ?_ (fun _ hk => hk) rfl
  · exact huser ▸ (hs.own g).subscriptions
  · refine forall_update (handlers_setHandler c g _) nofun fun k hk hhold' => ?_
    rw [hs.holdsSlot_unique hhold hk] at hhold'
    cases hhold'
  · rw [sessionUser_of_free rfl, hsess]

/-! ## Runs -/

theorem Client.fenced_store (h : (!storage || (c.sharesOwner g && c.sharesSession g))) :
    storage → c.sharesOwner g ∧ c.sharesSession g := by
  intro hstore
  simpa [hstore] using h

/-- Every fenced step keeps the invariant, for the user of the connection registered last. -/
theorem Sound.step {step : Step} (hs : Sound storage owner c)
    (hfenced : c.fenced storage step) (hstep : c.step storage step = some c') :
    ∃ owner', Sound storage owner' c' := by
  cases step with
  | connect => exact ⟨owner, hs.connect hstep⟩
  | storeClaim => exact ⟨owner, hs.storeClaim hstep⟩
  | discardInflight g ok =>
    refine ⟨owner, hs.discardInflight (fun hstore => ?_) hstep⟩
    simpa [Client.fenced, hstore] using hfenced
  | register g => exact ⟨_, hs.register hstep⟩
  | install => exact ⟨owner, hs.install hstep⟩
  | acknowledge => exact ⟨owner, hs.acknowledge hstep⟩
  | bind g _ ok =>
    refine ⟨owner, hs.bind (fun hresume => ?_) hstep⟩
    simpa [Client.fenced, hresume] using hfenced
  | turn => exact ⟨owner, hs.turn hstep⟩
  | drain => exact ⟨owner, hs.drain hfenced hstep⟩
  | sendNext => exact ⟨owner, hs.sendNext (Client.fenced_store hfenced) hstep⟩
  | cut => exact ⟨owner, hs.cut hstep⟩
  | receive => exact ⟨owner, hs.receive (fenced_store hfenced) hstep⟩
  | endBatch => exact ⟨owner, hs.endBatch hstep⟩
  | settle => exact ⟨owner, hs.settle hstep⟩
  | pubrec => exact ⟨owner, hs.pubrec (fenced_store hfenced) hstep⟩
  | publish => exact ⟨owner, hs.publish (fenced_store hfenced) hstep⟩
  | pubrel => exact ⟨owner, hs.pubrel hstep⟩
  | subscribe => exact ⟨owner, hs.subscribe hstep⟩
  | unsubscribe => exact ⟨owner, hs.unsubscribe hstep⟩
  | close => exact ⟨owner, hs.close hstep⟩
  | takenOver => exact ⟨owner, hs.takenOver hstep⟩
  | handBack => exact ⟨owner, hs.handBack hstep⟩
  | endHandOff => exact ⟨owner, hs.endHandOff hstep⟩
  | release => exact ⟨owner, hs.release hstep⟩
  | persist => exact ⟨owner, hs.persist hstep⟩
  | finish => exact ⟨owner, hs.finish hstep⟩
  | sweep => exact ⟨owner, hs.sweep hstep⟩
  | plan => exact ⟨owner, hs.plan hstep⟩
  | deliver => exact ⟨owner, hs.deliver hstep⟩

/-- The invariant along a run, for every client identifier. -/
theorem sound_of_reachable {s : State}
    (hrun : Reachable (act storage) (fun s a => fenced storage s a) .initial s)
    (clientId : String) : ∃ owner, Sound storage owner (s clientId) := by
  induction hrun generalizing clientId with
  | start => exact ⟨none, Sound.initial storage none⟩
  | @step s s' a run hfenced hact ih =>
    obtain ⟨_, hstep, rfl⟩ := map_eq_some_iff.mp hact
    obtain ⟨owner, hsound⟩ := ih a.clientId
    exact forall_update rfl (hsound.step hfenced hstep) (fun k _ => ih k) clientId

/-- The users of the messages a step hands to a connection: those it takes from the session
queue and those of the inflight records it loads. -/
def Client.obtained (c : Client) : Step → Option (Nat × List User)
  | .drain g count => some (g, (c.queue.messages.take count).map (·.user))
  | .bind g unwritten _ =>
    if (c.handlers g).resume then
      some (g, (unwritten.elim c.records c.records.take).map (·.user))
    else none
  | _ => none

/-- The users a step hands out are the connection's, in a state the invariant holds in. -/
theorem Sound.obtained_user {step : Step} {users : List User} (hs : Sound storage owner c)
    (hfenced : c.fenced storage step) (hobtained : c.obtained step = some (g, users)) :
    ∀ user ∈ users, user = (c g).user := by
  cases step with
  | drain k _ =>
    cases hobtained
    rw [hs.user_of_sharesOwner hfenced]
    intro user huser
    obtain ⟨message, hmsg, rfl⟩ := mem_map.mp huser
    exact hs.shared.queue message (mem_of_mem_take hmsg)
  | bind k unwritten _ =>
    simp only [obtained] at hobtained
    obtain ⟨hresume, hobtained⟩ := ite_none_right_eq_some.mp hobtained
    cases hobtained
    have hshares : c.sharesOwner g := by simpa [Client.fenced, hresume] using hfenced
    rw [hs.user_of_sharesOwner hshares]
    intro user huser
    obtain ⟨record, hrec, rfl⟩ := mem_map.mp huser
    cases unwritten with
    | none => exact hs.shared.records record hrec
    | some n => exact hs.shared.records record (mem_of_mem_take hrec)
  | _ => cases hobtained

/-- In every run whose steps are all fenced, what a connection takes from the session queue or
loads from the inflight records was queued or stored for a session of its user, and every
subscription of a registered connection was made under its user. -/
theorem session_state_keeps_user {s s' : State} {a : Action}
    (hrun : Reachable (act storage) (fun s a => fenced storage s a = true) .initial s)
    (hfenced : fenced storage s a = true) (hact : act storage s a = some s') :
    (∀ g users, (s a.clientId).obtained a.step = some (g, users) →
      ∀ user ∈ users, user = ((s a.clientId).handlers g).user) ∧
    ∀ clientId g, (s' clientId).registered = some g →
      ∀ subscription ∈ (s' clientId).routes,
        subscription.user = ((s' clientId).handlers g).user := by
  constructor
  · intro g users hobtained
    obtain ⟨owner, hsound⟩ := sound_of_reachable hrun a.clientId
    exact hsound.obtained_user hfenced hobtained
  · intro clientId g hregistered subscription hsubscription
    obtain ⟨owner, hsound⟩ := sound_of_reachable (hrun.step hfenced hact) clientId
    rw [hsound.shared.routes subscription hsubscription, (hsound.registered g hregistered).2]

/-- One connection of a user with a kept session that subscribes, is sent a message and an
inbound exactly-once exchange, and goes; the next connection of the same user resumes the
session. -/
def resumedByOwner : List Step :=
  [.connect 1 (some "alice") false true false fun _ => true, .storeClaim 1 true,
    .discardInflight 1 true, .register 1, .install 1, .acknowledge 1 true, .bind 1 none true,
    .turn 1, .subscribe 1 "a/b" true, .turn 1, .publish 1 7 true, .turn 1, .close 1 false,
    .handBack 1 true, .release 1, .persist 1 true true, .finish 1, .plan 0 0, .deliver 0 false,
    .connect 2 (some "alice") false true false fun _ => true, .storeClaim 2 true, .register 2,
    .install 2, .acknowledge 2 true]

theorem session_state_keeps_user_resumed :
    ∃ s t, Reachable (act true) (fun s a => fenced true s a = true) .initial s ∧
      act true s ⟨"client", .bind 2 none true⟩ = some t ∧
      (s "client").obtained (.bind 2 none true) = some (2, [some "alice"]) ∧
      (t "client").registered = some 2 ∧ (t "client").routes = [⟨"a/b", some "alice"⟩] ∧
      (∀ user ∈ [some "alice"], user = ((s "client").handlers 2).user) ∧
      ∀ subscription ∈ (t "client").routes,
        subscription.user = ((t "client").handlers 2).user := by
  have hrun := Reachable.start.follow_guarded (show follow
    (fun s a => if fenced true s a = true then act true s a else none) State.initial
    (resumedByOwner.map (⟨"client", ·⟩)) = some _ from rfl)
  obtain ⟨husers, hsubscriptions⟩ :=
    session_state_keeps_user (a := ⟨"client", .bind 2 none true⟩) hrun rfl rfl
  exact ⟨_, _, hrun, rfl, rfl, rfl, rfl, husers 2 _ rfl, hsubscriptions "client" 2 rfl⟩

/-- The session of `alice` is claimed with a clean start by `bob`.  When the claim has
discarded the inflight records, the connection of `alice`, which knows nothing of it yet,
stores one more.  The next connection of `bob` takes over before the first one has bound, so
that the records are not discarded again. -/
def recordOfDisplaced : List Step :=
  [.connect 1 (some "alice") false true false fun _ => true, .storeClaim 1 true,
    .discardInflight 1 true, .register 1, .install 1, .acknowledge 1 true, .bind 1 none true,
    .turn 1,
    .connect 2 (some "bob") true true false fun _ => true, .storeClaim 2 true,
    .discardInflight 2 true, .publish 1 7 true, .register 2, .install 2, .acknowledge 2 true,
    .turn 2,
    .connect 3 (some "bob") false true false fun _ => true, .storeClaim 3 true, .register 3,
    .install 3, .acknowledge 3 true, .turn 3,
    .turn 1, .takenOver 1, .handBack 1 true, .endHandOff 1,
    .takenOver 2, .handBack 2 true, .endHandOff 2]

/-- Without a waived hand-off and with every storage call succeeding, a connection of `bob`
loads an exchange of `alice`. -/
theorem inflight_record_crosses_users :
    ∃ s t, follow (act true) State.initial (recordOfDisplaced.map (⟨"client", ·⟩)) = some s ∧
      act true s ⟨"client", .bind 3 none true⟩ = some t ∧
      (s "client").obtained (.bind 3 none true) = some (3, [some "alice"]) ∧
      ((s "client").handlers 3).user = some "bob" ∧
      ((t "client").handlers 3).inflightPublishes = [7] :=
  ⟨_, _, rfl, rfl, rfl, rfl, rfl⟩

end MqttLib.Broker.Users
