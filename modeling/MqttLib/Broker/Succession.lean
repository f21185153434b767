/-
MqttLib.Broker.Succession

A connection that has registered keeps its queue.  As long as the steps after a dropped
slot do not clear the queue of a connection that has registered in the meantime, and only
the registered connection takes from it, the epoch of the queue stays the one of the
registration and no step of another connection removes an entry.
-/

import MqttLib.Broker.Ownership
import MqttLib.Foundation.Reachable

namespace MqttLib.Broker.Ownership

open Foundation Storage Function ClientQueue Option

variable {μ : Type*}

/-! ## Runs -/

/-- After the slot has been dropped, the handler is about to clear the queue. -/
def Handler.clears (h : Handler) : Bool :=
  match h.phase with
  | .released .closed .owned | .released .abandoned .owned => !h.sessionPreserved
  | _ => false

/-- The queue is cleared after a dropped slot only while nobody is registered, and a batch is
taken only by the registered connection. -/
def Orderly (s : State μ) : Action μ → Prop
  | .finish g => (s.handlers g).clears = true → s.registered = none
  | .take g _ _ => s.registered = some g
  | _ => True

/-- Runs of orderly steps. -/
inductive Run [Queueable μ] (s₀ : State μ) : State μ → Prop where
  | start : Run s₀ s₀
  | step {s s' : State μ} {a : Action μ} (run : Run s₀ s) (orderly : Orderly s a)
      (enabled : act s a = some s') : Run s₀ s'

/-- Before the first connection. -/
structure Initial (s : State μ) : Prop where
  slot : s.slot = none
  registered : s.registered = none
  idle : ∀ g, (s.handlers g).phase = .idle

/-! ## The invariant -/

/-- The slot excludes, a registered connection has the epoch of the queue, and an entry that
is being given up is out of the router. -/
structure Inv (s : State μ) : Prop where
  slot : ∀ g, (s.handlers g).phase.holdsSlot = true → s.slot = some g
  epoch : ∀ g, s.registered = some g → s.queue.epoch = (s.handlers g).epoch
  persisting : ∀ g exit, (s.handlers g).phase = .persisting exit → s.registered = none
  known : ∀ g, s.registered = some g → g < s.nextGeneration
  live : ∀ g, (s.handlers g).phase ≠ .idle → g < s.nextGeneration

theorem Initial.inv {s : State μ} (h : Initial s) : Inv s where
  slot g hslot := by
    rw [h.idle g] at hslot
    cases hslot
  epoch g hreg := by
    rw [h.registered] at hreg
    cases hreg
  persisting g exit hph := by
    rw [h.idle g] at hph
    cases hph
  known g hreg := by
    rw [h.registered] at hreg
    cases hreg
  live g hph := absurd (h.idle g) hph

section

variable {s : State μ} {g : Nat} {h' : Handler}

@[simp] theorem handlers_setHandler (s : State μ) (g : Nat) (h : Handler) :
    (s.setHandler g h).handlers = update s.handlers g h := rfl

/-- What one handler does in its own phases, away from the slot. -/
theorem Inv.setHandler (h : Inv s)
    (hepoch : s.registered = some g → h'.epoch = (s.handlers g).epoch)
    (hslot : h'.phase.holdsSlot → s.slot = some g)
    (hpers : ∀ exit, h'.phase = .persisting exit → s.registered = none)
    (hlive : g < s.nextGeneration) : Inv (s.setHandler g h') where
  slot := forall_update (handlers_setHandler s g h') hslot fun k _ => h.slot k
  epoch := forall_update (handlers_setHandler s g h')
    (fun hreg => (h.epoch g hreg).trans (hepoch hreg).symm) fun k _ => h.epoch k
  persisting := forall_update (handlers_setHandler s g h') hpers fun k _ => h.persisting k
  known := h.known
  live := forall_update (handlers_setHandler s g h') (fun _ => hlive) fun k _ => h.live k

variable {queue : ClientQueue μ} {s' : State μ} {source target : Phase} {messages : List μ}

section

variable (h : Inv s)
include h

/-- A change of the queue inside its epoch. -/
theorem Inv.setQueue (hepoch : queue.epoch = s.queue.epoch) : Inv { s with queue } where
  slot := h.slot
  epoch k hk := by
    show queue.epoch = _
    rw [hepoch]
    exact h.epoch k hk
  persisting := h.persisting
  known := h.known
  live := h.live

/-- Any change of the queue while nobody is registered. -/
theorem Inv.setQueue_unregistered (hreg : s.registered = none)
    (queue : ClientQueue μ) : Inv { s with queue } where
  slot := h.slot
  epoch k hk := by
    have hk : s.registered = some k := hk
    rw [hreg] at hk
    cases hk
  persisting := h.persisting
  known := h.known
  live := h.live

/-- The stored session is not part of the invariant. -/
theorem Inv.setStored (stored : Option StoredSession) : Inv { s with stored } :=
  ⟨h.slot, h.epoch, h.persisting, h.known, h.live⟩

/-- The holder of the slot moves on and drops it. -/
theorem Inv.dropSlot (hhold : (s.handlers g).phase.holdsSlot)
    (hepoch : h'.epoch = (s.handlers g).epoch) (hleaves : h'.phase.holdsSlot = false) :
    Inv { s.setHandler g h' with slot := none } := by
  have hslot := h.slot g hhold
  have hmoved : Inv (s.setHandler g h') := by
    refine h.setHandler (fun _ => hepoch) (fun _ => hslot) (fun _ hk => ?_) ?_
    · rw [hk] at hleaves
      cases hleaves
    · refine h.live g fun hidle => ?_
      rw [hidle] at hhold
      cases hhold
  refine ⟨fun k hk => ?_, hmoved.epoch, hmoved.persisting, hmoved.known, hmoved.live⟩
  -- nobody but `g` held it
  have hoth : s.slot = some k := hmoved.slot k hk
  rw [hslot] at hoth
  obtain rfl : g = k := some.inj hoth
  have hk : ((update s.handlers g h') g).phase.holdsSlot := hk
  rw [update_self, hleaves] at hk
  cases hk

/-- A handler takes the free slot. -/
theorem Inv.takeSlot (hfree : s.slot = none)
    (hepoch : s.registered = some g → h'.epoch = (s.handlers g).epoch)
    (hpers : ∀ exit, h'.phase = .persisting exit → s.registered = none)
    (hlive : g < s.nextGeneration) : Inv { s.setHandler g h' with slot := some g } := by
  have hoth : ∀ k, (s.handlers k).phase.holdsSlot = false := by
    intro k
    by_contra hk
    rw [Bool.not_eq_false] at hk
    have hslot := h.slot k hk
    rw [hfree] at hslot
    cases hslot
  have hhs := handlers_setHandler s g h'
  refine ⟨?_, ?_, forall_update hhs hpers fun k _ => h.persisting k, h.known,
    forall_update hhs (fun _ => hlive) fun k _ => h.live k⟩
  · refine forall_update hhs (fun _ => rfl) fun k _ hk => ?_
    rw [hoth k] at hk
    cases hk
  · exact forall_update hhs (fun hreg => (h.epoch g hreg).trans (hepoch hreg).symm)
      fun k _ => h.epoch k

/-! ## Steps -/

/-- A move between phases that do not hold the slot. -/
theorem Inv.move (hmove : s.move g source target = some s')
    (hslot : target.holdsSlot = false) (hsource : source ≠ .idle) : Inv s' := by
  obtain ⟨hph, rfl⟩ := ite_some_none_eq_some.mp hmove
  refine h.setHandler (fun _ => rfl) (fun hk => ?_) (fun exit hk => ?_) (h.live g (by rwa [hph]))
  · have hk : target.holdsSlot := hk
    rw [hslot] at hk
    cases hk
  · have hk : target = .persisting exit := hk
    rw [hk] at hslot
    cases hslot

/-- The holder of the slot moves on and drops it. -/
theorem Inv.move_dropSlot
    (hmove : (s.move g source target).map (fun s => { s with slot := none }) = some s')
    (hsource : source.holdsSlot) (htgt : target.holdsSlot = false) : Inv s' := by
  unfold State.move at hmove
  dsimp only at hmove
  split at hmove
  · rename_i hph
    cases hmove
    exact h.dropSlot (by rw [hph, hsource]) rfl htgt
  · cases hmove

theorem Inv.claim {cleanStart : Bool} {userId : Option String} {granted : UInt32}
    (hclaim : s.claim cleanStart userId granted = some s') : Inv s' := by
  unfold State.claim at hclaim
  split at hclaim
  · cases hclaim
  rename_i hslot
  split at hclaim
  · cases hclaim
  cases hclaim
  have hfree : s.slot = none := by simpa using hslot
  -- the generation is new, so that it is not registered
  have hnew : s.registered ≠ some s.nextGeneration := by
    intro hreg
    have hlt := h.known _ hreg
    omega
  have hallocated : Inv { s with nextGeneration := s.nextGeneration + 1 } := by
    refine ⟨h.slot, h.epoch, h.persisting, fun k hk => ?_, fun k hk => ?_⟩
    · have hlt := h.known k hk
      show k < s.nextGeneration + 1
      omega
    · have hlt := h.live k hk
      show k < s.nextGeneration + 1
      omega
  have hsto := hallocated.setStored
    (if s.hasStorage then some ⟨s.nextGeneration, true, some granted, userId⟩ else none)
  refine hsto.takeSlot hfree (fun hreg => absurd hreg hnew) (fun _ hk => ?_) ?_
  · cases hk
  · show s.nextGeneration < s.nextGeneration + 1
    omega

/-- A take-over notice is not part of the invariant. -/
theorem Inv.setNotice (hlive : g < s.nextGeneration) (notice : Option Bool) :
    Inv (s.setHandler g { s.handlers g with notice }) :=
  h.setHandler (fun _ => rfl) (h.slot g) (h.persisting g) hlive

theorem Inv.displace (discard : Bool) : Inv (s.displace discard) := by
  unfold State.displace
  cases hreg : s.registered with
  | none => exact h
  | some old =>
    have hnotified := h.setNotice (h.known old hreg) (some discard)
    exact hnotified.setQueue rfl

end

/-- Displacing changes no phase. -/
theorem phase_displace (s : State μ) (discard : Bool) (k : Nat) :
    ((s.displace discard).handlers k).phase = (s.handlers k).phase := by
  unfold State.displace
  cases hreg : s.registered with
  | none => rfl
  | some old =>
    exact forall_update (handlers_setHandler s old _) rfl (fun _ _ => rfl) k

/-- The holder of the slot becomes the registered connection, with the epoch of the queue. -/
theorem Inv.install (h : Inv s) (hslot : s.slot = some g)
    (hpers : ∀ k exit, (s.handlers k).phase ≠ .persisting exit) (hlive : g < s.nextGeneration)
    (hph : h'.phase = .registered) (hepoch : h'.epoch = queue.epoch) :
    Inv (State.setHandler { s with registered := some g, queue } g h') where
  slot := forall_update (handlers_setHandler _ g h') (fun _ => hslot) fun k _ => h.slot k
  epoch k hk := by
    obtain rfl : g = k := some.inj hk
    rw [handlers_setHandler, update_self]
    exact hepoch.symm
  persisting := by
    refine forall_update (handlers_setHandler _ g h') (fun exit hg => ?_)
      fun k _ exit hk => absurd hk (hpers k exit)
    rw [hph] at hg
    cases hg
  known k hk := by
    obtain rfl : g = k := some.inj hk
    exact hlive
  live := forall_update (handlers_setHandler _ g h') (fun _ => hlive) fun k _ => h.live k

/-- Registering takes the epoch over from the queue. -/
theorem Inv.register (h : Inv s) (hregs : s.register g = some s') : Inv s' := by
  unfold State.register at hregs
  dsimp only at hregs
  split at hregs
  · cases hregs
  rename_i hph
  rw [not_not] at hph
  cases hregs
  have hlive : g < s.nextGeneration := h.live g (by simp [hph])
  have hslot : s.slot = some g := h.slot g (by rw [hph]; rfl)
  refine (h.displace _).install ?_ (fun k _ hk => ?_) ?_ rfl rfl
  · unfold State.displace
    cases s.registered <;> exact hslot
  · -- whoever gives up the entry holds the slot too
    rw [phase_displace] at hk
    have hoth := h.slot k (by rw [hk]; rfl)
    rw [hslot] at hoth
    obtain rfl : g = k := some.inj hoth
    rw [hph] at hk
    cases hk
  · unfold State.displace
    cases s.registered <;> exact hlive

/-- A handler away from the slot changes the queue, and its epoch only if nobody is
registered. -/
theorem Inv.advance (h : Inv s) {queue : ClientQueue μ}
    (hqueue : queue.epoch = s.queue.epoch ∨ s.registered = none)
    (hepoch : h'.epoch = (s.handlers g).epoch) (hph : h'.phase.holdsSlot = false)
    (hlive : (s.handlers g).phase ≠ .idle) :
    Inv (State.setHandler { s with queue } g h') := by
  have hchanged : Inv { s with queue } := by
    rcases hqueue with hsame | hreg
    · exact h.setQueue hsame
    · exact h.setQueue_unregistered hreg queue
  refine hchanged.setHandler (fun _ => hepoch) (fun hk => ?_) (fun _ hk => ?_) (h.live g hlive)
  · rw [hph] at hk
    cases hk
  · rw [hk] at hph
    cases hph

theorem Inv.handBack [Queueable μ] (h : Inv s)
    (hback : s.handBack g messages = some s') : Inv s' := by
  unfold State.handBack at hback
  dsimp only at hback
  split at hback
  · rename_i hph
    cases hback
    refine h.advance (.inl ?_) rfl rfl (by simp [hph])
    show (if _ then _ else _ : ClientQueue μ).epoch = _
    split <;> simp
  · rename_i hph
    cases hback
    refine h.advance (.inl ?_) rfl rfl (by simp [hph])
    split <;> simp
  · cases hback

/-- Releasing takes the slot; the owner leaves the router. -/
theorem Inv.release (h : Inv s) (hrel : s.release g = some s') : Inv s' := by
  unfold State.release at hrel
  dsimp only at hrel
  split at hrel
  · rename_i hph
    split at hrel
    · cases hrel
    rename_i hslot
    have hfree : s.slot = none := by simpa using hslot
    have hlive : g < s.nextGeneration := h.live g (by simp [hph])
    split at hrel
    · cases hrel
      have hout : Inv { s with registered := none } :=
        ⟨h.slot, fun k hk => (by cases hk), fun _ _ _ => rfl, fun k hk => (by cases hk), h.live⟩
      exact hout.takeSlot hfree (fun hk => by cases hk) (fun _ _ => rfl) hlive
    · cases hrel
      exact h.takeSlot hfree (fun _ => rfl) (fun _ hk => by cases hk) hlive
  · cases hrel

/-- Ending the session in the slot: nobody is registered then. -/
theorem Inv.persist (h : Inv s) {written : Bool} {s' : State μ}
    (hpers : s.persist g written = some s') : Inv s' := by
  unfold State.persist at hpers
  dsimp only at hpers
  split at hpers
  · rename_i exit hph
    cases hpers
    have hreg := h.persisting g exit hph
    have hslot := h.slot g (by rw [hph]; rfl)
    have hlive : g < s.nextGeneration := h.live g (by simp [hph])
    split
    · exact h.setHandler (fun _ => rfl) (fun _ => hslot) (fun _ hk => by cases hk) hlive
    split
    · have hclr := (h.setStored none).setQueue_unregistered hreg (s.queue.clear none).1
      exact hclr.setHandler (fun _ => rfl) (fun _ => hslot) (fun _ hk => by cases hk) hlive
    · exact (h.setStored _).setHandler (fun _ => rfl) (fun _ => hslot)
        (fun _ hk => by cases hk) hlive
  · cases hpers

/-- What comes after the slot keeps the epoch of a registered connection, if it does not
clear the queue while there is one. -/
theorem Inv.finish (h : Inv s) (hfin : s.finish g = some s')
    (hord : (s.handlers g).clears → s.registered = none) : Inv s' := by
  unfold State.finish at hfin
  dsimp only at hfin
  unfold Handler.clears at hord
  have hunans : ∀ queue : ClientQueue μ,
      (if (s.handlers g).notice.isSome = true then queue.endHandoff else queue).epoch =
        queue.epoch := by
    intro queue
    split <;> rfl
  split at hfin
  on_goal 6 => cases hfin
  all_goals
    rename_i hph
    cases hfin
    rw [hph] at hord
    refine h.advance ?_ rfl rfl (by simp [hph])
  · exact .inl rfl
  · cases hprsv : (s.handlers g).sessionPreserved with
    | true => exact .inl rfl
    | false => exact .inr (hord (by rw [hprsv]; rfl))
  · exact .inl (hunans _)
  · cases hprsv : (s.handlers g).sessionPreserved with
    | true => exact .inl (hunans _)
    | false => exact .inr (hord (by rw [hprsv]; rfl))
  · exact .inl (hunans _)

/-- Every orderly step keeps the invariant. -/
theorem Inv.step [Queueable μ] (h : Inv s) {a : Action μ} {s' : State μ} (hord : Orderly s a)
    (hact : act s a = some s') : Inv s' := by
  cases a with
  | claim _ _ granted => exact h.claim hact
  | register g => exact h.register hact
  | unlock g => exact h.move_dropSlot hact rfl rfl
  | connected g | handshakeFailed g | close g => exact h.move hact rfl (by decide)
  | setExpiry g granted =>
    dsimp only [act] at hact
    obtain ⟨hph, rfl⟩ := ite_some_none_eq_some.mp hact
    exact h.advance (.inl rfl) rfl (by rw [hph]; rfl) (by simp [hph])
  | take g _ _ =>
    dsimp only [act] at hact
    split at hact
    · cases hact
      refine h.setQueue ?_
      show (markDraining _ _).epoch = _
      unfold markDraining
      split <;> rfl
    · cases hact
  | takenOver g =>
    dsimp only [act] at hact
    split at hact
    · exact h.move hact rfl (by decide)
    · cases hact
  | handBack g _ => exact h.handBack hact
  | release g => exact h.release hact
  | persist g _ => exact h.persist hact
  | dropSlot g =>
    dsimp only [act] at hact
    split at hact
    · exact h.move_dropSlot hact rfl rfl
    · cases hact
  | finish g => exact h.finish hact hord
  | push _ epoch =>
    dsimp only [act, pushInEpoch] at hact
    split at hact
    · cases hact
    · cases hact
      exact h.setQueue rfl
  | sweep _ =>
    dsimp only [act, State.sweep] at hact
    split at hact
    · cases hact
    rename_i hfree
    have hreg : s.registered = none := by
      simp only [Bool.or_eq_true, not_or] at hfree
      simpa using hfree.2
    split at hact
    · cases hact
      exact h.setStored _
    · cases hact
      exact (h.setStored none).setQueue_unregistered hreg _

theorem Run.inv [Queueable μ] {s₀ : State μ} (hinit : Initial s₀) (hrun : Run s₀ s) : Inv s := by
  induction hrun with
  | start => exact hinit.inv
  | step _ hord hact ih => exact ih.step hord hact

/-! ## What other connections do to the queue -/

/-- The entries the limits shed when a handler puts messages back. -/
def Action.shed [Queueable μ] (s : State μ) : Action μ → List (QueueEntry μ)
  | .handBack g messages => (s.queue.requeueFrontInEpoch messages (s.handlers g).epoch).2.1
  | _ => []

/-- Nothing has left the queue but what the limits shed, and the epoch is the same. -/
def Keeps (queue queue' : ClientQueue μ) (evicted : List (QueueEntry μ)) : Prop :=
  queue'.epoch = queue.epoch ∧
    ∀ entry ∈ queue.entries, entry ∈ queue'.entries ∨ entry ∈ evicted

theorem Keeps.refl {queue' : ClientQueue μ} {evicted : List (QueueEntry μ)}
    (hepoch : queue'.epoch = queue.epoch) (hents : queue'.entries = queue.entries) :
    Keeps queue queue' evicted :=
  ⟨hepoch, fun _ hmem => .inl (hents ▸ hmem)⟩

theorem move_keeps {source target : Phase} {s' : State μ} {evicted : List (QueueEntry μ)}
    (hmove : s.move g source target = some s') : Keeps s.queue s'.queue evicted := by
  obtain ⟨-, rfl⟩ := ite_some_none_eq_some.mp hmove
  exact Keeps.refl rfl rfl

/-- Handing back puts messages in front of what is there. -/
theorem handBack_keeps [Queueable μ] (hback : s.handBack g messages = some s') :
    Keeps s.queue s'.queue (Action.shed s (.handBack g messages)) := by
  have hreq : Keeps s.queue (s.queue.requeueFrontInEpoch messages (s.handlers g).epoch).1
      (Action.shed s (.handBack g messages)) :=
    ⟨by simp, fun _ hmem => mem_requeueFrontInEpoch messages _ hmem⟩
  unfold State.handBack at hback
  dsimp only at hback
  split at hback
  · cases hback
    show Keeps s.queue (endHandoff (finishDrain _)) _
    split
    · exact Keeps.refl rfl rfl
    · exact hreq
  · cases hback
    show Keeps s.queue (if _ then _ else _) _
    split
    · exact hreq
    · exact Keeps.refl rfl rfl
  · cases hback

/-- The steps after a dropped slot leave the queue of a registered connection alone. -/
theorem finish_keeps (hfin : s.finish g = some s')
    (hord : (s.handlers g).clears → s.registered = none)
    (hreg : s.registered ≠ none) : Keeps s.queue s'.queue [] := by
  have hprsv : ∀ exit, (s.handlers g).phase = .released exit .owned → exit ≠ .takenOver →
      (s.handlers g).sessionPreserved = true := by
    intro exit hph hexit
    by_contra hlost
    rw [Bool.not_eq_true] at hlost
    refine hreg (hord ?_)
    unfold Handler.clears
    cases exit with
    | takenOver => exact absurd rfl hexit
    | closed => simp [hph, hlost]
    | abandoned => simp [hph, hlost]
  have hunans : ∀ queue : ClientQueue μ, queue.epoch = s.queue.epoch →
      queue.entries = s.queue.entries →
      Keeps s.queue (if (s.handlers g).notice.isSome = true then queue.endHandoff else queue)
        [] := by
    intro queue hepoch hents
    split <;> exact Keeps.refl hepoch hents
  unfold State.finish at hfin
  dsimp only at hfin
  split at hfin
  · cases hfin
    exact Keeps.refl rfl rfl
  · rename_i hph
    cases hfin
    rw [if_pos (hprsv _ hph (by decide))]
    exact Keeps.refl rfl rfl
  · cases hfin
    exact hunans _ rfl rfl
  · rename_i hph
    cases hfin
    rw [if_pos (hprsv _ hph (by decide))]
    exact hunans _ rfl rfl
  · cases hfin
    exact hunans _ rfl rfl
  · cases hfin

/-- A step of another connection keeps the queue of the registered one. -/
theorem Inv.other_keeps [Queueable μ] (h : Inv s) {k : Nat} {a : Action μ}
    (hreg : s.registered = some g) (hgen : a.generation = some k) (hoth : k ≠ g)
    (hord : Orderly s a) (hact : act s a = some s') (hreg' : s'.registered = some g) :
    Keeps s.queue s'.queue (a.shed s) := by
  cases a with
  | claim _ _ granted => cases hgen
  | push _ _ => cases hgen
  | sweep _ => cases hgen
  | register k' =>
    -- it would have displaced `g`
    cases hgen
    dsimp only [act, State.register] at hact
    split at hact
    · cases hact
    · cases hact
      exact absurd (some.inj hreg') hoth
  | unlock k' =>
    obtain ⟨moved, hmove, rfl⟩ := map_eq_some_iff.mp hact
    show Keeps s.queue moved.queue _
    exact move_keeps hmove
  | connected k' => exact move_keeps hact
  | handshakeFailed k' => exact move_keeps hact
  | setExpiry k' granted =>
    dsimp only [act] at hact
    split at hact
    · cases hact
      exact Keeps.refl rfl rfl
    · cases hact
  | take k' _ _ =>
    cases hgen
    have hown : s.registered = some k := hord
    rw [hreg] at hown
    exact absurd (some.inj hown).symm hoth
  | close k' => exact move_keeps hact
  | takenOver k' =>
    dsimp only [act] at hact
    split at hact
    · exact move_keeps hact
    · cases hact
  | handBack k' _ => exact handBack_keeps hact
  | release k' =>
    dsimp only [act, State.release] at hact
    split at hact
    · split at hact
      · cases hact
      · split at hact <;> cases hact <;> exact Keeps.refl rfl rfl
    · cases hact
  | persist k' _ =>
    -- the entry being given up would be out of the router
    cases hgen
    dsimp only [act, State.persist] at hact
    split at hact
    · rename_i exit hph
      have hnone := h.persisting k exit hph
      rw [hreg] at hnone
      cases hnone
    · cases hact
  | dropSlot k' =>
    dsimp only [act] at hact
    split at hact
    · obtain ⟨moved, hmove, rfl⟩ := map_eq_some_iff.mp hact
      show Keeps s.queue moved.queue _
      exact move_keeps hmove
    · cases hact
  | finish k' =>
    cases hgen
    exact finish_keeps hact hord (by rw [hreg]; simp)

/-- In every run of orderly steps a registered connection has the epoch of the queue, so that
its own re-queue is accepted, and no step of another connection removes an entry or
changes the epoch. -/
theorem successor_undisturbed [Queueable μ] {s₀ : State μ} (hinitial : Initial s₀)
    (hrun : Run s₀ s) (hreg : s.registered = some g) :
    s.queue.epoch = (s.handlers g).epoch ∧
    (∀ messages, messages ≠ [] →
      s.queue.requeueFrontInEpoch messages (s.handlers g).epoch = s.queue.insertFront messages) ∧
    ∀ a k s', Action.generation a = some k → k ≠ g → Orderly s a → act s a = some s' →
      s'.registered = some g → Keeps s.queue s'.queue (a.shed s) := by
  have hinv := hrun.inv hinitial
  have hepoch := hinv.epoch g hreg
  refine ⟨hepoch, fun messages hne => ?_, fun a k s' hgen hother horderly hact hreg' => ?_⟩
  · unfold requeueFrontInEpoch
    simp [hne, hepoch]
  · exact hinv.other_keeps hreg hgen hother horderly hact hreg'

end

/-! ## The late clear -/

instance : Queueable Unit := ⟨fun _ => 1, fun _ => none, id⟩

/-- Runs a list of steps. -/
def acts [Queueable μ] (s : State μ) (actions : List (Action μ)) : Option (State μ) :=
  actions.foldlM act s

theorem Run.acts [Queueable μ] {s₀ s s' : State μ} {actions : List (Action μ)} (hrun : Run s₀ s)
    (hord : ∀ a ∈ actions, ∀ t, Orderly t a) (hacts : acts s actions = some s') :
    Run s₀ s' := by
  induction actions generalizing s with
  | nil =>
    cases hacts
    exact hrun
  | cons a actions ih =>
    obtain ⟨t, hstep, hrest⟩ := bind_eq_some_iff.mp
      (show (act s a).bind (fun t => Ownership.acts t actions) = some s' from hacts)
    refine ih (hrun.step (hord a List.mem_cons_self s) hstep) ?_ hrest
    exact fun b hb => hord b (List.mem_cons_of_mem a hb)

/-- The session of a connected client is taken over, and a message is queued for the new
connection before the old one has seen the notice. -/
def takeOverRun : List (Action Unit) :=
  [.claim false none 60, .register 1, .unlock 1, .connected 1,
    .claim false none 60, .register 2, .unlock 2, .push () 1]

/-- A connection whose session ends with it goes up to the point where it has dropped the
slot; the next connection registers, and a message is queued for it. -/
def lateClearRun : List (Action Unit) :=
  [.claim true none 0, .register 1, .unlock 1, .connected 1, .close 1, .handBack 1 [],
    .release 1, .persist 1 true, .dropSlot 1,
    .claim true none 0, .register 2, .unlock 2, .push () 3]

/-- The registered connection, the number of queued messages, the epoch of the queue and that
of the registration. -/
def observe (s : State Unit) : Option Nat × Nat × Nat × Nat :=
  (s.registered, s.queue.entries.length, s.queue.epoch, (s.handlers 2).epoch)

/-- The old connection of a take-over hands back a message of its own: the new one keeps what
was queued for it, and could still re-queue. -/
theorem successor_undisturbed_takeOver :
    ∃ s s' : State Unit, Ownership.acts {} (takeOverRun ++ [.takenOver 1]) = some s ∧
      act s (.handBack 1 [()]) = some s' ∧ s.registered = some 2 ∧
      s.queue.entries.length = 1 ∧ s.queue.epoch = (s.handlers 2).epoch ∧
      s.queue.requeueFrontInEpoch [()] (s.handlers 2).epoch = s.queue.insertFront [()] ∧
      Keeps s.queue s'.queue (Action.shed s (.handBack 1 [()])) := by
  have hrun := Run.acts Run.start (by simp [takeOverRun, Orderly])
    (show Ownership.acts {} (takeOverRun ++ [.takenOver 1]) = some _ from rfl)
  obtain ⟨hepoch, hrequeue, hkeeps⟩ :=
    successor_undisturbed ⟨rfl, rfl, fun _ => rfl⟩ hrun rfl
  exact ⟨_, _, rfl, rfl, rfl, rfl, hepoch, hrequeue [()] (by simp),
    hkeeps (.handBack 1 [()]) 1 _ rfl (by decide) trivial rfl rfl⟩

/-- The first connection then clears the queue of the second: the message is gone and the
epoch is not that of the registration any more. -/
theorem late_clear_disturbs_successor :
    (acts {} lateClearRun).map observe = some (some 2, 1, 3, 3) ∧
      (acts {} (lateClearRun ++ [.finish 1])).map observe = some (some 2, 0, 4, 3) := by
  decide

end MqttLib.Broker.Ownership
