/-
MqttLib.Client.HandedOnce

What keeps an inbound QoS 2 message from being handed over twice.  The state is looked at one
packet id at a time (`State.view`): the exchange, the marks of the two paths, and how many
copies, tokens and acknowledgements of the packet id are under way.  Every step changes the
view of one packet id only, and `Fits` says which views come up when the paths keep apart.
-/

import MqttLib.Client.Inbound

namespace MqttLib.Client.Inbound

open Foundation Protocol Function State Stage Option List Finset

/-! ## What is under way for a packet id -/

def AckRequest.grants (packetId : UInt16) (request : AckRequest) : Bool :=
  request.packetId == packetId && request.kind.reason == .success

def AckRequest.acks (packetId : UInt16) (request : AckRequest) : Bool :=
  request.packetId == packetId && request.kind == .ack

def AckRequest.refuses (packetId : UInt16) (request : AckRequest) : Bool :=
  request.packetId == packetId && request.kind.reason != .success

namespace Stage

/-- A copy that is marked, with its success PUBREC to come. -/
def grants : Stage → Bool
  | .owed _ _ => true
  | _ => false

/-- A first receipt that is not handed over yet, without a token. -/
def takesPlain : Stage → Bool
  | .owed _ first => first
  | .unwritten | .dispatching => true
  | _ => false

/-- A first receipt that is not handed over yet, with a token. -/
def takesDeferred : Stage → Bool
  | .delivered | .minting => true
  | _ => false

/-- A copy that is past its mark. -/
def marked : Stage → Bool
  | .plain _ | .deferred => false
  | _ => true

end Stage

namespace State

/-- The handlers of a packet id at some stages. -/
def handling (s : State) (packetId : UInt16) (p : Stage → Bool) : Nat :=
  s.handlers.countP fun h => h.packetId == packetId && p h.stage

/-- The requests of a kind that are on their way to the writer. -/
def queued (s : State) (p : AckRequest → Bool) : Nat :=
  s.channel.countP p + s.order.slots.countP (Option.any p) + s.ready.countP p

/-- The success PUBRECs under way. -/
def granting (s : State) (packetId : UInt16) : Nat :=
  s.queued (AckRequest.grants packetId) + s.handling packetId grants +
    if s.writing = some (packetId, .success) then 1 else 0

/-- The refusals under way, and the tokens that can still refuse. -/
def refusing (s : State) (packetId : UInt16) : Nat :=
  s.tokens.countP (fun t => t.packetId == packetId) + s.queued (AckRequest.refuses packetId)

end State

/-- A copy is marked on the path its message was taken on, a mark is taken back only when no
PUBREC for it is sent or under way, and a PUBREL finds nothing of its exchange under way. -/
def apart (s : State) : Action → Bool
  | .advance ⟨id, .plain _⟩ _ => id ∉ s.delivered || id ∈ s.pubrecs
  | .advance ⟨id, .deferred⟩ _ => id ∉ s.pubrecs || id ∈ s.delivered
  | .advance ⟨id, .unwritten⟩ _ => s.granting id == 0 && !(s.exchange id).answered
  | .pubrel id => s.granting id == 0 && s.handling id marked == 0
  | _ => true

/-! ## One packet id -/

/-- The state of the client as far as one packet id is concerned. -/
structure View where
  exchange : Exchange
  pubrec : Bool
  delivered : Bool
  resolution : AckResolution
  granting : Nat
  acking : Nat
  refusing : Nat
  takingPlain : Nat
  takingDeferred : Nat

def State.view (s : State) (packetId : UInt16) : View where
  exchange := s.exchange packetId
  pubrec := packetId ∈ s.pubrecs
  delivered := packetId ∈ s.delivered
  resolution := s.getResolution packetId
  granting := s.granting packetId
  acking := s.queued (AckRequest.acks packetId)
  refusing := s.refusing packetId
  takingPlain := s.handling packetId takesPlain
  takingDeferred := s.handling packetId takesDeferred

namespace View

/-- A copy is at a stage. -/
def enter (v : View) (stage : Stage) : View :=
  { v with
    granting := v.granting + stage.grants.toNat
    takingPlain := v.takingPlain + stage.takesPlain.toNat
    takingDeferred := v.takingDeferred + stage.takesDeferred.toNat }

/-- A request is sent to the writer. -/
def enqueue (v : View) (kind : AckKind) : View :=
  { v with
    granting := v.granting + (kind.reason == .success).toNat
    acking := v.acking + (kind == .ack).toNat
    refusing := v.refusing + (kind.reason != .success).toNat }

/-- The writer has recorded a PUBREC and not written it. -/
def write (v : View) (reason : ReasonCode) : View :=
  { v with granting := v.granting + (reason == .success).toNat }

def hand (v : View) : View :=
  { v with exchange := { v.exchange with handed := v.exchange.handed + 1 } }

def setToken (v : View) (acknowledged : Bool) : View :=
  { v with exchange := { v.exchange with token := some acknowledged } }

def answer (v : View) (reached : Bool) : View :=
  { v with exchange := { v.exchange with answered := v.exchange.answered || reached } }

/-- The exchange ends and its inbound state is cleared. -/
def finish (v : View) : View :=
  { v with
    exchange := {}
    pubrec := false
    delivered := false
    resolution := .unresolved }

end View

/-- What holds of a packet id, by how its message was taken. -/
inductive Fits (v : View) : Prop where
  /-- No copy was taken with a token.  Without a PUBREC mark none was taken at all. -/
  | plain (token : v.exchange.token = none) (undelivered : v.delivered = false)
      (unresolved : v.resolution = .unresolved) (refusing : v.refusing = 0)
      (acking : v.acking = 0) (deferred : v.takingDeferred = 0)
      (once : v.exchange.handed + v.takingPlain ≤ 1)
      (unmarked : v.pubrec = false →
        v.exchange.handed + v.takingPlain = 0 ∧ v.granting = 0 ∧ v.exchange.answered = false)
  /-- A copy was taken with a token that is not acknowledged: no success PUBREC is under way. -/
  | held (token : v.exchange.token = some false) (delivered : v.delivered = true)
      (unmarked : v.pubrec = false) (unresolved : v.resolution = .unresolved)
      (granting : v.granting = 0) (unanswered : v.exchange.answered = false)
      (plain : v.takingPlain = 0) (single : v.takingDeferred + v.refusing ≤ 1)
      (once : v.exchange.handed + v.takingDeferred ≤ 1)
  /-- A copy was taken with a token that is acknowledged. -/
  | acked (token : v.exchange.token = some true) (delivered : v.delivered = true)
      (refusing : v.refusing = 0) (plain : v.takingPlain = 0) (deferred : v.takingDeferred = 0)
      (once : v.exchange.handed ≤ 1)

/-- The same exchange, with no more under way. -/
structure View.Shrinks (v v' : View) : Prop where
  exchange : v'.exchange = v.exchange
  pubrec : v'.pubrec = v.pubrec
  delivered : v'.delivered = v.delivered
  resolution : v'.resolution = v.resolution
  granting : v'.granting ≤ v.granting
  acking : v'.acking ≤ v.acking
  refusing : v'.refusing ≤ v.refusing
  takingPlain : v'.takingPlain ≤ v.takingPlain
  takingDeferred : v'.takingDeferred ≤ v.takingDeferred

theorem Fits.shrinks {v v' : View} (h : Fits v) (hs : v.Shrinks v') : Fits v' := by
  obtain ⟨hexch, hpubrec, hdlvd, hresol, hgranting, hacking, hrefusing, hplain, hdef⟩ := hs
  cases h with
  | plain token undelivered unresolved refusing _ deferred once unmarked =>
    refine .plain (by rw [hexch, token]) (by rw [hdlvd, undelivered])
      (by rw [hresol, unresolved]) (by omega) (by omega) (by omega)
      (by rw [hexch]; omega) fun hnone => ?_
    rw [hpubrec] at hnone
    obtain ⟨htaken, hgrant, hanswered⟩ := unmarked hnone
    rw [hexch]
    exact ⟨by omega, by omega, hanswered⟩
  | held token delivered unmarked unresolved _ unanswered plain _ once =>
    exact .held (by rw [hexch, token]) (by rw [hdlvd, delivered])
      (by rw [hpubrec, unmarked]) (by rw [hresol, unresolved]) (by omega)
      (by rw [hexch, unanswered]) (by omega) (by omega) (by rw [hexch]; omega)
  | acked token delivered refusing plain deferred once =>
    exact .acked (by rw [hexch, token]) (by rw [hdlvd, delivered]) (by omega) (by omega)
      (by omega) (by rw [hexch]; omega)

/-! ## How the operations change the view of a packet id -/

namespace State

variable {s : State} {packetId id : UInt16}

theorem handling_enter (stage : Stage) (p : Stage → Bool) :
    (s.enter packetId stage).handling id p =
      s.handling id p + if packetId = id ∧ p stage = true then 1 else 0 := by
  simp [handling, enter, countP_cons]

theorem queued_enqueue (kind : AckKind) (p : AckRequest → Bool) :
    (s.enqueue packetId kind).queued p =
      s.queued p + (p ⟨s.order.reserve.1, packetId, kind⟩).toNat := by
  simp only [queued, enqueue, AckOrder.reserve, countP_append, countP_singleton,
    Option.any_none, Bool.false_eq_true, ↓reduceIte, Nat.add_zero]
  cases p ⟨s.order.head + s.order.slots.length, packetId, kind⟩ with
  | true =>
    simp only [↓reduceIte, Bool.toNat_true]
    omega
  | false => simp

theorem queued_append (request : AckRequest) (p : AckRequest → Bool) :
    { s with channel := s.channel ++ [request] }.queued p = s.queued p + (p request).toNat := by
  simp only [queued, countP_append, countP_singleton]
  cases p request with
  | true =>
    simp only [↓reduceIte, Bool.toNat_true]
    omega
  | false => simp

variable {request : AckRequest}

theorem queued_ready {ready : List AckRequest} (hrdy : s.ready = request :: ready)
    (p : AckRequest → Bool) : s.queued p = { s with ready }.queued p + (p request).toNat := by
  simp only [queued, hrdy, countP_cons]
  cases p request with
  | true =>
    simp only [↓reduceIte, Bool.toNat_true]
    omega
  | false => simp

/-- An acknowledgement is a success PUBREC under way. -/
theorem acking_le_granting : (s.view id).acking ≤ (s.view id).granting := by
  have hgrants (request : AckRequest) (hacks : request.acks id = true) :
      request.grants id = true := by
    obtain ⟨hid, hkind⟩ := Bool.and_eq_true_iff.mp hacks
    rw [AckRequest.grants, hid, eq_of_beq hkind]
    rfl
  have hslots (slot : Option AckRequest) (hacks : slot.any (AckRequest.acks id) = true) :
      slot.any (AckRequest.grants id) = true := by
    cases slot with
    | none => exact hacks
    | some request => exact hgrants request hacks
  have hchannel := countP_mono_left (l := s.channel) fun r _ => hgrants r
  have hrdy := countP_mono_left (l := s.ready) fun r _ => hgrants r
  have horder := countP_mono_left (l := s.order.slots) fun slot _ => hslots slot
  show s.queued (AckRequest.acks id) ≤ s.granting id
  unfold granting queued
  omega

/-- A token is minted, which takes the next place in the order. -/
theorem queued_mint (p : AckRequest → Bool) :
    { s with
      order := s.order.reserve.2
      tokens := ⟨s.order.reserve.1, packetId⟩ :: s.tokens }.queued p = s.queued p := by
  simp [queued, AckOrder.reserve]

theorem refusing_mint :
    { s with
      order := s.order.reserve.2
      tokens := ⟨s.order.reserve.1, packetId⟩ :: s.tokens }.refusing id =
      s.refusing id + if packetId = id then 1 else 0 := by
  simp only [refusing, queued_mint, countP_cons, beq_iff_eq]
  omega

/-- A handler that is put back. -/
theorem view_leave {h : Handler} (hmem : h ∈ s.handlers) :
    ((s.leave h).enter h.packetId h.stage).view id = s.view id := by
  have hperm : (h :: s.handlers.erase h).Perm s.handlers := (perm_cons_erase hmem).symm
  have hcount (p : Stage → Bool) :
      ((s.leave h).enter h.packetId h.stage).handling id p = s.handling id p :=
    hperm.countP_eq _
  simp only [view, granting, hcount]
  rfl

theorem view_enter_of_ne (stage : Stage) (hne : id ≠ packetId) :
    (s.enter packetId stage).view id = s.view id := by
  have hcount (p : Stage → Bool) : (s.enter packetId stage).handling id p = s.handling id p := by
    rw [handling_enter, if_neg (fun h => hne h.1.symm), Nat.add_zero]
  simp only [view, granting, hcount]
  rfl

theorem view_enter (stage : Stage) :
    (s.enter packetId stage).view packetId = (s.view packetId).enter stage := by
  have hcount (p : Stage → Bool) : (s.enter packetId stage).handling packetId p =
      s.handling packetId p + (p stage).toNat := by
    rw [handling_enter]
    cases p stage <;> simp
  have hgrant : (s.enter packetId stage).granting packetId =
      s.granting packetId + stage.grants.toNat := by
    simp only [granting, hcount]
    rw [show (s.enter packetId stage).queued = s.queued from rfl,
      show (s.enter packetId stage).writing = s.writing from rfl]
    omega
  simp only [view, View.enter, hcount, hgrant]
  rfl

/-- A request for another packet id changes nothing. -/
theorem requests_of_ne (hne : id ≠ request.packetId) :
    request.grants id = false ∧ request.acks id = false ∧ request.refuses id = false := by
  have hoth : (request.packetId == id) = false := beq_eq_false_iff_ne.mpr hne.symm
  simp only [AckRequest.grants, AckRequest.acks, AckRequest.refuses, hoth, Bool.false_and,
    and_self]

/-- What a queued request adds to the view of its packet id. -/
theorem view_of_queued {t : State} (hqueued : ∀ p, t.queued p = s.queued p + (p request).toNat)
    (hhs : t.handlers = s.handlers) (hwrt : t.writing = s.writing) (htokens : t.tokens = s.tokens)
    (hexch : t.exchange = s.exchange) (hpubrecs : t.pubrecs = s.pubrecs)
    (hdlvd : t.delivered = s.delivered) (hresol : t.resolution = s.resolution) :
    t.view id = if id = request.packetId then (s.view id).enqueue request.kind
      else s.view id := by
  have hhandling : t.handling = s.handling := by
    funext packetId p
    simp only [handling, hhs]
  by_cases hid : id = request.packetId
  · subst hid
    have hgrant : t.granting request.packetId =
        s.granting request.packetId + (request.kind.reason == .success).toNat := by
      simp only [granting, hqueued, hhandling, hwrt, AckRequest.grants, beq_self_eq_true,
        Bool.true_and]
      omega
    have hrefusing : t.refusing request.packetId =
        s.refusing request.packetId + (request.kind.reason != .success).toNat := by
      simp only [refusing, hqueued, htokens, AckRequest.refuses, beq_self_eq_true, Bool.true_and]
      omega
    simp only [↓reduceIte, view, View.enqueue, hgrant, hrefusing, hqueued, hhandling,
      hexch, hpubrecs, hdlvd, getResolution, hresol, AckRequest.acks,
      beq_self_eq_true, Bool.true_and]
  · obtain ⟨hgrants, hacks, hrefuses⟩ := requests_of_ne hid
    simp only [hid, ↓reduceIte, view, granting, refusing, hqueued, hgrants, hacks, hrefuses,
      hhandling, hwrt, htokens, hexch, hpubrecs, hdlvd, getResolution, hresol,
      Bool.toNat_false, Nat.add_zero]

theorem view_enqueue_of_ne (kind : AckKind) (hne : id ≠ packetId) :
    (s.enqueue packetId kind).view id = s.view id := by
  rw [view_of_queued (queued_enqueue kind) rfl rfl rfl rfl rfl rfl rfl, if_neg hne]

theorem view_enqueue (kind : AckKind) :
    (s.enqueue packetId kind).view packetId = (s.view packetId).enqueue kind := by
  rw [view_of_queued (queued_enqueue kind) rfl rfl rfl rfl rfl rfl rfl, if_pos rfl]

theorem view_hand_of_ne (hne : id ≠ packetId) : (s.hand packetId).view id = s.view id := by
  simp only [view, hand, update_of_ne hne]
  rfl

theorem view_hand : (s.hand packetId).view packetId = (s.view packetId).hand := by
  simp only [view, hand, update_self]
  rfl

theorem view_setToken_of_ne (acknowledged : Bool) (hne : id ≠ packetId) :
    (s.setToken packetId acknowledged).view id = s.view id := by
  simp only [view, setToken, update_of_ne hne]
  rfl

theorem view_setToken (acknowledged : Bool) :
    (s.setToken packetId acknowledged).view packetId =
      (s.view packetId).setToken acknowledged := by
  simp only [view, setToken, update_self]
  rfl

theorem view_sendPubrec_of_ne (reason : ReasonCode) (reached : Bool) (hne : id ≠ packetId) :
    (s.sendPubrec packetId reason reached).view id = s.view id := by
  unfold sendPubrec
  split
  · simp only [view, update_of_ne hne]
    rfl
  · rfl

theorem view_sendPubrec (reached : Bool) :
    (s.sendPubrec packetId .success reached).view packetId =
      (s.view packetId).answer reached := by
  simp only [view, sendPubrec, ↓reduceIte, update_self]
  rfl

theorem view_finish_of_ne (hne : id ≠ packetId) :
    ((s.clearInboundState packetId).finish packetId).view id = s.view id := by
  simp only [view, finish, clearInboundState, update_of_ne hne, mem_erase, hne,
    getResolution, Finmap.lookup_erase_ne hne, ne_eq, not_false_eq_true, true_and]
  rfl

theorem view_finish :
    ((s.clearInboundState packetId).finish packetId).view packetId =
      (s.view packetId).finish := by
  simp only [view, finish, clearInboundState, update_self, notMem_erase,
    decide_false, getResolution, Finmap.lookup_erase, getD_none]
  rfl

end State

/-! ## One packet id under the steps of its handlers -/

namespace Fits

variable {v : View}

/-- While a success PUBREC is under way no token waits to be acknowledged. -/
theorem token_of_granting (hfits : Fits v) (hgrant : 0 < v.granting) :
    v.exchange.token ≠ some false := by
  intro hheld
  cases hfits with
  | plain token | acked token => exact absurd (token.symm.trans hheld) (by simp)
  | held token _ _ _ granting => omega

variable {stage : Stage}

theorem answer (hfits : Fits v) (hgrant : 0 < v.granting) (reached : Bool) :
    Fits (v.answer reached) := by
  cases hfits with
  | plain token undelivered unresolved refusing acking deferred once unmarked =>
    refine .plain token undelivered unresolved refusing acking deferred once fun hnone => ?_
    obtain ⟨-, hzero, -⟩ := unmarked hnone
    omega
  | held token delivered unmarked unresolved granting => omega
  | acked token delivered refusing plain deferred once =>
    exact .acked token delivered refusing plain deferred once

theorem markPlain (hfits : Fits v) (flow : Bool) (hapart : v.delivered = false ∨ v.pubrec) :
    Fits ({ v with pubrec := true }.enter (.owed flow !v.pubrec)) := by
  cases hfits with
  | plain token undelivered unresolved refusing acking deferred once unmarked =>
    refine .plain token undelivered unresolved refusing acking deferred ?_ (fun h => nomatch h)
    show v.exchange.handed + (v.takingPlain + (!v.pubrec).toNat) ≤ 1
    cases hmark : v.pubrec with
    | true => exact once
    | false =>
      obtain ⟨hzero, -, -⟩ := unmarked hmark
      simp only [Bool.not_false, Bool.toNat_true]
      omega
  | held token delivered unmarked =>
    -- the other path has taken the message, and has not sent its PUBREC
    rcases hapart with hd | hp
    · exact absurd (hd.symm.trans delivered) (by decide)
    · exact absurd (unmarked.symm.trans hp) (by decide)
  | acked token delivered refusing plain deferred once =>
    have hp : v.pubrec := by
      rcases hapart with hd | hp
      · exact absurd (hd.symm.trans delivered) (by decide)
      · exact hp
    refine .acked token delivered refusing ?_ deferred once
    simpa [View.enter, takesPlain, hp] using plain

/-- The mark of a first receipt is taken back. -/
theorem unmark (hfits : Fits (v.enter .unwritten)) (hgrant : v.granting = 0)
    (hanswered : v.exchange.answered = false) : Fits { v with pubrec := false } := by
  cases hfits with
  | plain token undelivered unresolved refusing acking deferred once unmarked =>
    have hzero : v.exchange.handed + v.takingPlain = 0 := by
      have : v.exchange.handed + (v.takingPlain + 1) ≤ 1 := once
      omega
    exact .plain token undelivered unresolved refusing acking deferred
      (hzero.le.trans (Nat.zero_le 1)) fun _ => ⟨hzero, hgrant, hanswered⟩
  | held token delivered unmarked unresolved granting unanswered plain
  | acked token delivered refusing plain => exact absurd plain (Nat.succ_ne_zero _)

theorem dispatch (hfits : Fits (v.enter .dispatching)) : Fits v.hand := by
  cases hfits with
  | plain token undelivered unresolved refusing acking deferred once unmarked =>
    have hsum : v.exchange.handed + (v.takingPlain + 1) ≤ 1 := once
    refine .plain token undelivered unresolved refusing acking deferred ?_ fun hnone => ?_
    · show v.exchange.handed + 1 + v.takingPlain ≤ 1
      omega
    · have hzero : v.exchange.handed + (v.takingPlain + 1) = 0 := (unmarked hnone).1
      omega
  | held token delivered unmarked unresolved granting unanswered plain
  | acked token delivered refusing plain => exact absurd plain (Nat.succ_ne_zero _)

theorem markDelivered (hfits : Fits v) (hfirst : v.delivered = false)
    (hapart : v.pubrec = false ∨ v.delivered) :
    Fits (({ v with delivered := true }.setToken false).enter .delivered) := by
  have hmark : v.pubrec = false := by
    rcases hapart with hp | hd
    · exact hp
    · exact absurd (hfirst.symm.trans hd) (by decide)
  cases hfits with
  | plain token _ unresolved refusing _ _ _ unmarked =>
    obtain ⟨hzero, hgrant, hanswered⟩ := unmarked hmark
    refine .held rfl rfl hmark unresolved hgrant hanswered ?_ ?_ ?_
    · show v.takingPlain = 0
      omega
    · show v.takingDeferred + 1 + v.refusing ≤ 1
      omega
    · show v.exchange.handed + (v.takingDeferred + 1) ≤ 1
      omega
  | held token delivered | acked token delivered =>
    exact absurd (hfirst.symm.trans delivered) (by decide)

/-- A copy of an acknowledged message is acknowledged again. -/
theorem resend (hfits : Fits v) (hacked : v.resolution = .acked) : Fits (v.enqueue .ack) := by
  cases hfits with
  | plain token undelivered unresolved | held token delivered unmarked unresolved =>
    exact absurd (unresolved.symm.trans hacked) (by decide)
  | acked token delivered refusing plain deferred once =>
    exact .acked token delivered refusing plain deferred once

theorem resolve (hfits : Fits (v.enter .delivered)) :
    Fits ({ v with resolution := .unresolved }.enter .minting) := by
  cases hfits with
  | plain token undelivered unresolved refusing acking deferred
  | acked token delivered refusing plain deferred => exact absurd deferred (Nat.succ_ne_zero _)
  | held token delivered unmarked unresolved granting unanswered plain single once =>
    exact .held token delivered unmarked rfl granting unanswered plain single once

theorem mint (hfits : Fits (v.enter .minting)) :
    Fits { v with refusing := v.refusing + 1 }.hand := by
  cases hfits with
  | plain token undelivered unresolved refusing acking deferred
  | acked token delivered refusing plain deferred => exact absurd deferred (Nat.succ_ne_zero _)
  | held token delivered unmarked unresolved granting unanswered plain single once =>
    have hsingle : v.takingDeferred + 1 + v.refusing ≤ 1 := single
    have honce : v.exchange.handed + (v.takingDeferred + 1) ≤ 1 := once
    refine .held token delivered unmarked unresolved granting unanswered plain ?_ ?_
    · show v.takingDeferred + (v.refusing + 1) ≤ 1
      omega
    · show v.exchange.handed + 1 + v.takingDeferred ≤ 1
      omega

/-- A copy goes on to a stage that counts for no more. -/
theorem enter_shrinks {stage' : Stage} (hfits : Fits (v.enter stage))
    (hgrants : stage'.grants.toNat ≤ stage.grants.toNat)
    (hplain : stage'.takesPlain.toNat ≤ stage.takesPlain.toNat)
    (hdef : stage'.takesDeferred.toNat ≤ stage.takesDeferred.toNat) :
    Fits (v.enter stage') :=
  hfits.shrinks ⟨rfl, rfl, rfl, rfl, Nat.add_le_add_left hgrants _, Nat.le_refl _, Nat.le_refl _,
    Nat.add_le_add_left hplain _, Nat.add_le_add_left hdef _⟩

theorem leave (hfits : Fits (v.enter stage)) : Fits v :=
  hfits.shrinks ⟨rfl, rfl, rfl, rfl, Nat.le_add_right _ _, Nat.le_refl _, Nat.le_refl _,
    Nat.le_add_right _ _, Nat.le_add_right _ _⟩

/-- The PUBREC of a marked copy is sent to the writer. -/
theorem enqueueAutomatic {flow first : Bool} (hfits : Fits (v.enter (.owed flow first))) :
    Fits ((v.enqueue .automatic).enter (if first then .dispatching else .duplicate)) := by
  refine hfits.shrinks ?_
  cases first <;> exact ⟨rfl, rfl, rfl, rfl, Nat.le_refl _, Nat.le_refl _, Nat.le_refl _,
    Nat.le_refl _, Nat.le_refl _⟩

end Fits

section Handlers

variable {deferredAck : Bool} {s : State} {h : Handler} {outcome : Outcome}

theorem advance_view_of_ne {id : UInt16} (hne : id ≠ h.packetId) :
    (advance deferredAck s h outcome).view id = s.view id := by
  obtain ⟨packetId, stage⟩ := h
  cases stage with
  | plain flow =>
    refine (view_enter_of_ne _ hne).trans ?_
    simp only [view, mem_insert, show id ≠ packetId from hne, false_or]
    rfl
  | owed flow first =>
    simp only [advance, acknowledge]
    cases first <;> cases outcome <;> simp only [↓reduceIte, Bool.false_eq_true] <;> split <;>
      simp only [view_enter_of_ne _ hne, view_enqueue_of_ne _ hne, view_sendPubrec_of_ne _ _ hne]
  | unwritten =>
    simp only [advance, view, mem_erase, show id ≠ packetId from hne, ne_eq,
      not_false_eq_true, true_and]
    rfl
  | dispatching => exact view_hand_of_ne hne
  | deferred =>
    simp only [advance]
    split
    · exact view_enter_of_ne _ hne
    · refine (view_enter_of_ne _ hne).trans ((view_setToken_of_ne _ hne).trans ?_)
      simp only [view, mem_insert, show id ≠ packetId from hne, false_or]
      rfl
  | duplicate =>
    simp only [advance]
    split
    · exact view_enqueue_of_ne _ hne
    · rfl
  | delivered =>
    refine (view_enter_of_ne _ hne).trans ?_
    simp only [view, getResolution, Finmap.lookup_insert_of_ne _ (show id ≠ packetId from hne)]
    rfl
  | minting =>
    refine (view_hand_of_ne hne).trans ?_
    simp only [view, granting, queued_mint, refusing_mint,
      Ne.symm (show id ≠ packetId from hne), ↓reduceIte]
    rfl

theorem acknowledge_fits {packetId : UInt16} {flow first : Bool}
    (hfits : Fits ((s.view packetId).enter (.owed flow first))) :
    Fits ((acknowledge deferredAck s packetId flow first outcome).view packetId) := by
  have hnext {t : State} (ht : Fits ((t.view packetId).enter
      (if first then .dispatching else .duplicate))) :
      Fits ((if first then t.enter packetId .dispatching else t).view packetId) := by
    cases first with
    | true =>
      rw [if_pos rfl, view_enter]
      exact ht
    | false => exact ht.leave
  have hplain : Fits ((s.view packetId).enter (if first then .dispatching else .duplicate)) := by
    cases first <;> refine hfits.enter_shrinks ?_ ?_ ?_ <;>
      simp [grants, takesPlain, takesDeferred]
  unfold acknowledge
  dsimp only
  split
  · refine hnext ?_
    rw [view_enqueue]
    exact hfits.enqueueAutomatic
  · cases outcome with
    | written reached =>
      refine hnext ?_
      rw [view_sendPubrec]
      have hans := hfits.answer (Nat.succ_pos _) reached
      cases first <;> exact hans.shrinks ⟨rfl, rfl, rfl, rfl, Nat.le_succ _, Nat.le_refl _,
        Nat.le_refl _, Nat.le_refl _, Nat.le_refl _⟩
    | omitted => exact hnext hplain
    | failed =>
      cases first with
      | true =>
        show Fits ((s.enter packetId .unwritten).view packetId)
        rw [view_enter]
        refine hfits.enter_shrinks ?_ ?_ ?_ <;>
          simp [grants, takesPlain, takesDeferred]
      | false => exact hfits.leave

theorem advance_fits (hfits : Fits ((s.view h.packetId).enter h.stage))
    (hapart : apart (s.enter h.packetId h.stage) (.advance h outcome)) :
    Fits ((advance deferredAck s h outcome).view h.packetId) := by
  obtain ⟨packetId, stage⟩ := h
  cases stage with
  | plain flow =>
    have hmark : ({ s with pubrecs := insert packetId s.pubrecs } : State).view packetId =
        { s.view packetId with pubrec := true } := by
      simp only [view, mem_insert, true_or, decide_true]
      rfl
    have hpath : (s.view packetId).delivered = false ∨ (s.view packetId).pubrec :=
      (Bool.or_eq_true_iff.mp hapart).imp (fun h => decide_eq_false (of_decide_eq_true h))
        fun h => decide_eq_true (of_decide_eq_true h)
    show Fits ((enter _ packetId (.owed flow (packetId ∉ s.pubrecs))).view packetId)
    rw [view_enter, hmark, decide_not]
    exact hfits.leave.markPlain flow hpath
  | owed flow _ => exact acknowledge_fits hfits
  | unwritten =>
    have hmark : ({ s with pubrecs := s.pubrecs.erase packetId } : State).view packetId =
        { s.view packetId with pubrec := false } := by
      simp only [view, notMem_erase, decide_false]
      rfl
    have hquiet : (s.enter packetId .unwritten).granting packetId = 0 ∧
        (s.exchange packetId).answered = false := by
      simpa [apart, enter] using hapart
    have hgrant : ((s.enter packetId .unwritten).view packetId).granting = 0 := hquiet.1
    rw [view_enter] at hgrant
    show Fits (({ s with pubrecs := s.pubrecs.erase packetId } : State).view packetId)
    rw [hmark]
    exact hfits.unmark hgrant hquiet.2
  | dispatching =>
    show Fits ((s.hand packetId).view packetId)
    rw [view_hand]
    exact hfits.dispatch
  | deferred =>
    simp only [advance]
    split
    · rw [view_enter]
      exact hfits
    · rename_i hfirst
      have hmark : ({ s with delivered := insert packetId s.delivered } : State).view packetId =
          { s.view packetId with delivered := true } := by
        simp only [view, mem_insert, true_or, decide_true]
        rfl
      have hpath : (s.view packetId).pubrec = false ∨ (s.view packetId).delivered :=
        (Bool.or_eq_true_iff.mp hapart).imp (fun h => decide_eq_false (of_decide_eq_true h))
          fun h => decide_eq_true (of_decide_eq_true h)
      rw [view_enter, view_setToken, hmark]
      exact hfits.leave.markDelivered (decide_eq_false hfirst) hpath
  | duplicate =>
    simp only [advance]
    split
    · rename_i hacked
      rw [view_enqueue]
      exact hfits.leave.resend hacked
    · exact hfits.leave
  | delivered =>
    have hset : ({ s with resolution := s.resolution.insert packetId .unresolved } : State).view
        packetId = { s.view packetId with resolution := .unresolved } := by
      simp only [view, getResolution, Finmap.lookup_insert, getD_some]
      rfl
    show Fits ((enter _ packetId .minting).view packetId)
    rw [view_enter, hset]
    exact hfits.resolve
  | minting =>
    have hmint : ({ s with
          order := s.order.reserve.2
          tokens := ⟨s.order.reserve.1, packetId⟩ :: s.tokens } : State).view packetId =
        { s.view packetId with refusing := (s.view packetId).refusing + 1 } := by
      simp only [view, granting, queued_mint, refusing_mint, ↓reduceIte]
      rfl
    show Fits ((hand _ packetId).view packetId)
    rw [view_hand, hmint]
    exact hfits.mint

end Handlers

/-! ## Tokens -/

namespace Fits

variable {v : View}

theorem ackToken (hfits : Fits { v with refusing := v.refusing + 1 }) :
    Fits ((v.enqueue .ack).setToken true) := by
  cases hfits with
  | plain token undelivered unresolved refusing | acked token delivered refusing =>
    exact absurd refusing (Nat.succ_ne_zero _)
  | held token delivered _ unresolved _ _ plain single once =>
    have hsingle : v.takingDeferred + (v.refusing + 1) ≤ 1 := single
    have honce : v.exchange.handed + v.takingDeferred ≤ 1 := once
    have hrefusing : v.refusing = 0 := by omega
    have hdef : v.takingDeferred = 0 := by omega
    exact .acked rfl delivered hrefusing plain hdef (by show v.exchange.handed ≤ 1; omega)

theorem enqueue_refusal {kind : AckKind} (hkind : kind.reason ≠ .success)
    (hfits : Fits { v with refusing := v.refusing + 1 }) : Fits (v.enqueue kind) := by
  have hack : kind ≠ .ack := by
    rintro rfl
    exact hkind rfl
  have hview : v.enqueue kind = { v with refusing := v.refusing + 1 } := by
    simp [View.enqueue, hkind, hack]
  rwa [hview]

end Fits

section Tokens

variable {s : State} {t : AckToken} {kind : AckKind} {id : UInt16}

/-- A token that is put back. -/
theorem view_spend (hmem : t ∈ s.tokens) :
    s.view id = if id = t.packetId then
        { ({ s with tokens := s.tokens.erase t } : State).view id with
          refusing := ({ s with tokens := s.tokens.erase t } : State).refusing id + 1 }
      else ({ s with tokens := s.tokens.erase t } : State).view id := by
  have hcount : s.tokens.countP (fun t => t.packetId == id) =
      (s.tokens.erase t).countP (fun t => t.packetId == id) + (t.packetId == id).toNat := by
    rw [(perm_cons_erase hmem).countP_eq, countP_cons]
    cases t.packetId == id <;> rfl
  have hrefusing : s.refusing id =
      ({ s with tokens := s.tokens.erase t } : State).refusing id + (t.packetId == id).toNat := by
    simp only [refusing, hcount]
    rw [show ({ s with tokens := s.tokens.erase t } : State).queued = s.queued from rfl]
    omega
  by_cases hid : id = t.packetId
  · subst hid
    simp only [↓reduceIte, view, hrefusing, beq_self_eq_true, Bool.toNat_true]
    rfl
  · have hoth : (t.packetId == id) = false := beq_eq_false_iff_ne.mpr (Ne.symm hid)
    simp only [hid, ↓reduceIte, view, hrefusing, hoth, Bool.toNat_false, Nat.add_zero]
    rfl

theorem view_emit :
    (emit s t kind).view id = if id = t.packetId then
        (({ s with tokens := s.tokens.erase t } : State).view id).enqueue kind
      else ({ s with tokens := s.tokens.erase t } : State).view id :=
  view_of_queued
    (queued_append (s := { s with tokens := s.tokens.erase t }) ⟨t.seq, t.packetId, kind⟩)
    rfl rfl rfl rfl rfl rfl rfl

theorem emit_ack_fits (hfits : ∀ id, Fits (s.view id)) (hmem : t ∈ s.tokens) (id : UInt16) :
    Fits (((emit s t .ack).setToken t.packetId true).view id) := by
  have hpre := hfits id
  rw [view_spend hmem] at hpre
  by_cases hid : id = t.packetId
  · subst hid
    rw [if_pos rfl] at hpre
    rw [view_setToken, view_emit, if_pos rfl]
    exact Fits.ackToken hpre
  · rw [if_neg hid] at hpre
    rw [view_setToken_of_ne _ hid, view_emit, if_neg hid]
    exact hpre

theorem emit_refusal_fits (hfits : ∀ id, Fits (s.view id)) (hmem : t ∈ s.tokens)
    (hkind : kind.reason ≠ .success) (id : UInt16) : Fits ((emit s t kind).view id) := by
  have hpre := hfits id
  rw [view_spend hmem] at hpre
  rw [view_emit]
  by_cases hid : id = t.packetId
  · rw [if_pos hid] at hpre ⊢
    exact Fits.enqueue_refusal hkind hpre
  · rw [if_neg hid] at hpre ⊢
    exact hpre

end Tokens

/-! ## The writer -/

theorem countP_filterMap_id (slots : List (Option AckRequest)) (p : AckRequest → Bool) :
    (slots.filterMap id).countP p = slots.countP (Option.any p) := by
  rw [countP_filterMap]
  congr 1
  funext slot
  cases slot <;> rfl

/-- No request is released twice. -/
theorem AckOrder.release_countP (o : AckOrder) (request : AckRequest) (p : AckRequest → Bool) :
    (o.release request).1.countP p + (o.release request).2.slots.countP (Option.any p) ≤
      o.slots.countP (Option.any p) + (p request).toNat := by
  have hsingle : [request].countP p = (p request).toNat := by
    cases h : p request <;> simp [h]
  unfold AckOrder.release
  split
  · simp
  · split
    · rename_i hlt
      dsimp only
      rw [countP_filterMap_id, ← countP_append, takeWhile_append_dropWhile, countP_set hlt]
      have hbound : (if Option.any p (some request) = true then 1 else 0) =
          (p request).toNat := by
        cases h : p request <;> simp [h]
      omega
    · dsimp only
      omega

namespace Fits

variable {v : View}

theorem recordAck (hfits : Fits (v.enqueue .ack)) :
    Fits ({ v with pubrec := true, resolution := .acked }.write .success) := by
  cases hfits with
  | plain token _ unresolved refusing acking => exact absurd acking (Nat.succ_ne_zero _)
  | held token delivered _ unresolved granting =>
    exact absurd granting (Nat.succ_ne_zero _)
  | acked token delivered refusing plain deferred once =>
    exact .acked token delivered refusing plain deferred once

/-- A refusal ends the exchange. -/
theorem recordRefusal {kind : AckKind} (hkind : kind.reason ≠ .success)
    (hfits : Fits (v.enqueue kind)) (hacks : v.acking ≤ v.granting) :
    Fits (v.finish.write kind.reason) := by
  have hsuccess : (kind.reason == .success) = false := beq_eq_false_iff_ne.mpr hkind
  have hrefusing : (v.enqueue kind).refusing = v.refusing + 1 := by
    simp [View.enqueue, bne, hsuccess]
  have hgrants : (v.enqueue kind).granting = v.granting := by simp [View.enqueue, hsuccess]
  cases hfits with
  | plain token _ unresolved refusing => omega
  | held token delivered _ unresolved granting _ plain single _ =>
    have hplain : v.takingPlain = 0 := plain
    have hdef : v.takingDeferred + (v.enqueue kind).refusing ≤ 1 := single
    refine .plain rfl rfl rfl ?_ ?_ ?_ ?_ fun _ => ⟨?_, ?_, rfl⟩
    · show v.refusing = 0
      omega
    · show v.acking = 0
      omega
    · show v.takingDeferred = 0
      omega
    · show 0 + v.takingPlain ≤ 1
      omega
    · show 0 + v.takingPlain = 0
      omega
    · show v.granting + (kind.reason == .success).toNat = 0
      simp only [hsuccess, Bool.toNat_false]
      omega
  | acked token delivered refusing => omega

theorem unwritten {reason : ReasonCode} (hfits : Fits (v.write reason)) : Fits v :=
  hfits.shrinks ⟨rfl, rfl, rfl, rfl, Nat.le_add_right _ _, Nat.le_refl _, Nat.le_refl _,
    Nat.le_refl _, Nat.le_refl _⟩

theorem written (hfits : Fits (v.write .success)) (reached : Bool) : Fits (v.answer reached) :=
  unwritten (hfits.answer (Nat.succ_pos _) reached)

/-- A PUBREL ends the exchange. -/
theorem release (hfits : Fits v) (hreleasable : v.exchange.releasable)
    (hacks : v.acking ≤ v.granting) (hgrant : v.granting = 0) (hplain : v.takingPlain = 0)
    (hdef : v.takingDeferred = 0) : Fits v.finish := by
  have hfin (hrefusing : v.refusing = 0) : Fits v.finish := by
    refine .plain rfl rfl rfl hrefusing ?_ hdef ?_ fun _ => ⟨?_, hgrant, rfl⟩
    · show v.acking = 0
      omega
    · show 0 + v.takingPlain ≤ 1
      omega
    · show 0 + v.takingPlain = 0
      omega
  cases hfits with
  | plain token _ unresolved refusing => exact hfin refusing
  | held token delivered _ unresolved granting unanswered =>
    -- the server has no success PUBREC for a message whose token waits
    simp [Exchange.releasable, token, unanswered] at hreleasable
  | acked token delivered refusing => exact hfin refusing

end Fits

section Writer

variable {s s' : State} {id : UInt16}

variable {request : AckRequest}

theorem receive_shrinks {channel : List AckRequest} (hchannel : s.channel = request :: channel)
    (hrdy : s.ready = []) :
    (s.view id).Shrinks
      (({ s with
        channel
        ready := (s.order.release request).1
        order := (s.order.release request).2 } : State).view id) := by
  have hqueued (p : AckRequest → Bool) :
      ({ s with
        channel
        ready := (s.order.release request).1
        order := (s.order.release request).2 } : State).queued p ≤ s.queued p := by
    have hrel := s.order.release_countP request p
    simp only [queued, hchannel, hrdy, countP_cons, countP_nil]
    cases hp : p request with
    | true =>
      simp only [hp, Bool.toNat_true] at hrel
      simp only [↓reduceIte]
      omega
    | false =>
      simp only [hp, Bool.toNat_false] at hrel
      simp only [Bool.false_eq_true, ↓reduceIte]
      omega
  exact ⟨rfl, rfl, rfl, rfl, Nat.add_le_add_right (Nat.add_le_add_right (hqueued _) _) _,
    hqueued _, Nat.add_le_add_left (hqueued _) _, Nat.le_refl _, Nat.le_refl _⟩

theorem view_writing {t : State} (packetId : UInt16) (reason : ReasonCode)
    (hwrt : t.writing = none) :
    ({ t with writing := some (packetId, reason) } : State).view id =
      if id = packetId then (t.view id).write reason else t.view id := by
  by_cases hid : id = packetId
  · subst hid
    have hgrant : ({ t with writing := some (id, reason) } : State).granting id =
        t.granting id + (reason == .success).toNat := by
      simp only [granting, hwrt]
      rw [show ({ t with writing := some (id, reason) } : State).queued = t.queued from rfl,
        show ({ t with writing := some (id, reason) } : State).handling = t.handling from rfl]
      by_cases hreason : reason = .success <;> simp [hreason]
    simp only [↓reduceIte, view, View.write, hgrant]
    rfl
  · have hgrant : ({ t with writing := some (packetId, reason) } : State).granting id =
        t.granting id := by
      simp only [granting, hwrt]
      rw [if_neg (by simp [Ne.symm hid]), if_neg (by simp)]
      rfl
    simp only [hid, ↓reduceIte, view, hgrant]
    rfl

theorem record_view_of_ne (hne : id ≠ request.packetId) :
    (record s request).view id = s.view id := by
  have hack : ({ s with
      pubrecs := insert request.packetId s.pubrecs
      resolution := s.resolution.insert request.packetId .acked } : State).view id =
      s.view id := by
    simp only [view, mem_insert, hne, false_or, getResolution, Finmap.lookup_insert_of_ne _ hne]
    rfl
  unfold record
  split
  · rfl
  · split
    · exact hack
    · exact view_finish_of_ne hne

theorem record_fits (hfits : Fits ((s.view request.packetId).enqueue request.kind)) :
    Fits (((record s request).view request.packetId).write request.kind.reason) := by
  have hrefusal (hkind : request.kind.reason ≠ .success) :
      Fits ((((s.clearInboundState request.packetId).finish request.packetId).view
        request.packetId).write request.kind.reason) := by
    rw [view_finish]
    exact hfits.recordRefusal hkind acking_le_granting
  obtain ⟨seq, packetId, kind⟩ := request
  cases kind with
  | automatic =>
    exact hfits.shrinks ⟨rfl, rfl, rfl, rfl, Nat.le_refl _, Nat.le_refl _, Nat.le_refl _,
      Nat.le_refl _, Nat.le_refl _⟩
  | ack =>
    have hack : ({ s with
        pubrecs := insert packetId s.pubrecs
        resolution := s.resolution.insert packetId .acked } : State).view packetId =
        { s.view packetId with
          pubrec := true
          resolution := .acked } := by
      simp only [view, mem_insert, true_or, decide_true, getResolution,
        Finmap.lookup_insert, getD_some]
      rfl
    show Fits (View.write (view { s with
        pubrecs := insert packetId s.pubrecs
        resolution := s.resolution.insert packetId .acked } packetId) .success)
    rw [hack]
    exact hfits.recordAck
  | reject reason =>
    have hkind := AckKind.reason_reject reason
    have heq : record s ⟨seq, packetId, .reject reason⟩ =
        (s.clearInboundState packetId).finish packetId := if_neg hkind
    rw [heq]
    exact hrefusal hkind
  | dropAuto => exact hrefusal (show AckKind.dropAuto.reason ≠ .success by decide)

end Writer

/-! ## Runs -/

/-- Every packet id fits, and no success PUBREC was premature. -/
structure Sound (s : State) : Prop where
  fits : ∀ id, Fits (s.view id)
  premature : s.premature = []

theorem sound_start (callbacks : AckCallbacks) : Sound { callbacks } where
  fits _ := .plain rfl rfl rfl rfl rfl rfl (Nat.zero_le 1) fun _ => ⟨rfl, rfl, rfl⟩
  premature := rfl

namespace Sound

variable {deferredAck : Bool} {s : State} {packetId : UInt16} {outcome : Outcome} {h : Handler}
  {reason : ReasonCode}

theorem enter (hs : Sound s) {stage : Stage}
    (hquiet : stage.marked = false) : Sound (s.enter packetId stage) := by
  refine ⟨fun id => ?_, hs.premature⟩
  by_cases hid : id = packetId
  · subst hid
    rw [view_enter]
    cases stage with
    | plain _ => exact hs.fits id
    | deferred => exact hs.fits id
    | _ => exact absurd hquiet (by simp [marked])
  · rw [view_enter_of_ne _ hid]
    exact hs.fits id

theorem leave (hs : Sound s) (hmem : h ∈ s.handlers) : Sound (s.leave h) := by
  refine ⟨fun id => ?_, hs.premature⟩
  have hpre := hs.fits id
  rw [← view_leave hmem] at hpre
  by_cases hid : id = h.packetId
  · subst hid
    rw [view_enter] at hpre
    exact hpre.leave
  · rwa [view_enter_of_ne _ hid] at hpre

theorem sendPubrec_premature {reached : Bool}
    (htoken : reason = .success → (s.exchange packetId).token ≠ some false) :
    (s.sendPubrec packetId reason reached).premature = s.premature := by
  unfold sendPubrec
  split
  · rename_i hreason
    exact if_neg (htoken hreason)
  · rfl

theorem acknowledge_premature {flow first : Bool}
    (hfits : Fits ((s.view packetId).enter (.owed flow first))) :
    (acknowledge deferredAck s packetId flow first outcome).premature = s.premature := by
  have hnext (t : State) :
      (if first then t.enter packetId .dispatching else t).premature = t.premature := by
    split <;> rfl
  have htoken : (s.exchange packetId).token ≠ some false := hfits.token_of_granting (Nat.succ_pos _)
  unfold acknowledge
  dsimp only
  split
  · exact hnext _
  · cases outcome with
    | written _ => exact (hnext _).trans (sendPubrec_premature fun _ => htoken)
    | omitted => exact hnext s
    | failed => cases first <;> rfl

theorem advance_premature (hfits : Fits ((s.view h.packetId).enter h.stage)) :
    (advance deferredAck s h outcome).premature = s.premature := by
  obtain ⟨packetId, stage⟩ := h
  cases stage with
  | owed _ _ => exact acknowledge_premature hfits
  | deferred | duplicate =>
    simp only [advance]
    split <;> rfl
  | _ => rfl

theorem advance (hs : Sound s) (hmem : h ∈ s.handlers) (hapart : apart s (.advance h outcome)) :
    Sound (Inbound.advance deferredAck (s.leave h) h outcome) := by
  have hentered : Fits (((s.leave h).view h.packetId).enter h.stage) := by
    rw [← view_enter, view_leave hmem]
    exact hs.fits h.packetId
  refine ⟨fun id => ?_, (advance_premature hentered).trans hs.premature⟩
  by_cases hid : id = h.packetId
  · subst hid
    refine advance_fits hentered ?_
    -- putting the handler back gives the state before, as far as its packet id is concerned
    have hgrant : ((s.leave h).enter h.packetId h.stage).granting h.packetId =
        s.granting h.packetId := congrArg View.granting (view_leave hmem)
    obtain ⟨packetId, stage⟩ := h
    cases stage with
    | unwritten =>
      simp only [apart] at hapart ⊢
      rw [hgrant]
      exact hapart
    | _ => exact hapart
  · rw [advance_view_of_ne hid]
    exact (hs.leave hmem).fits id

theorem record (hs : Sound s) {request : AckRequest} {ready : List AckRequest}
    (hrdy : s.ready = request :: ready) (hwrt : s.writing = none) :
    Sound { Inbound.record { s with ready } request with
      writing := some (request.packetId, request.kind.reason) } := by
  have hfields : (Inbound.record { s with ready } request).writing = none ∧
      (Inbound.record { s with ready } request).premature = s.premature := by
    unfold Inbound.record
    split
    · exact ⟨hwrt, rfl⟩
    · split <;> exact ⟨hwrt, rfl⟩
  refine ⟨fun id => ?_, hfields.2.trans hs.premature⟩
  have hpre := hs.fits id
  rw [view_of_queued (queued_ready hrdy) rfl rfl rfl rfl rfl rfl rfl] at hpre
  rw [view_writing _ _ hfields.1]
  by_cases hid : id = request.packetId
  · subst hid
    rw [if_pos rfl] at hpre ⊢
    exact record_fits hpre
  · rw [if_neg hid] at hpre ⊢
    rw [record_view_of_ne hid]
    exact hpre

theorem write (hs : Sound s) (hwrt : s.writing = some (packetId, reason)) (written reached : Bool) :
    Sound (if written then ({ s with writing := none } : State).sendPubrec packetId reason reached
      else { s with writing := none }) := by
  have hpre (id : UInt16) : Fits (if id = packetId then
      (({ s with writing := none } : State).view id).write reason
      else ({ s with writing := none } : State).view id) := by
    have hnone : ({ s with writing := none } : State).writing = none := rfl
    rw [← view_writing packetId reason hnone, ← hwrt]
    exact hs.fits id
  have hclr (id : UInt16) : Fits (({ s with writing := none } : State).view id) := by
    have hfits := hpre id
    split at hfits
    · exact hfits.unwritten
    · exact hfits
  have hself := hpre packetId
  rw [if_pos rfl] at hself
  cases written with
  | false => exact ⟨hclr, hs.premature⟩
  | true =>
    refine ⟨fun id => ?_, (sendPubrec_premature ?_).trans hs.premature⟩
    · show Fits ((sendPubrec _ packetId reason reached).view id)
      by_cases hid : id = packetId
      · subst hid
        by_cases hreason : reason = .success
        · subst hreason
          rw [view_sendPubrec]
          exact hself.written reached
        · rw [sendPubrec, if_neg hreason]
          exact hclr id
      · rw [view_sendPubrec_of_ne _ _ hid]
        exact hclr id
    · rintro rfl
      exact hself.token_of_granting (Nat.succ_pos _)

theorem pubrel (hs : Sound s) (hreleasable : (s.exchange packetId).releasable)
    (hapart : apart s (.pubrel packetId)) :
    Sound ((s.clearInboundState packetId).finish packetId) := by
  obtain ⟨hgrant, hmarked⟩ : s.granting packetId = 0 ∧ s.handling packetId marked = 0 := by
    simpa [apart] using hapart
  have hnone (p : Stage → Bool) (hp : ∀ stage, p stage = true → stage.marked = true) :
      s.handling packetId p = 0 := by
    refine Nat.le_zero.mp (le_of_le_of_eq (countP_mono_left fun h _ hh => ?_) hmarked)
    obtain ⟨hid, hstg⟩ := Bool.and_eq_true_iff.mp hh
    exact Bool.and_eq_true_iff.mpr ⟨hid, hp _ hstg⟩
  have hplain : s.handling packetId takesPlain = 0 := by
    refine hnone _ fun stage hstg => ?_
    cases stage <;> first | rfl | exact absurd hstg (by simp [takesPlain])
  have hdef : s.handling packetId takesDeferred = 0 := by
    refine hnone _ fun stage hstg => ?_
    cases stage <;> first | rfl | exact absurd hstg (by simp [takesDeferred])
  refine ⟨fun id => ?_, hs.premature⟩
  by_cases hid : id = packetId
  · subst hid
    rw [view_finish]
    exact (hs.fits id).release hreleasable acking_le_granting hgrant hplain hdef
  · rw [view_finish_of_ne hid]
    exact hs.fits id

theorem act {a : Action} {s' : State} (hs : Sound s) (hapart : apart s a)
    (hact : Inbound.act deferredAck s a = some s') : Sound s' := by
  cases a with
  | register topicFilter | unregister topicFilter =>
    cases hact
    exact ⟨hs.fits, hs.premature⟩
  | publish packetId _ _ =>
    simp only [Inbound.act] at hact
    split at hact <;> cases hact <;> exact hs.enter rfl
  | advance h _ =>
    obtain ⟨hmem, rfl⟩ := ite_some_none_eq_some.mp hact
    exact hs.advance hmem hapart
  | abort h =>
    obtain ⟨hmem, rfl⟩ := ite_some_none_eq_some.mp hact
    exact hs.leave hmem
  | ack t =>
    obtain ⟨hmem, rfl⟩ := ite_some_none_eq_some.mp hact
    exact ⟨emit_ack_fits hs.fits hmem, hs.premature⟩
  | reject t reason =>
    obtain ⟨hmem, rfl⟩ := ite_some_none_eq_some.mp hact
    exact ⟨emit_refusal_fits hs.fits hmem (AckKind.reason_reject _), hs.premature⟩
  | drop t =>
    obtain ⟨hmem, rfl⟩ := ite_some_none_eq_some.mp hact
    exact ⟨emit_refusal_fits hs.fits hmem (by decide), hs.premature⟩
  | receive =>
    simp only [Inbound.act] at hact
    split at hact
    · rename_i request _ hchannel hrdy hwrt
      cases hact
      exact ⟨fun id => (hs.fits id).shrinks (receive_shrinks hchannel hrdy), hs.premature⟩
    · cases hact
  | record =>
    simp only [Inbound.act] at hact
    split at hact
    · rename_i request _ hrdy hwrt
      cases hact
      exact hs.record hrdy hwrt
    · cases hact
  | write written reached =>
    simp only [Inbound.act] at hact
    split at hact
    · rename_i packetId reason hwrt
      cases hact
      exact hs.write hwrt written reached
    · cases hact
  | pubrel packetId =>
    obtain ⟨hreleasable, rfl⟩ := ite_some_none_eq_some.mp hact
    exact hs.pubrel hreleasable hapart

end Sound

theorem handed_le_one {v : View} (hfits : Fits v) : v.exchange.handed ≤ 1 := by
  cases hfits with
  | plain token undelivered unresolved refusing acking deferred once
  | held token delivered _ unresolved _ _ plain _ once => omega
  | acked token delivered refusing plain deferred once => exact once

/-- In a run whose steps keep the two paths apart, a message is handed to the application at
most once in its exchange, and no success PUBREC is sent for a message delivered with a
token before the token is acknowledged. -/
theorem handed_over_once (deferredAck : Bool) (callbacks : AckCallbacks) (s : State)
    (hrun : Reachable (act deferredAck) (fun s a => apart s a = true) { callbacks } s) :
    (∀ packetId, (s.exchange packetId).handed ≤ 1) ∧ s.premature = [] := by
  have hsound : Sound s :=
    hrun.invariant (sound_start callbacks) fun _ _ _ hs hapart hact => hs.act hapart hact
  exact ⟨fun packetId => handed_le_one (hsound.fits packetId), hsound.premature⟩

/-- A message is delivered with a token; the server sends a copy after a reconnect, and another
one when the token is acknowledged and its PUBREC was lost. -/
def ackedCopies : List Action :=
  [.register "a", .publish 1 "a" false, .advance ⟨1, .deferred⟩ .omitted,
    .advance ⟨1, .delivered⟩ .omitted, .advance ⟨1, .minting⟩ .omitted,
    .publish 1 "a" false, .advance ⟨1, .deferred⟩ .omitted, .advance ⟨1, .duplicate⟩ .omitted,
    .ack ⟨0, 1⟩, .receive, .record, .write false false,
    .publish 1 "a" false, .advance ⟨1, .deferred⟩ .omitted, .advance ⟨1, .duplicate⟩ .omitted,
    .receive, .record, .write true true]

theorem handed_over_once_copies :
    ∃ s : State, s.exchange 1 = ⟨1, some true, true⟩ ∧
      (∀ packetId, (s.exchange packetId).handed ≤ 1) ∧ s.premature = [] := by
  have hfollow : (follow (fun s a => if apart s a = true then act true s a else none)
      { callbacks := {} } ackedCopies).map (fun s => s.exchange 1) =
      some ⟨1, some true, true⟩ := by
    decide +kernel
  obtain ⟨s, hs, hexchange⟩ := map_eq_some_iff.mp hfollow
  exact ⟨s, hexchange, handed_over_once true {} s (Reachable.follow_guarded .start hs)⟩

/-- The callback is unregistered while the token waits.  The copy the server sends after a
reconnect is handed over once more, and on a data flow its success PUBREC is sent at once. -/
theorem unregistered_callback_hands_over_twice :
    (follow (act true) {}
      [.register "a", .publish 1 "a" false, .advance ⟨1, .deferred⟩ .omitted,
        .advance ⟨1, .delivered⟩ .omitted, .advance ⟨1, .minting⟩ .omitted,
        .unregister "a", .publish 1 "a" false, .advance ⟨1, .plain false⟩ .omitted,
        .advance ⟨1, .owed false true⟩ .omitted, .advance ⟨1, .dispatching⟩ .omitted]).map
      (fun s => (s.exchange 1, s.tokens)) = some (⟨2, some false, false⟩, [⟨0, 1⟩]) ∧
    (follow (act true) {}
      [.register "a", .publish 1 "a" true, .advance ⟨1, .deferred⟩ .omitted,
        .advance ⟨1, .delivered⟩ .omitted, .advance ⟨1, .minting⟩ .omitted,
        .unregister "a", .publish 1 "a" true, .advance ⟨1, .plain true⟩ .omitted,
        .advance ⟨1, .owed true true⟩ (.written true)]).map
      (fun s => (s.premature, s.tokens)) = some ([1], [⟨0, 1⟩]) := by
  decide +kernel

end MqttLib.Client.Inbound
