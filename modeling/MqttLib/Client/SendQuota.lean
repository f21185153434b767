/-
MqttLib.Client.SendQuota

The client's send quota (`session/flow_control.rs`): a PUBLISH with QoS over 0 needs a permit
of the connection's semaphore, or of its replay slots while the session is replayed.  A
reconnect issues new semaphores, and a permit of an earlier one admits nothing.

Any number of callers wait for permits.  A step is what a task does up to its next await; a
claim that has found its semaphore current keeps the manager read-locked until it is in the
in-flight table, so that no reconnect comes between.
-/

import Mathlib.Algebra.Group.Nat.Defs
import Mathlib.Data.Finset.Card
import MqttLib.Foundation.Reachable

namespace MqttLib.Client.SendQuota

open Foundation Function Option Finset

/-! ## The manager and its semaphores -/

structure Semaphore where
  permits : Nat := 0
  /-- The tasks that have a permit and have not claimed with it. -/
  holders : Finset Nat := ∅
  closed : Bool := false
  /-- The connection the semaphore was issued for. -/
  generation : Nat := 0
  /-- The semaphore is for the replay of a session. -/
  forReplay : Bool := false

namespace Semaphore

def addPermits (x : Semaphore) (n : Nat) : Semaphore := { x with permits := x.permits + n }

def close (x : Semaphore) : Semaphore := { x with closed := true }

/-- A permit is given to a task. -/
def give (x : Semaphore) (i : Nat) : Semaphore :=
  { x with permits := x.permits - 1, holders := insert i x.holders }

/-- A task's permit is forgotten. -/
def forget (x : Semaphore) (i : Nat) : Semaphore := { x with holders := x.holders.erase i }

/-- A task's permit is dropped. -/
def drop (x : Semaphore) (i : Nat) : Semaphore := (x.forget i).addPermits 1

/-- The permits that are free, and those acquired but not claimed. -/
def total (x : Semaphore) : Nat := x.permits + x.holders.card

end Semaphore

/-- `Semaphore::MAX_PERMITS`. -/
def maxPermits : Nat := 2 ^ 61 - 1

/-- `FlowControlManager`, with semaphores by number. -/
structure FlowControl where
  receiveMaximum : UInt16
  inFlight : Finset UInt16 := ∅
  quotaSemaphore : Nat := 0
  quotaDebt : Nat := 0
  replaySlots : Option Nat := none
  quotaGeneration : Nat := 0

/-- Where a caller of `acquire_shared_send_quota` or of `take_slot` is. -/
inductive Stage where
  | reading
  | waiting (semaphore : Nat)
  | holding (semaphore : Nat)
  /-- The semaphore was found to be current. -/
  | claiming (semaphore : Nat)
  | admitted (generation : Nat)
  | refused

structure Task where
  packetId : UInt16
  stage : Stage

structure State where
  flow : FlowControl
  semaphores : Nat → Semaphore
  /-- How many semaphores have been issued. -/
  issued : Nat := 1
  tasks : Nat → Option Task := fun _ => none
  /-- The claims that keep the manager read-locked. -/
  readers : Finset Nat := ∅
  /-- The connection's replay slots, until its replay is finished: not a part of the manager, it
  says what becomes of the permits when the quota is closed. -/
  unfinished : Option Nat := none

namespace State

/-- `FlowControlManager::new`. -/
def new (receiveMaximum : UInt16) : State where
  flow := { receiveMaximum }
  semaphores := fun _ =>
    { permits := if receiveMaximum = 0 then maxPermits else receiveMaximum.toNat }

def setTask (s : State) (i : Nat) (t : Task) : State :=
  { s with tasks := update s.tasks i (some t) }

def setSemaphore (s : State) (k : Nat) (x : Semaphore) : State :=
  { s with semaphores := update s.semaphores k x }

def main (s : State) : Semaphore := s.semaphores s.flow.quotaSemaphore

/-- The semaphore is one of the manager's. -/
def isCurrent (s : State) (k : Nat) : Bool :=
  k == s.flow.quotaSemaphore || s.flow.replaySlots == some k

end State

/-! ## Steps -/

inductive Action where
  /-- A call of `acquire_shared_send_quota`. -/
  | request (i : Nat) (packetId : UInt16)
  /-- A call of `take_slot`, by the replay that was given the slots. -/
  | takeSlot (i : Nat) (packetId : UInt16) (slots : Nat)
  | read (i : Nat)
  | acquire (i : Nat)
  /-- The backpressure timeout, or the caller goes away. -/
  | cancel (i : Nat)
  /-- `claim_send_quota` up to the lock of the in-flight table. -/
  | claim (i : Nat)
  | admission (i : Nat)
  | acknowledge (packetId : UInt16)
  | finishReplay (slots : Nat)
  | resetForConnection (receiveMaximum : UInt16) (retained : List UInt16) (replay : Bool)
  | closeSendQuota

/-- `acquire_shared_send_quota` and `take_slot`: a caller that waits for a semaphore. -/
def acquire (s : State) (i : Nat) (t : Task) (k : Nat) : Option State :=
  let x := s.semaphores k
  if x.closed then
    -- the quota was closed, or it is that of an earlier connection
    some (s.setTask i { t with
      stage := if x.forReplay || k == s.flow.quotaSemaphore then .refused else .reading })
  else if x.permits = 0 then none
  else some ((s.setSemaphore k (x.give i)).setTask i { t with stage := .holding k })

/-- `claim_send_quota`: a permit of another semaphore than the manager's is given back, or lost in
`take_slot`. -/
def claim (s : State) (i : Nat) (t : Task) (k : Nat) : State :=
  if s.isCurrent k then
    { s with readers := insert i s.readers }.setTask i { t with stage := .claiming k }
  else
    let x := s.semaphores k
    if x.forReplay then
      (s.setSemaphore k (x.forget i)).setTask i { t with stage := .refused }
    else (s.setSemaphore k (x.drop i)).setTask i { t with stage := .reading }

/-- `acknowledge`: an exchange ends, and pays a debt or frees a permit. -/
def acknowledge (s : State) (packetId : UInt16) : Option State :=
  if s.flow.receiveMaximum = 0 then some s
  else if packetId ∈ s.flow.inFlight then
    let s := { s with flow := { s.flow with inFlight := s.flow.inFlight.erase packetId } }
    if 0 < s.flow.quotaDebt then
      some { s with flow := { s.flow with quotaDebt := s.flow.quotaDebt - 1 } }
    else
      let k := s.flow.replaySlots.getD s.flow.quotaSemaphore
      some (s.setSemaphore k ((s.semaphores k).addPermits 1))
  else none

/-- `finish_replay`: the free slots become permits of the connection. -/
def finishReplay (s : State) (slots : Nat) : State :=
  if s.flow.replaySlots = some slots then
    let x := s.semaphores slots
    let s := { s with flow := { s.flow with replaySlots := none }, unfinished := none }
    let s := s.setSemaphore slots x.close
    s.setSemaphore s.flow.quotaSemaphore ((s.semaphores s.flow.quotaSemaphore).addPermits x.permits)
  else s

/-- `reset_for_connection`: the retained exchanges are in flight; what the new Receive Maximum does
not cover of them is a debt. -/
def resetForConnection (s : State) (receiveMaximum : UInt16) (retained : List UInt16)
    (replay : Bool) : State :=
  let held := retained.toFinset.card
  let capacity := if receiveMaximum = 0 then maxPermits else receiveMaximum.toNat - held
  let generation := s.flow.quotaGeneration + 1
  let close (semaphores : Nat → Semaphore) (k : Nat) : Nat → Semaphore :=
    update semaphores k (semaphores k).close
  let previous := s.flow.replaySlots.elim s.semaphores (close s.semaphores)
  let semaphores := update (close previous s.flow.quotaSemaphore) s.issued
    { permits := if replay then 0 else capacity, generation }
  let semaphores := if replay then
      update semaphores (s.issued + 1) { permits := capacity, generation, forReplay := true }
    else semaphores
  let slots := if replay then some (s.issued + 1) else none
  { s with
    flow := {
      receiveMaximum
      inFlight := retained.toFinset
      quotaSemaphore := s.issued
      quotaDebt := if receiveMaximum = 0 then 0 else held - receiveMaximum.toNat
      replaySlots := slots
      quotaGeneration := generation }
    semaphores
    issued := s.issued + 2
    unfinished := slots }

/-- `close_send_quota`. -/
def closeSendQuota (s : State) : State :=
  let s := s.setSemaphore s.flow.quotaSemaphore s.main.close
  match s.flow.replaySlots with
  | none => s
  | some k => { s.setSemaphore k (s.semaphores k).close with
      flow := { s.flow with replaySlots := none } }

def act (s : State) : Action → Option State
  | .request i packetId =>
    match s.tasks i with
    | none => some (s.setTask i ⟨packetId, .reading⟩)
    | some _ => none
  | .takeSlot i packetId slots =>
    match s.tasks i with
    | none =>
      if slots < s.issued ∧ (s.semaphores slots).forReplay then
        some (s.setTask i ⟨packetId, .waiting slots⟩)
      else none
    | some _ => none
  | .read i =>
    match s.tasks i with
    | some ⟨packetId, .reading⟩ =>
      some (s.setTask i ⟨packetId,
        if s.flow.receiveMaximum = 0 then .admitted s.flow.quotaGeneration
        else .waiting s.flow.quotaSemaphore⟩)
    | _ => none
  | .acquire i =>
    match s.tasks i with
    | some ⟨packetId, .waiting k⟩ => acquire s i ⟨packetId, .waiting k⟩ k
    | _ => none
  | .cancel i =>
    match s.tasks i with
    | some ⟨packetId, .reading⟩ => some (s.setTask i ⟨packetId, .refused⟩)
    | some ⟨packetId, .waiting _⟩ => some (s.setTask i ⟨packetId, .refused⟩)
    | some ⟨packetId, .holding k⟩ =>
      if (s.semaphores k).forReplay then none
      else some ((s.setSemaphore k ((s.semaphores k).drop i)).setTask i ⟨packetId, .refused⟩)
    | some ⟨packetId, .claiming k⟩ =>
      if (s.semaphores k).forReplay then none
      else some ({ s.setSemaphore k ((s.semaphores k).drop i) with
        readers := s.readers.erase i }.setTask i ⟨packetId, .refused⟩)
    | _ => none
  | .claim i =>
    match s.tasks i with
    | some ⟨packetId, .holding k⟩ => some (claim s i ⟨packetId, .holding k⟩ k)
    | _ => none
  | .admission i =>
    match s.tasks i with
    | some ⟨packetId, .claiming k⟩ =>
      some ({ s.setSemaphore k ((s.semaphores k).forget i) with
        flow := { s.flow with inFlight := insert packetId s.flow.inFlight }
        readers := s.readers.erase i }.setTask i ⟨packetId, .admitted s.flow.quotaGeneration⟩)
    | _ => none
  | .acknowledge packetId => acknowledge s packetId
  | .finishReplay slots =>
    -- the replay takes its slots one after the other, and is done with them
    if (s.semaphores slots).forReplay ∧ (s.semaphores slots).holders = ∅ then
      some (finishReplay s slots)
    else none
  | .resetForConnection receiveMaximum retained replay =>
    if s.readers = ∅ then some (resetForConnection s receiveMaximum retained replay) else none
  | .closeSendQuota => some (closeSendQuota s)

/-- The packet identifiers in use are distinct, and the server's Receive Maximum is not 0. -/
def Proper (s : State) : Action → Prop
  | .admission i => ∀ t, s.tasks i = some t → t.packetId ∉ s.flow.inFlight
  | .resetForConnection receiveMaximum _ _ => receiveMaximum ≠ 0
  | _ => True

/-! ## The invariant -/

/-- The semaphore a task has a permit of. -/
def Stage.holds : Stage → Option Nat
  | .holding k | .claiming k => some k
  | _ => none

/-- The semaphore a task knows. -/
def Stage.semaphore : Stage → Option Nat
  | .waiting k | .holding k | .claiming k => some k
  | _ => none

namespace State

/-- The permits of the connection that are free, or acquired and not claimed. -/
def reserved (s : State) : Nat :=
  s.main.total + s.unfinished.elim 0 fun k => (s.semaphores k).total

/-- The semaphore is of the connection. -/
def Counted (s : State) (k : Nat) : Prop := k = s.flow.quotaSemaphore ∨ s.unfinished = some k

end State

structure Sound (s : State) : Prop where
  positive : s.flow.receiveMaximum ≠ 0
  main_lt : s.flow.quotaSemaphore < s.issued
  unfinished_lt : ∀ k, s.unfinished = some k → k < s.issued ∧ k ≠ s.flow.quotaSemaphore
  issued_for : ∀ k, s.Counted k → (s.semaphores k).generation = s.flow.quotaGeneration
  active : ∀ k, s.flow.replaySlots = some k → s.unfinished = some k
  known : ∀ i t k, s.tasks i = some t → t.stage.semaphore = some k → k < s.issued
  holders : ∀ i k, i ∈ (s.semaphores k).holders ↔ ∃ t, s.tasks i = some t ∧ t.stage.holds = some k
  claiming : ∀ i t k, s.tasks i = some t → t.stage = .claiming k → i ∈ s.readers ∧ s.Counted k
  bounded : s.reserved + s.flow.inFlight.card ≤ s.flow.receiveMaximum.toNat + s.flow.quotaDebt
  exact : s.flow.replaySlots = s.unfinished →
    s.reserved + s.flow.inFlight.card = s.flow.receiveMaximum.toNat + s.flow.quotaDebt
  debt : 0 < s.flow.quotaDebt → s.reserved = 0

variable {s s' : State} {i k : Nat} {t t' : Task} {x : Semaphore} {a : Action}

open State

theorem Stage.semaphore_of_holds {stage : Stage} (h : stage.holds = some k) :
    stage.semaphore = some k := by
  cases stage <;> cases h <;> rfl

theorem Sound.reserved_counted (hs : Sound s) (hk : s.Counted k) :
    (s.setSemaphore k x).reserved + (s.semaphores k).total = s.reserved + x.total := by
  unfold reserved main setSemaphore
  dsimp only
  rcases hk with rfl | hk
  · rw [update_self]
    cases hunfin : s.unfinished with
    | none => simp only [elim_none]; omega
    | some k' =>
      have hne := (hs.unfinished_lt k' hunfin).2
      simp only [elim_some, update_of_ne hne]
      omega
  · have hne := (hs.unfinished_lt k hk).2
    rw [hk, update_of_ne (Ne.symm hne)]
    simp only [elim_some, update_self]
    omega

theorem reserved_not_counted (hk : ¬ s.Counted k) : (s.setSemaphore k x).reserved = s.reserved := by
  unfold State.Counted at hk
  rw [not_or] at hk
  unfold reserved main setSemaphore
  dsimp only
  rw [update_of_ne (Ne.symm hk.1)]
  cases hunfin : s.unfinished with
  | none => rfl
  | some k' =>
    have hne : k' ≠ k := by
      rintro rfl
      exact hk.2 hunfin
    simp only [elim_some, update_of_ne hne]

theorem Sound.reserved_same (hs : Sound s) (hx : x.total = (s.semaphores k).total) :
    (s.setSemaphore k x).reserved = s.reserved := by
  by_cases hk : s.Counted k
  · have h := hs.reserved_counted (x := x) hk
    omega
  · exact reserved_not_counted hk

/-- A step of one task, which may change the semaphore it has a permit of. -/
structure Moves (s s' : State) (i k : Nat) (x : Semaphore) (t' : Task) : Prop where
  semaphores : s'.semaphores = update s.semaphores k x
  tasks : s'.tasks = update s.tasks i (some t')
  issued : s'.issued = s.issued
  unfinished : s'.unfinished = s.unfinished
  quotaSemaphore : s'.flow.quotaSemaphore = s.flow.quotaSemaphore
  replaySlots : s'.flow.replaySlots = s.flow.replaySlots
  receiveMaximum : s'.flow.receiveMaximum = s.flow.receiveMaximum
  quotaDebt : s'.flow.quotaDebt = s.flow.quotaDebt
  quotaGeneration : s'.flow.quotaGeneration = s.flow.quotaGeneration
  /-- What the semaphore is for does not change. -/
  generation : x.generation = (s.semaphores k).generation
  /-- The task had no permit of another semaphore. -/
  before : ∀ t, s.tasks i = some t → t.stage.holds = none ∨ t.stage.holds = some k
  after : t'.stage.holds = none ∨ t'.stage.holds = some k
  known : ∀ k', t'.stage.semaphore = some k' → k' < s.issued
  holders : x.holders = if t'.stage.holds = some k then insert i (s.semaphores k).holders
    else (s.semaphores k).holders.erase i

theorem Sound.moves (hs : Sound s) (h : Moves s s' i k x t')
    (hreaders : ∀ j, j ≠ i → j ∈ s.readers → j ∈ s'.readers)
    (hclm : ∀ k', t'.stage = .claiming k' → i ∈ s'.readers ∧ s.Counted k')
    (hbounded : s'.reserved + s'.flow.inFlight.card ≤ s.reserved + s.flow.inFlight.card)
    (hexact : s.flow.replaySlots = s.unfinished →
      s'.reserved + s'.flow.inFlight.card = s.reserved + s.flow.inFlight.card)
    (hdebt : s.reserved = 0 → s'.reserved = 0) : Sound s' := by
  have hcnt : ∀ k', s'.Counted k' ↔ s.Counted k' := by
    intro k'
    unfold State.Counted
    rw [h.quotaSemaphore, h.unfinished]
  refine ⟨?_, ?_, ?_, ?_, ?_, ?_, ?_, ?_, ?_, ?_, ?_⟩
  · rw [h.receiveMaximum]
    exact hs.positive
  · rw [h.quotaSemaphore, h.issued]
    exact hs.main_lt
  · rw [h.quotaSemaphore, h.issued, h.unfinished]
    exact hs.unfinished_lt
  · intro k' hk'
    rw [h.semaphores, h.quotaGeneration, update_apply]
    split
    · rename_i hk
      rw [h.generation, ← hk]
      exact hs.issued_for k' ((hcnt k').mp hk')
    · exact hs.issued_for k' ((hcnt k').mp hk')
  · rw [h.replaySlots, h.unfinished]
    exact hs.active
  · intro j u k' hj hu
    rw [h.issued]
    rw [h.tasks, update_apply] at hj
    split at hj
    · cases hj
      exact h.known k' hu
    · exact hs.known j u k' hj hu
  · intro j k'
    rw [h.semaphores, h.tasks, update_apply, update_apply]
    by_cases hji : j = i
    · rw [if_pos hji]
      have hown : (∃ t, some t' = some t ∧ t.stage.holds = some k') ↔ t'.stage.holds = some k' :=
        ⟨fun ⟨t, ht, hhold⟩ => some.inj ht ▸ hhold, fun hhold => ⟨t', rfl, hhold⟩⟩
      rw [hown, hji]
      split
      · rename_i hk
        rw [h.holders, hk]
        split <;> rename_i hhold <;> simp [hhold]
      · rename_i hk
        -- no permit of another semaphore, before or after
        rw [hs.holders i k']
        constructor
        · rintro ⟨t, ht, hhold⟩
          rcases h.before t ht with hnone | hsome
          · rw [hnone] at hhold
            cases hhold
          · rw [hsome] at hhold
            exact (hk (some.inj hhold).symm).elim
        · intro hhold
          rcases h.after with hnone | hsome
          · rw [hnone] at hhold
            cases hhold
          · rw [hsome] at hhold
            exact (hk (some.inj hhold).symm).elim
    · rw [if_neg hji, ← hs.holders j k']
      split
      · rename_i hk
        rw [h.holders, hk]
        split
        · simp [hji]
        · simp [hji]
      · rfl
  · intro j u k' hj hu
    rw [h.tasks, update_apply] at hj
    rw [hcnt]
    split at hj
    · rename_i hji
      cases hj
      rw [hji]
      exact hclm k' hu
    · rename_i hji
      obtain ⟨hmem, hk'⟩ := hs.claiming j u k' hj hu
      exact ⟨hreaders j hji hmem, hk'⟩
  · rw [h.receiveMaximum, h.quotaDebt]
    exact hbounded.trans hs.bounded
  · rw [h.replaySlots, h.unfinished]
    intro hsame
    rw [h.receiveMaximum, h.quotaDebt, hexact hsame]
    exact hs.exact hsame
  · rw [h.quotaDebt]
    exact fun hpos => hdebt (hs.debt hpos)

/-! ## Steps of the callers -/

theorem Sound.not_holder (hs : Sound s) (hnone : ∀ t, s.tasks i = some t → t.stage.holds = none) :
    i ∉ (s.semaphores k).holders := by
  intro hmem
  obtain ⟨t, ht, hhold⟩ := (hs.holders i k).mp hmem
  rw [hnone t ht] at hhold
  cases hhold

/-- A step of a task that has no permit, before or after. -/
theorem Sound.idle (hs : Sound s) (hpre : ∀ t, s.tasks i = some t → t.stage.holds = none)
    (hafter : t'.stage.holds = none) (hknown : ∀ k, t'.stage.semaphore = some k → k < s.issued) :
    Sound (s.setTask i t') := by
  have hmov : Moves s (s.setTask i t') i s.flow.quotaSemaphore s.main t' := by
    refine ⟨(update_eq_self _ _).symm, rfl, rfl, rfl, rfl, rfl, rfl, rfl, rfl, rfl,
      fun t ht => .inl (hpre t ht), .inl hafter, hknown, ?_⟩
    rw [hafter, if_neg (by simp)]
    exact (erase_eq_of_notMem (hs.not_holder hpre)).symm
  refine hs.moves hmov (fun _ _ h => h) ?_ le_rfl (fun _ => rfl) id
  intro k hclm
  rw [hclm] at hafter
  cases hafter

theorem total_give (hperm : x.permits ≠ 0) (hi : i ∉ x.holders) : (x.give i).total = x.total := by
  unfold Semaphore.total Semaphore.give
  dsimp only
  rw [card_insert_of_notMem hi]
  omega

theorem total_forget (hi : i ∈ x.holders) : (x.forget i).total + 1 = x.total := by
  unfold Semaphore.total Semaphore.forget
  have hcard := card_erase_add_one hi
  dsimp only
  omega

theorem total_drop (hi : i ∈ x.holders) : (x.drop i).total = x.total := by
  have h := total_forget hi
  unfold Semaphore.total Semaphore.drop Semaphore.addPermits at *
  dsimp only
  omega

variable {packetId receiveMaximum : UInt16} {retained : List UInt16}

section

variable (hs : Sound s)
include hs

theorem Sound.acquire (htask : s.tasks i = some ⟨packetId, .waiting k⟩)
    (h : acquire s i ⟨packetId, .waiting k⟩ k = some s') : Sound s' := by
  have hnone : ∀ t, s.tasks i = some t → t.stage.holds = none := by
    intro t ht
    rw [htask] at ht
    cases ht
    rfl
  have hlt : k < s.issued := hs.known i _ k htask rfl
  unfold SendQuota.acquire at h
  dsimp only at h
  split at h
  · cases h
    refine hs.idle hnone ?_ ?_
    · dsimp only
      split <;> rfl
    · intro k' hk'
      dsimp only at hk'
      split at hk' <;> cases hk'
  · obtain ⟨hperm, h⟩ := ite_none_left_eq_some.mp h
    cases h
    have htotal := total_give hperm (hs.not_holder hnone)
    have hres := hs.reserved_same (x := (s.semaphores k).give i) htotal
    have hmov : Moves s ((s.setSemaphore k ((s.semaphores k).give i)).setTask i
        ⟨packetId, .holding k⟩) i k ((s.semaphores k).give i) ⟨packetId, .holding k⟩ := by
      refine ⟨rfl, rfl, rfl, rfl, rfl, rfl, rfl, rfl, rfl, rfl,
        fun t ht => .inl (hnone t ht), .inr rfl, ?_, (if_pos rfl).symm⟩
      rintro k' ⟨⟩
      exact hlt
    refine hs.moves hmov (fun _ _ h => h) (fun _ h => nomatch h) ?_ ?_ ?_
    · exact (congrArg (· + s.flow.inFlight.card) hres).le
    · exact fun _ => congrArg (· + s.flow.inFlight.card) hres
    · exact fun hzero => hres.trans hzero

/-- A permit that is given back: the task has none any more. -/
theorem Sound.givesBack {stage stage' : Stage} {readers : Finset Nat}
    (htask : s.tasks i = some ⟨packetId, stage⟩) (hhold : stage.holds = some k)
    (hafter : stage'.semaphore = none) (hreaders : ∀ j, j ≠ i → j ∈ s.readers → j ∈ readers) :
    Sound ({ s.setSemaphore k ((s.semaphores k).drop i) with readers }.setTask i
      ⟨packetId, stage'⟩) := by
  have hmem : i ∈ (s.semaphores k).holders := (hs.holders i k).mpr ⟨_, htask, hhold⟩
  have hres := hs.reserved_same (x := (s.semaphores k).drop i)
    (total_drop hmem)
  have hnone : stage'.holds = none := by
    cases stage' <;> first | rfl | cases hafter
  have hmov : Moves s ({ s.setSemaphore k ((s.semaphores k).drop i) with readers }.setTask i
      ⟨packetId, stage'⟩) i k ((s.semaphores k).drop i) ⟨packetId, stage'⟩ := by
    refine ⟨rfl, rfl, rfl, rfl, rfl, rfl, rfl, rfl, rfl, rfl, ?_, .inl hnone, ?_, ?_⟩
    · intro t ht
      rw [htask] at ht
      cases ht
      exact .inr hhold
    · intro k' hk'
      rw [hafter] at hk'
      cases hk'
    · rw [hnone, if_neg (by simp)]
      rfl
  refine hs.moves hmov hreaders ?_ ?_ ?_ ?_
  · intro k' hclm
    rw [show stage' = .claiming k' from hclm] at hnone
    cases hnone
  · exact (congrArg (· + s.flow.inFlight.card) hres).le
  · exact fun _ => congrArg (· + s.flow.inFlight.card) hres
  · exact fun hzero => hres.trans hzero

theorem Sound.claim (htask : s.tasks i = some ⟨packetId, .holding k⟩) :
    Sound (claim s i ⟨packetId, .holding k⟩ k) := by
  have hmem : i ∈ (s.semaphores k).holders := (hs.holders i k).mpr ⟨_, htask, rfl⟩
  have hlt : k < s.issued := hs.known i _ k htask rfl
  have hpre : ∀ t, s.tasks i = some t → t.stage.holds = none ∨ t.stage.holds = some k := by
    intro t ht
    rw [htask] at ht
    cases ht
    exact .inr rfl
  unfold SendQuota.claim
  split
  · rename_i hcur
    have hcnt : s.Counted k := by
      simp only [isCurrent, Bool.or_eq_true, beq_iff_eq] at hcur
      exact hcur.imp_right (hs.active k)
    have hmov : Moves s ({ s with readers := insert i s.readers }.setTask i ⟨packetId, .claiming k⟩)
        i k (s.semaphores k) ⟨packetId, .claiming k⟩ := by
      refine ⟨(update_eq_self _ _).symm, rfl, rfl, rfl, rfl, rfl, rfl, rfl, rfl, rfl,
        hpre, .inr rfl, ?_, ?_⟩
      · rintro k' ⟨⟩
        exact hlt
      · exact ((if_pos rfl).trans (insert_eq_self.mpr hmem)).symm
    refine hs.moves hmov (fun _ _ h => mem_insert_of_mem h) ?_ le_rfl (fun _ => rfl) id
    rintro k' ⟨⟩
    exact ⟨mem_insert_self _ _, hcnt⟩
  · rename_i hnot
    dsimp only
    split
    · -- a slot of a replay that is over is lost
      have hlost : (s.setSemaphore k ((s.semaphores k).forget i)).reserved ≤ s.reserved ∧
          (s.flow.replaySlots = s.unfinished →
            (s.setSemaphore k ((s.semaphores k).forget i)).reserved = s.reserved) := by
        by_cases hcnt : s.Counted k
        · have hsum :=
            hs.reserved_counted (x := (s.semaphores k).forget i) hcnt
          have htotal := total_forget hmem
          refine ⟨by omega, fun hsame => ?_⟩
          refine (hnot ?_).elim
          simp only [isCurrent, Bool.or_eq_true, beq_iff_eq]
          rw [hsame]
          exact hcnt
        · exact ⟨(reserved_not_counted hcnt).le, fun _ => reserved_not_counted hcnt⟩
      have hmov : Moves s ((s.setSemaphore k ((s.semaphores k).forget i)).setTask i
          ⟨packetId, .refused⟩) i k ((s.semaphores k).forget i) ⟨packetId, .refused⟩ :=
        ⟨rfl, rfl, rfl, rfl, rfl, rfl, rfl, rfl, rfl, rfl, hpre, .inl rfl,
          (fun _ h => nomatch h), rfl⟩
      refine hs.moves hmov (fun _ _ h => h) (fun _ h => nomatch h) ?_ ?_ ?_
      · exact Nat.add_le_add_right hlost.1 _
      · exact fun hopen => congrArg (· + s.flow.inFlight.card) (hlost.2 hopen)
      · exact fun hzero => Nat.le_zero.mp (hzero ▸ hlost.1)
    · exact hs.givesBack htask rfl rfl (fun _ _ h => h)

/-- The exchanges in flight where a PUBLISH is admitted, and whose permit it was. -/
theorem Sound.admitted (htask : s.tasks i = some ⟨packetId, .claiming k⟩) :
    s.flow.inFlight.card < s.flow.receiveMaximum.toNat ∧
      (s.semaphores k).generation = s.flow.quotaGeneration := by
  have hmem : i ∈ (s.semaphores k).holders := (hs.holders i k).mpr ⟨_, htask, rfl⟩
  obtain ⟨-, hcnt⟩ := hs.claiming i _ k htask rfl
  refine ⟨?_, hs.issued_for k hcnt⟩
  -- the permit is one of the connection's, so that there is no debt
  have hforget := total_forget hmem
  have hsum := hs.reserved_counted (x := (s.semaphores k).forget i) hcnt
  have hbounded := hs.bounded
  have hdebt : s.flow.quotaDebt = 0 := by
    by_contra hne
    have hzero := hs.debt (Nat.pos_of_ne_zero hne)
    omega
  omega

theorem Sound.admission (htask : s.tasks i = some ⟨packetId, .claiming k⟩)
    (hnew : packetId ∉ s.flow.inFlight)
    (hs' : s' = { s.setSemaphore k ((s.semaphores k).forget i) with
      flow := { s.flow with inFlight := insert packetId s.flow.inFlight }
      readers := s.readers.erase i }.setTask i ⟨packetId, .admitted s.flow.quotaGeneration⟩) :
    Sound s' := by
  have hmem : i ∈ (s.semaphores k).holders := (hs.holders i k).mpr ⟨_, htask, rfl⟩
  obtain ⟨-, hcnt⟩ := hs.claiming i _ k htask rfl
  have hforget := total_forget hmem
  have hsum := hs.reserved_counted (x := (s.semaphores k).forget i) hcnt
  have hcard := card_insert_of_notMem hnew
  have hsame : (s.setSemaphore k ((s.semaphores k).forget i)).reserved +
      (insert packetId s.flow.inFlight).card = s.reserved + s.flow.inFlight.card := by omega
  have hmov : Moves s s' i k ((s.semaphores k).forget i)
      ⟨packetId, .admitted s.flow.quotaGeneration⟩ := by
    subst hs'
    refine ⟨rfl, rfl, rfl, rfl, rfl, rfl, rfl, rfl, rfl, rfl, ?_, .inl rfl,
      (fun _ h => nomatch h), rfl⟩
    intro t ht
    rw [htask] at ht
    cases ht
    exact .inr rfl
  subst hs'
  refine hs.moves hmov (fun _ hne h => mem_erase.mpr ⟨hne, h⟩) (fun _ h => nomatch h)
    hsame.le (fun _ => hsame) ?_
  intro hzero
  have hless : (s.setSemaphore k ((s.semaphores k).forget i)).reserved = 0 := by omega
  exact hless

end

/-! ## Steps of the manager -/

/-- A change of one semaphore's permits and of the numbers of the manager. -/
theorem Sound.count (hs : Sound s) (inFlight : Finset UInt16) (quotaDebt : Nat)
    (hcnt : s.Counted k) (hgen : x.generation = (s.semaphores k).generation)
    (hholders : x.holders = (s.semaphores k).holders)
    (hbal : ∀ reserved, reserved + (s.semaphores k).total = s.reserved + x.total →
      reserved + inFlight.card + s.flow.quotaDebt = s.reserved + s.flow.inFlight.card + quotaDebt)
    (hdebt : 0 < quotaDebt → 0 < s.flow.quotaDebt ∧ x.total = (s.semaphores k).total) :
    Sound { s.setSemaphore k x with flow := { s.flow with inFlight, quotaDebt } } := by
  have hsum := hs.reserved_counted (x := x) hcnt
  have hbal := hbal _ hsum
  have hupd : ∀ k', ((s.setSemaphore k x).semaphores k').holders = (s.semaphores k').holders ∧
      ((s.setSemaphore k x).semaphores k').generation = (s.semaphores k').generation := by
    intro k'
    unfold setSemaphore
    dsimp only
    rw [update_apply]
    split
    · rename_i hk
      rw [hk]
      exact ⟨hholders, hgen⟩
    · exact ⟨rfl, rfl⟩
  have hres : ({ s.setSemaphore k x with
      flow := { s.flow with inFlight, quotaDebt } } : State).reserved =
        (s.setSemaphore k x).reserved := rfl
  refine ⟨hs.positive, hs.main_lt, hs.unfinished_lt, ?_, hs.active, hs.known, ?_, hs.claiming, ?_,
    ?_, ?_⟩
  · exact fun k' hk' => (hupd k').2.trans (hs.issued_for k' hk')
  · intro j k'
    show j ∈ ((s.setSemaphore k x).semaphores k').holders ↔ _
    rw [(hupd k').1]
    exact hs.holders j k'
  · rw [hres]
    have hbounded := hs.bounded
    dsimp only
    omega
  · intro hsame
    rw [hres]
    have hexact := hs.exact hsame
    dsimp only
    omega
  · intro hpos
    rw [hres]
    obtain ⟨hpre, htotal⟩ := hdebt hpos
    have hzero := hs.debt hpre
    omega

theorem Sound.acknowledge (hs : Sound s)
    (h : SendQuota.acknowledge s packetId = some s') : Sound s' := by
  unfold SendQuota.acknowledge at h
  rw [if_neg hs.positive] at h
  obtain ⟨hmem, h⟩ := ite_none_right_eq_some.mp h
  have hcard := card_erase_add_one hmem
  dsimp only at h
  split at h
  · rename_i hdebt
    cases h
    have hcnt : s.Counted s.flow.quotaSemaphore := .inl rfl
    have hsound := Sound.count (x := s.main) hs (s.flow.inFlight.erase packetId)
      (s.flow.quotaDebt - 1) hcnt rfl rfl ?_ ?_
    · have hself : s.setSemaphore s.flow.quotaSemaphore s.main = s := by
        unfold setSemaphore main
        rw [update_eq_self]
      rw [hself] at hsound
      exact hsound
    · intro reserved hres
      have : reserved = s.reserved := Nat.add_right_cancel hres
      omega
    · exact fun _ => ⟨hdebt, rfl⟩
  · rename_i hdebt
    cases h
    have hcnt : s.Counted (s.flow.replaySlots.getD s.flow.quotaSemaphore) := by
      cases hslots : s.flow.replaySlots with
      | none => exact .inl rfl
      | some k => exact .inr (hs.active k hslots)
    refine hs.count (s.flow.inFlight.erase packetId) s.flow.quotaDebt hcnt rfl rfl ?_
      fun hpos => (hdebt hpos).elim
    intro reserved hres
    simp only [Semaphore.total, Semaphore.addPermits] at hres
    omega

/-- The free slots of a replay that is finished go to the connection's semaphore. -/
theorem Sound.finishReplay (hs : Sound s) {slots : Nat}
    (hdone : (s.semaphores slots).holders = ∅) : Sound (SendQuota.finishReplay s slots) := by
  unfold SendQuota.finishReplay
  split
  · rename_i hactv
    have hunfin := hs.active slots hactv
    obtain ⟨hlt, hne⟩ := hs.unfinished_lt slots hunfin
    let semaphores := update (update s.semaphores slots (s.semaphores slots).close)
      s.flow.quotaSemaphore (s.main.addPermits (s.semaphores slots).permits)
    have hupd : ∀ k, (semaphores k).holders = (s.semaphores k).holders ∧
        (semaphores k).generation = (s.semaphores k).generation := by
      intro k
      simp only [semaphores, update_apply]
      split
      · rename_i hk
        rw [hk]
        exact ⟨rfl, rfl⟩
      · split
        · rename_i hk
          rw [hk]
          exact ⟨rfl, rfl⟩
        · exact ⟨rfl, rfl⟩
    have hmain : semaphores s.flow.quotaSemaphore =
        s.main.addPermits (s.semaphores slots).permits := update_self ..
    have hres : s.reserved = (s.main.addPermits (s.semaphores slots).permits).total := by
      simp only [reserved, hunfin, elim_some, Semaphore.total, hdone,
        Semaphore.addPermits, card_empty]
      omega
    let finished : State := { s with
      flow := { s.flow with replaySlots := none }
      unfinished := none
      semaphores := semaphores }
    have hstate : finished.reserved = s.reserved := by
      rw [hres, ← hmain]
      rfl
    have hsound : Sound finished := by
      refine ⟨hs.positive, hs.main_lt, (fun _ h => nomatch h), ?_, (fun _ h => nomatch h), hs.known,
        ?_, ?_, ?_, ?_, ?_⟩
      · rintro k (hk | hk)
        · exact (hupd k).2.trans (hs.issued_for k (.inl hk))
        · cases hk
      · intro j k
        show j ∈ (semaphores k).holders ↔ _
        rw [(hupd k).1]
        exact hs.holders j k
      · intro j t k ht hclm
        obtain ⟨hreader, hcnt⟩ := hs.claiming j t k ht hclm
        refine ⟨hreader, hcnt.imp_right fun hk => ?_⟩
        -- nobody claims a slot of the replay
        have hmem := (hs.holders j k).mpr ⟨t, ht, by rw [hclm]; rfl⟩
        rw [hunfin] at hk
        cases hk
        rw [hdone] at hmem
        cases hmem
      · rw [hstate]
        exact hs.bounded
      · intro _
        rw [hstate]
        exact hs.exact (hactv.trans hunfin.symm)
      · rw [hstate]
        exact hs.debt
    have hlook : update s.semaphores slots (s.semaphores slots).close
        s.flow.quotaSemaphore = s.main := update_of_ne (Ne.symm hne) _ _
    dsimp only [setSemaphore]
    rw [hlook]
    exact hsound
  · exact hs

/-- A semaphore that is closed has the permits it had. -/
theorem update_close (semaphores : Nat → Semaphore) (j k : Nat) :
    ∃ closed, update semaphores j (semaphores j).close k = { semaphores k with closed } := by
  rw [update_apply]
  split
  · rename_i hk
    rw [hk]
    exact ⟨true, rfl⟩
  · exact ⟨(semaphores k).closed, rfl⟩

theorem resetForConnection_semaphores {replay : Bool}
    (hmain : k ≠ s.issued) (hslots : replay → k ≠ s.issued + 1) :
    ((resetForConnection s receiveMaximum retained replay).semaphores k).holders =
      (s.semaphores k).holders := by
  have hclose : ∀ (f : Nat → Semaphore) (j : Nat),
      (update f j (f j).close k).holders = (f k).holders := by
    intro f j
    obtain ⟨_, heq⟩ := update_close f j k
    rw [heq]
  have hpre : (update (s.flow.replaySlots.elim s.semaphores fun j =>
      update s.semaphores j (s.semaphores j).close) s.flow.quotaSemaphore
        ((s.flow.replaySlots.elim s.semaphores fun j =>
          update s.semaphores j (s.semaphores j).close) s.flow.quotaSemaphore).close k).holders =
      (s.semaphores k).holders := by
    rw [hclose]
    cases s.flow.replaySlots with
    | none => rfl
    | some j => exact hclose s.semaphores j
  unfold resetForConnection
  dsimp only
  cases replay with
  | false =>
    rw [if_neg (by simp), update_of_ne hmain]
    exact hpre
  | true =>
    rw [if_pos rfl, update_of_ne (hslots rfl), update_of_ne hmain]
    exact hpre

theorem Sound.resetForConnection (hs : Sound s) {replay : Bool}
    (hpos : receiveMaximum ≠ 0) (hreaders : s.readers = ∅) :
    Sound (SendQuota.resetForConnection s receiveMaximum retained replay) := by
  have hmain : (SendQuota.resetForConnection s receiveMaximum retained replay).main =
      { permits := if replay then 0 else receiveMaximum.toNat - retained.toFinset.card,
        generation := s.flow.quotaGeneration + 1 } := by
    unfold SendQuota.resetForConnection main
    dsimp only
    rw [if_neg hpos]
    cases replay with
    | false => exact update_self ..
    | true =>
      rw [if_pos rfl, update_of_ne (by omega)]
      exact update_self ..
  have hslots : replay = true →
      (SendQuota.resetForConnection s receiveMaximum retained replay).semaphores (s.issued + 1) =
        { permits := receiveMaximum.toNat - retained.toFinset.card,
          generation := s.flow.quotaGeneration + 1, forReplay := true } := by
    rintro rfl
    unfold SendQuota.resetForConnection
    dsimp only
    rw [if_neg hpos, if_pos rfl]
    exact update_self ..
  have hunfin : ∀ k, (SendQuota.resetForConnection s receiveMaximum retained replay).unfinished =
      some k → replay = true ∧ k = s.issued + 1 := by
    intro k hk
    cases replay with
    | false => cases hk
    | true => exact ⟨rfl, (some.inj hk).symm⟩
  have hres : (SendQuota.resetForConnection s receiveMaximum retained replay).reserved =
      receiveMaximum.toNat - retained.toFinset.card := by
    unfold reserved
    rw [hmain]
    cases replay with
    | false => rfl
    | true =>
      show _ + ((SendQuota.resetForConnection s receiveMaximum retained true).semaphores
        (s.issued + 1)).total = _
      rw [hslots rfl]
      simp [Semaphore.total]
  have hdebt : (SendQuota.resetForConnection s receiveMaximum retained replay).flow.quotaDebt =
      retained.toFinset.card - receiveMaximum.toNat := if_neg hpos
  have hbal : receiveMaximum.toNat - retained.toFinset.card + retained.toFinset.card =
      receiveMaximum.toNat + (retained.toFinset.card - receiveMaximum.toNat) := by omega
  refine ⟨hpos, Nat.lt_add_of_pos_right (by decide), ?_, ?_, ?_, ?_, ?_, ?_, ?_, ?_, ?_⟩
  · intro k hk
    obtain ⟨-, rfl⟩ := hunfin k hk
    exact ⟨Nat.lt_succ_self _, Nat.succ_ne_self _⟩
  · rintro k (hk | hk)
    · have hgen := congrArg Semaphore.generation hmain
      rw [main, ← hk] at hgen
      exact hgen
    · obtain ⟨hreplay, rfl⟩ := hunfin k hk
      rw [hslots hreplay]
      rfl
  · exact fun k hk => hk
  · intro i t k ht hk
    exact (hs.known i t k ht hk).trans (Nat.lt_add_of_pos_right (by decide))
  · intro i k
    -- no task knows a new semaphore
    have hnew : s.issued ≤ k → ¬ ∃ t, s.tasks i = some t ∧ t.stage.holds = some k := by
      rintro hle ⟨t, ht, hhold⟩
      have hlt := hs.known i t k ht (Stage.semaphore_of_holds hhold)
      omega
    show _ ↔ ∃ t, s.tasks i = some t ∧ t.stage.holds = some k
    by_cases hk : k = s.issued
    · have hholders := congrArg Semaphore.holders hmain
      rw [hk]
      refine iff_of_false ?_ (hnew (by omega) ∘ fun h => hk ▸ h)
      intro hmem
      have hmem' : i ∈ (SendQuota.resetForConnection s receiveMaximum retained
          replay).main.holders :=
        hmem
      rw [hholders] at hmem'
      cases hmem'
    · by_cases hk' : replay = true ∧ k = s.issued + 1
      · obtain ⟨hreplay, rfl⟩ := hk'
        rw [hslots hreplay]
        exact iff_of_false (by simp) (hnew (by omega))
      · rw [resetForConnection_semaphores hk fun hreplay hkk => hk' ⟨hreplay, hkk⟩]
        exact hs.holders i k
  · intro i t k ht hclm
    have hmem := (hs.claiming i t k ht hclm).1
    rw [hreaders] at hmem
    cases hmem
  · rw [hres, hdebt]
    exact hbal.le
  · intro _
    rw [hres, hdebt]
    exact hbal
  · rw [hres, hdebt]
    intro hover
    omega

theorem closeSendQuota_semaphores (k : Nat) :
    ∃ closed, (closeSendQuota s).semaphores k = { s.semaphores k with closed } := by
  unfold closeSendQuota
  obtain ⟨closed, heq⟩ := update_close s.semaphores s.flow.quotaSemaphore k
  have heq' : (s.setSemaphore s.flow.quotaSemaphore s.main.close).semaphores k =
      { s.semaphores k with closed } := heq
  dsimp only
  split
  · exact ⟨closed, heq'⟩
  · rename_i slots hslots
    obtain ⟨closed', hnext⟩ := update_close
      (s.setSemaphore s.flow.quotaSemaphore s.main.close).semaphores slots k
    refine ⟨closed', Eq.trans hnext ?_⟩
    rw [heq']

/-- The rest of the manager, where the quota is closed. -/
theorem closeSendQuota_flow :
    (closeSendQuota s).flow = { s.flow with replaySlots := none } ∧
      (closeSendQuota s).tasks = s.tasks ∧ (closeSendQuota s).issued = s.issued ∧
      (closeSendQuota s).readers = s.readers ∧ (closeSendQuota s).unfinished = s.unfinished := by
  obtain ⟨⟨_, _, _, _, replaySlots, _⟩, -, -, -, -, -⟩ := s
  cases replaySlots <;> exact ⟨rfl, rfl, rfl, rfl, rfl⟩

theorem Sound.closeSendQuota (hs : Sound s) : Sound (SendQuota.closeSendQuota s) := by
  obtain ⟨hflow, htasks, hissued, hreaders, hunfin⟩ := closeSendQuota_flow (s := s)
  have hcnt : ∀ k, (SendQuota.closeSendQuota s).Counted k ↔ s.Counted k := by
    intro k
    unfold State.Counted
    rw [hflow, hunfin]
  have htotal : ∀ k, ((SendQuota.closeSendQuota s).semaphores k).total =
      (s.semaphores k).total := by
    intro k
    obtain ⟨closed, heq⟩ := closeSendQuota_semaphores (s := s) k
    rw [heq]
    rfl
  have hres : (SendQuota.closeSendQuota s).reserved = s.reserved := by
    unfold reserved main
    rw [hflow, hunfin, htotal]
    simp only [htotal]
  refine ⟨?_, ?_, ?_, ?_, ?_, ?_, ?_, ?_, ?_, ?_, ?_⟩
  · rw [hflow]
    exact hs.positive
  · rw [hflow, hissued]
    exact hs.main_lt
  · rw [hflow, hissued, hunfin]
    exact hs.unfinished_lt
  · intro k hk
    obtain ⟨closed, heq⟩ := closeSendQuota_semaphores (s := s) k
    rw [heq, hflow]
    exact hs.issued_for k ((hcnt k).mp hk)
  · intro k hk
    rw [hflow] at hk
    cases hk
  · rw [htasks, hissued]
    exact hs.known
  · intro i k
    obtain ⟨closed, heq⟩ := closeSendQuota_semaphores (s := s) k
    rw [heq, htasks]
    exact hs.holders i k
  · intro i t k ht hclm
    rw [htasks] at ht
    rw [hreaders, hcnt]
    exact hs.claiming i t k ht hclm
  · rw [hres, hflow]
    exact hs.bounded
  · intro hsame
    rw [hflow, hunfin] at hsame
    rw [hres, hflow]
    -- no replay was unfinished
    refine hs.exact ?_
    cases hslots : s.flow.replaySlots with
    | none => exact hsame
    | some k => cases hsame.trans (hs.active k hslots)
  · rw [hres, hflow]
    exact hs.debt

/-! ## Runs -/

theorem Sound.act (hs : Sound s) (hproper : Proper s a) (h : act s a = some s') : Sound s' := by
  cases a with
  | request i packetId =>
    dsimp only [act] at h
    split at h
    · rename_i hnone
      cases h
      refine hs.idle (fun t ht => ?_) rfl (fun _ h => nomatch h)
      cases hnone.symm.trans ht
    · cases h
  | takeSlot i packetId slots =>
    dsimp only [act] at h
    split at h
    · rename_i hnone
      obtain ⟨hslots, rfl⟩ := ite_some_none_eq_some.mp h
      refine hs.idle (fun t ht => ?_) rfl ?_
      · cases hnone.symm.trans ht
      · rintro k ⟨⟩
        exact hslots.1
    · cases h
  | read i =>
    dsimp only [act] at h
    split at h
    · rename_i packetId htask
      cases h
      rw [if_neg hs.positive]
      refine hs.idle (fun t ht => ?_) rfl ?_
      · cases htask.symm.trans ht
        rfl
      · rintro k ⟨⟩
        exact hs.main_lt
    · cases h
  | acquire i =>
    dsimp only [act] at h
    split at h
    · rename_i packetId k htask
      exact hs.acquire htask h
    · cases h
  | cancel i =>
    dsimp only [act] at h
    split at h
    iterate 2
      rename_i htask
      cases h
      refine hs.idle (fun t ht => ?_) rfl (fun _ h => nomatch h)
      cases htask.symm.trans ht
      rfl
    · rename_i packetId k htask
      split at h
      · cases h
      · cases h
        exact hs.givesBack htask rfl rfl (fun _ _ h => h)
    · rename_i packetId k htask
      split at h
      · cases h
      · cases h
        exact hs.givesBack htask rfl rfl (fun _ hne h => mem_erase.mpr ⟨hne, h⟩)
    · cases h
  | claim i =>
    dsimp only [act] at h
    split at h
    · rename_i packetId k htask
      cases h
      exact hs.claim htask
    · cases h
  | admission i =>
    dsimp only [act] at h
    split at h
    · rename_i packetId k htask
      cases h
      exact hs.admission htask (hproper _ htask) rfl
    · cases h
  | acknowledge packetId => exact hs.acknowledge h
  | finishReplay slots =>
    dsimp only [act] at h
    split at h
    · rename_i hdone
      cases h
      exact hs.finishReplay hdone.2
    · cases h
  | resetForConnection _ _ _ =>
    dsimp only [act] at h
    split at h
    · rename_i hreaders
      cases h
      exact hs.resetForConnection hproper hreaders
    · cases h
  | closeSendQuota =>
    cases h
    exact hs.closeSendQuota

theorem sound_new (hpos : receiveMaximum ≠ 0) : Sound (new receiveMaximum) := by
  have hres : (new receiveMaximum).reserved = receiveMaximum.toNat := by
    simp [reserved, main, new, Semaphore.total, hpos]
  have hbal : (new receiveMaximum).reserved +
      (new receiveMaximum).flow.inFlight.card =
        (new receiveMaximum).flow.receiveMaximum.toNat +
          (new receiveMaximum).flow.quotaDebt := by
    rw [hres]
    rfl
  refine ⟨hpos, Nat.zero_lt_one, (fun _ h => nomatch h), (fun _ _ => rfl), (fun _ h => nomatch h),
    (fun _ _ _ h => nomatch h), ?_, (fun _ _ _ h => nomatch h), hbal.le,
    fun _ => hbal, (fun h => nomatch h)⟩
  intro i k
  refine iff_of_false (by simp [new]) ?_
  rintro ⟨t, ht, -⟩
  cases ht

/-- The free permits of the manager's semaphores, with those that are acquired and not claimed. -/
def State.permits (s : State) : Nat :=
  s.main.total + s.flow.replaySlots.elim 0 fun k => (s.semaphores k).total

theorem Sound.permits_le (hs : Sound s) : s.permits ≤ s.reserved := by
  unfold permits reserved
  cases hslots : s.flow.replaySlots with
  | none => exact Nat.le_add_right _ _
  | some k => rw [hs.active k hslots]

/-- In every run with distinct packet identifiers, a PUBLISH is admitted only where fewer exchanges
than the connection's Receive Maximum are in flight, and only with a permit of a semaphore that
was issued for the connection.  Unless the quota has been closed with a replay unfinished, the
permits of the manager's semaphores and the exchanges in flight add up to the Receive Maximum
and the debt; if it has, to no more than that, until the next connection. -/
theorem receive_maximum_respected {receiveMaximum : UInt16} (hpositive : receiveMaximum ≠ 0)
    (hrun : Reachable act Proper (new receiveMaximum) s) :
    (∀ i s', act s (.admission i) = some s' →
      s.flow.inFlight.card < s.flow.receiveMaximum.toNat ∧
        ∃ packetId k, s.tasks i = some ⟨packetId, .claiming k⟩ ∧
          (s.semaphores k).generation = s.flow.quotaGeneration) ∧
    (s.flow.replaySlots = s.unfinished →
      s.permits + s.flow.inFlight.card = s.flow.receiveMaximum.toNat + s.flow.quotaDebt) ∧
    s.permits + s.flow.inFlight.card ≤ s.flow.receiveMaximum.toNat + s.flow.quotaDebt := by
  have hs : Sound s := hrun.invariant (sound_new hpositive) fun _ _ _ hs hproper h =>
    hs.act hproper h
  refine ⟨?_, ?_, ?_⟩
  · intro i s' h
    dsimp only [act] at h
    split at h
    · rename_i packetId k htask
      obtain ⟨hless, hgeneration⟩ := hs.admitted htask
      exact ⟨hless, packetId, k, htask, hgeneration⟩
    · cases h
  · intro hsame
    have hexact := hs.exact hsame
    unfold permits
    rwa [reserved, ← hsame] at hexact
  · exact (Nat.add_le_add_right hs.permits_le _).trans hs.bounded

/-- A caller that is about to be admitted, with one exchange retained from the last connection. -/
theorem receive_maximum_respected_two :
    ∃ s s', act s (.admission 0) = some s' ∧ s.flow.receiveMaximum = 2 ∧ s.flow.inFlight = {7} ∧
      s.flow.inFlight.card < s.flow.receiveMaximum.toNat ∧
      s.permits + s.flow.inFlight.card = s.flow.receiveMaximum.toNat + s.flow.quotaDebt := by
  have hstart : Reachable act Proper (new 1) (new 1) := .start
  have hrun := hstart.follow (by simp [Proper]) (show follow act _
    [.resetForConnection 2 [7] false, .request 0 9, .read 0, .acquire 0, .claim 0] =
      some _ from rfl)
  obtain ⟨hless, hexact, -⟩ := receive_maximum_respected (by decide) hrun
  exact ⟨_, _, rfl, rfl, by decide, (hless 0 _ rfl).1, hexact rfl⟩

/-- A quota that is closed during a replay: the slots are not the manager's any more, and the
permits do not add up to the Receive Maximum. -/
theorem closed_during_replay :
    ∃ s, Reachable act Proper (new 1) s ∧ s.flow.receiveMaximum = 5 ∧ s.flow.quotaDebt = 0 ∧
      s.flow.inFlight = ∅ ∧ s.permits = 0 ∧
      s.permits + s.flow.inFlight.card ≠ s.flow.receiveMaximum.toNat + s.flow.quotaDebt := by
  refine ⟨_, Reachable.start.follow ?_ (show follow act _
    [.resetForConnection 5 [] true, .closeSendQuota] = some _ from rfl), rfl, rfl, rfl, by decide,
    by decide⟩
  simp [Proper]

end MqttLib.Client.SendQuota
