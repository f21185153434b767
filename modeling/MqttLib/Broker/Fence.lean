/-
MqttLib.Broker.Fence

The generation fence of the router (`register_session_as`, `subscribe_as`,
`unsubscribe_as`, `unsubscribe_by_flow`, `release_client`, `arm_will` and `claim_will` of
`router.rs`).  Handlers call these concurrently; a step is one lock that is taken, the
check of the generation, or the section that makes the change.  The lock of the clients
map is only ever held within one step.
-/

import MqttLib.Broker.Subscriptions
import MqttLib.Foundation.Reachable

namespace MqttLib.Broker.Fence

open Foundation Protocol Subscriptions Option Finmap Bool Function

/-! ## The operations -/

inductive Operation where
  | register (clientId : String) (generation : UInt64) (cleanStart : Bool)
  | subscribe (generation : Option UInt64) (request : SubscriptionRequest)
  | unsubscribe (generation : Option UInt64) (clientId topicFilter : String)
      (flowId : Option UInt64)
  | unsubscribeByFlow (generation : Option UInt64) (clientId : String) (flowId : UInt64)
  | release (clientId : String) (generation : UInt64) (preserveSession : Bool)
  | armWill (clientId : String) (generation : UInt64)
  | claimWill (clientId : String) (generation : UInt64)
  /-- The first section of `set_client_subscriptions`; a subscribe without a generation for
  each of the requests follows it. -/
  | prune (clientId : String) (requests : List SubscriptionRequest)

/-- What the operations share: the subscriptions, the generation in the entry of every client,
and the generation that armed its pending will. -/
structure Shared where
  subscriptions : Subscriptions := {}
  clients : Table String UInt64 := ∅
  pendingWills : Table String UInt64 := ∅

inductive Outcome where
  | registered
  | subscribed (outcome : Except MqttError Subscribed)
  | unsubscribed (outcome : Unsubscribed)
  | flowRemoved (filters : Finset String)
  | released (owned : Bool)
  | armed (armed : Bool)
  | claimed (claimed : Bool)
  | pruned

namespace Operation

def clientId : Operation → String
  | .register clientId _ _ | .unsubscribe _ clientId _ _ | .unsubscribeByFlow _ clientId _
  | .release clientId _ _ | .armWill clientId _ | .claimWill clientId _ | .prune clientId _ =>
    clientId
  | .subscribe _ request => request.clientId

/-- The generation an operation is issued with. -/
def generation : Operation → Option UInt64
  | .register _ generation _ | .release _ generation _ | .armWill _ generation
  | .claimWill _ generation => some generation
  | .subscribe generation _ | .unsubscribe generation _ _ _ | .unsubscribeByFlow generation _ _ =>
    generation
  | .prune _ _ => none

/-- Checks its generation under a lock of the subscriptions, before it changes them. -/
def checks : Operation → Bool
  | .subscribe .. | .unsubscribe .. | .unsubscribeByFlow .. => true
  | _ => false

def needsExact : Operation → Bool
  | .register _ _ cleanStart => cleanStart
  | .subscribe _ request => !hasWildcards request.actualFilter
  | .unsubscribe _ _ topicFilter _ => !hasWildcards (parseSharedSubscription topicFilter).1
  | .unsubscribeByFlow .. | .release .. | .prune .. => true
  | .armWill .. | .claimWill .. => false

def needsWildcard : Operation → Bool
  | .register _ _ cleanStart => cleanStart
  | .subscribe _ request => hasWildcards request.actualFilter
  | .unsubscribe _ _ topicFilter _ => hasWildcards (parseSharedSubscription topicFilter).1
  | .unsubscribeByFlow .. | .release .. | .prune .. => true
  | .armWill .. | .claimWill .. => false

/-- `generation_is_current`. -/
def isCurrent (op : Operation) (d : Shared) : Bool :=
  match op.generation with
  | none => true
  | some generation => d.clients.lookup op.clientId == some generation

/-- The last section of an operation, given what its check found. -/
def finish (op : Operation) (current : Bool) (d : Shared) : Shared × Outcome :=
  match op with
  | .register clientId generation _ =>
    ({ d with
       clients := d.clients.insert clientId generation
       pendingWills := d.pendingWills.erase clientId }, .registered)
  | .subscribe _ request =>
    if !current then (d, .subscribed (.ok .fenced))
    else match d.subscriptions.subscribe request with
      | .ok (subscriptions, outcome) => ({ d with subscriptions }, .subscribed (.ok outcome))
      | .error error => (d, .subscribed (.error error))
  | .unsubscribe _ clientId topicFilter flowId =>
    if !current then (d, .unsubscribed .fenced)
    else
      let (subscriptions, outcome) := d.subscriptions.unsubscribe clientId topicFilter flowId
      ({ d with subscriptions }, .unsubscribed outcome)
  | .unsubscribeByFlow _ clientId flowId =>
    if !current then (d, .flowRemoved ∅)
    else
      let (subscriptions, filters) := d.subscriptions.unsubscribeByFlow clientId flowId
      ({ d with subscriptions }, .flowRemoved filters)
  | .release clientId generation preserveSession =>
    if d.clients.lookup clientId ≠ some generation then (d, .released false)
    else
      ({ d with
         clients := d.clients.erase clientId
         subscriptions := if preserveSession then d.subscriptions
           else d.subscriptions.removeClientSubscriptions clientId }, .released true)
  | .armWill clientId generation =>
    if d.clients.lookup clientId ≠ some generation then (d, .armed false)
    else ({ d with pendingWills := d.pendingWills.insert clientId generation }, .armed true)
  | .claimWill clientId generation =>
    if d.pendingWills.lookup clientId ≠ some generation then (d, .claimed false)
    else ({ d with pendingWills := d.pendingWills.erase clientId }, .claimed true)
  | .prune clientId requests =>
    ({ d with subscriptions := d.subscriptions.prune clientId requests }, .pruned)

end Operation

/-! ## Concurrent handlers -/

/-- Where an operation stands: before its check, or its change if it has none; behind the
check, with its answer; a registration that has stripped the client's subscriptions. -/
inductive Stage where
  | acquiring
  | checked (current : Bool)
  | stripped
  | finished (outcome : Outcome)

structure Task where
  operation : Operation
  exact : Bool := false
  wildcard : Bool := false
  stage : Stage := .acquiring

namespace Task

def acquiring (t : Task) : Bool :=
  match t.stage with
  | .acquiring => true
  | _ => false

/-- Is behind its check, or has stripped the subscriptions. -/
def inside (t : Task) : Bool :=
  match t.stage with
  | .checked _ | .stripped => true
  | _ => false

/-- Has the locks its operation takes. -/
def holdsAll (t : Task) : Bool :=
  (!t.operation.needsExact || t.exact) && (!t.operation.needsWildcard || t.wildcard)

/-- The answer of the check, if the last section is next. -/
def ready (t : Task) : Option Bool :=
  match t.stage, t.operation with
  | .checked current, _ => some current
  | .stripped, .register .. => some true
  | .acquiring, .register _ _ false => some true
  | .acquiring, .release .. | .acquiring, .armWill .. | .acquiring, .claimWill ..
  | .acquiring, .prune .. => if t.holdsAll then some true else none
  | _, _ => none

end Task

structure State where
  shared : Shared := {}
  exactLock : Option Nat := none
  wildcardLock : Option Nat := none
  tasks : Nat → Option Task := fun _ => none

def State.setTask (s : State) (i : Nat) (t : Task) : State :=
  { s with tasks := update s.tasks i (some t) }

inductive Action where
  | begin (i : Nat) (op : Operation)
  | lockExact (i : Nat)
  | lockWildcard (i : Nat)
  | check (i : Nat)
  | strip (i : Nat)
  | finish (i : Nat)

def Action.task : Action → Nat
  | .begin i _ | .lockExact i | .lockWildcard i | .check i | .strip i | .finish i => i

def act (s : State) : Action → Option State
  | .begin i op =>
    match s.tasks i with
    | none => some (s.setTask i { operation := op })
    | some _ => none
  | .lockExact i =>
    match s.tasks i with
    | none => none
    | some t =>
      if t.acquiring && t.operation.needsExact && !t.exact && s.exactLock.isNone then
        some ({ s with exactLock := some i }.setTask i { t with exact := true })
      else none
  | .lockWildcard i =>
    match s.tasks i with
    | none => none
    | some t =>
      if t.acquiring && t.operation.needsWildcard && (!t.operation.needsExact || t.exact) &&
          !t.wildcard && s.wildcardLock.isNone then
        some ({ s with wildcardLock := some i }.setTask i { t with wildcard := true })
      else none
  | .check i =>
    match s.tasks i with
    | none => none
    | some t =>
      if t.acquiring && t.holdsAll && t.operation.checks then
        some (s.setTask i { t with stage := .checked (t.operation.isCurrent s.shared) })
      else none
  | .strip i =>
    match s.tasks i with
    | none => none
    | some t =>
      match t.operation with
      | .register clientId _ true =>
        if t.acquiring && t.holdsAll then
          some ({ s with
            shared := { s.shared with
              subscriptions := s.shared.subscriptions.removeClientSubscriptions clientId } }.setTask
            i { t with stage := .stripped })
        else none
      | _ => none
  | .finish i =>
    match s.tasks i with
    | none => none
    | some t =>
      match t.ready with
      | none => none
      | some current =>
        let (shared, outcome) := t.operation.finish current s.shared
        some ({ s with
          shared := shared
          exactLock := if t.exact then none else s.exactLock
          wildcardLock := if t.wildcard then none else s.wildcardLock }.setTask
          i { t with exact := false, wildcard := false, stage := .finished outcome })

variable {s s' : State} {a : Action} {i : Nat} {t : Task} {c : String} {g : UInt64}
  {exactLock wildcardLock : Option Nat} {current : Bool}

/-- What a step can be. -/
theorem act_cases (h : act s a = some s') :
    (∃ i op, a = .begin i op ∧ s.tasks i = none ∧ s' = s.setTask i { operation := op }) ∨
    ∃ i t, a.task = i ∧ s.tasks i = some t ∧
      ((a = .lockExact i ∧ t.acquiring ∧ s.exactLock = none ∧
          s' = { s with exactLock := some i }.setTask i { t with exact := true }) ∨
        (a = .lockWildcard i ∧ t.acquiring ∧ s.wildcardLock = none ∧
          s' = { s with wildcardLock := some i }.setTask i { t with wildcard := true }) ∨
        (a = .check i ∧ t.acquiring ∧ t.holdsAll ∧ t.operation.checks ∧
          s' = s.setTask i { t with stage := .checked (t.operation.isCurrent s.shared) }) ∨
        (∃ clientId generation, a = .strip i ∧ t.operation = .register clientId generation true ∧
          t.acquiring ∧ t.holdsAll ∧
          s' = { s with
            shared := { s.shared with
              subscriptions := s.shared.subscriptions.removeClientSubscriptions clientId } }.setTask
            i { t with stage := .stripped }) ∨
        (∃ current, a = .finish i ∧ t.ready = some current ∧
          s' = { s with
            shared := (t.operation.finish current s.shared).1
            exactLock := if t.exact then none else s.exactLock
            wildcardLock := if t.wildcard then none else s.wildcardLock }.setTask
            i { t with
                exact := false
                wildcard := false
                stage := .finished (t.operation.finish current s.shared).2 })) := by
  cases a
  case begin i op =>
    refine .inl ⟨i, op, rfl, ?_⟩
    dsimp only [act] at h
    split at h
    · rename_i hnone
      exact ⟨hnone, (some.inj h).symm⟩
    · cases h
  -- every other step is one of a task that has begun
  all_goals
    dsimp only [act] at h
    split at h
    · cases h
    rename_i i _ t htask
    refine .inr ⟨i, t, rfl, htask, ?_⟩
  · obtain ⟨hguard, rfl⟩ := ite_some_none_eq_some.mp h
    simp only [and_eq_true, isNone_iff_eq_none] at hguard
    exact .inl ⟨rfl, hguard.1.1.1, hguard.2, rfl⟩
  · obtain ⟨hguard, rfl⟩ := ite_some_none_eq_some.mp h
    simp only [and_eq_true, isNone_iff_eq_none] at hguard
    exact .inr (.inl ⟨rfl, hguard.1.1.1.1, hguard.2, rfl⟩)
  · obtain ⟨hguard, rfl⟩ := ite_some_none_eq_some.mp h
    simp only [and_eq_true] at hguard
    exact .inr (.inr (.inl ⟨rfl, hguard.1.1, hguard.1.2, hguard.2, rfl⟩))
  · split at h
    · rename_i clientId generation hop
      obtain ⟨hguard, rfl⟩ := ite_some_none_eq_some.mp h
      rw [and_eq_true] at hguard
      exact .inr (.inr (.inr (.inl ⟨clientId, generation, rfl, hop, hguard.1, hguard.2, rfl⟩)))
    · cases h
  · split at h
    · cases h
    · rename_i current hrdy
      exact .inr (.inr (.inr (.inr ⟨current, rfl, hrdy, (some.inj h).symm⟩)))

/-! ## What the last section can do -/

/-- Nothing of a client has changed. -/
structure SameFor (c : String) (d d' : Shared) : Prop where
  subscriptions : ∀ filter sub, sub.clientId = c →
    (sub ∈ d'.subscriptions.get filter ↔ sub ∈ d.subscriptions.get filter)
  entry : d'.clients.lookup c = d.clients.lookup c
  will : d'.pendingWills.lookup c = d.pendingWills.lookup c

def NoSubscriptions (c : String) (d : Shared) : Prop :=
  ∀ filter, ∀ sub ∈ d.subscriptions.get filter, sub.clientId ≠ c

namespace Operation

variable {op : Operation} {current : Bool} {c : String} {g : UInt64} {d : Shared}

/-- A displaced operation changes nothing: its check has failed, or it finds another
generation in the entry or the pending will. -/
theorem finish_displaced (hregs : ∀ cleanStart, op ≠ .register op.clientId g cleanStart)
    (hgen : op.generation = some g) (hent : d.clients.lookup op.clientId ≠ some g)
    (hwill : d.pendingWills.lookup op.clientId ≠ some g)
    (hcheck : op.checks → current = false) : (op.finish current d).1 = d := by
  cases op with
  | register clientId generation cleanStart =>
    cases hgen
    exact absurd rfl (hregs cleanStart)
  | subscribe generation request | unsubscribe generation clientId topicFilter flowId
  | unsubscribeByFlow generation clientId flowId => rw [hcheck rfl]; rfl
  | release clientId generation preserveSession | armWill clientId generation =>
    cases hgen
    exact congrArg Prod.fst (if_pos hent)
  | claimWill clientId generation =>
    cases hgen
    exact congrArg Prod.fst (if_pos hwill)
  | prune clientId _ => cases hgen

/-- An operation changes its own client only. -/
theorem finish_other (hne : op.clientId ≠ c) : SameFor c d (op.finish current d).1 := by
  have hsame : SameFor c d d := ⟨fun _ _ _ => Iff.rfl, rfl, rfl⟩
  cases op with
  | register clientId generation _ =>
    exact ⟨fun _ _ _ => Iff.rfl, lookup_insert_of_ne _ (Ne.symm hne), lookup_erase_ne (Ne.symm hne)⟩
  | subscribe generation _ =>
    dsimp only [finish]
    split
    · exact hsame
    split
    · rename_i hsubd
      refine ⟨fun filter sub hsub => ?_, rfl, rfl⟩
      exact mem_subscribe_of_ne hsubd fun heq => hne (heq.symm.trans hsub)
    · exact hsame
  | unsubscribe generation clientId topicFilter flowId =>
    dsimp only [finish]
    split
    · exact hsame
    refine ⟨fun filter sub hsub => ?_, rfl, rfl⟩
    rw [mem_unsubscribe]
    have hident : sub.identity ≠ (clientId, (parseSharedSubscription topicFilter).2, flowId) :=
      fun heq => hne ((congrArg Prod.fst heq).symm.trans hsub)
    simp [hident]
  | unsubscribeByFlow generation clientId flowId =>
    dsimp only [finish]
    split
    · exact hsame
    refine ⟨fun filter sub hsub => ?_, rfl, rfl⟩
    rw [mem_unsubscribeByFlow]
    have hcl : sub.clientId ≠ clientId := fun heq => hne (heq.symm.trans hsub)
    simp [hcl]
  | release clientId generation preserveSession =>
    dsimp only [finish]
    split
    · exact hsame
    refine ⟨fun filter sub hsub => ?_, lookup_erase_ne (Ne.symm hne), rfl⟩
    have hcl : sub.clientId ≠ clientId := fun heq => hne (heq.symm.trans hsub)
    cases preserveSession with
    | true => exact Iff.rfl
    | false =>
      rw [if_neg (by decide), mem_removeClientSubscriptions]
      simp [hcl]
  | armWill clientId generation =>
    dsimp only [finish]
    split
    · exact hsame
    · exact ⟨fun _ _ _ => Iff.rfl, rfl, lookup_insert_of_ne _ (Ne.symm hne)⟩
  | claimWill clientId generation =>
    dsimp only [finish]
    split
    · exact hsame
    · exact ⟨fun _ _ _ => Iff.rfl, rfl, lookup_erase_ne (Ne.symm hne)⟩
  | prune clientId requests =>
    refine ⟨fun filter sub hsub => ?_, rfl, rfl⟩
    have hcl : sub.clientId ≠ clientId := fun heq => hne (heq.symm.trans hsub)
    show sub ∈ (d.subscriptions.prune clientId requests).get filter ↔ _
    rw [mem_prune]
    simp [hcl]

/-- Only a subscribe that has passed its check adds a subscription, one of its client. -/
theorem mem_of_mem_finish {filter : String} {sub : Subscription}
    (hsub : sub ∈ (op.finish current d).1.subscriptions.get filter) :
    sub ∈ d.subscriptions.get filter ∨
      current ∧ ∃ generation request, op = .subscribe generation request ∧
        sub.clientId = request.clientId := by
  cases op with
  | register clientId generation _ => exact .inl hsub
  | subscribe generation request =>
    dsimp only [finish] at hsub
    cases current with
    | false => exact .inl hsub
    | true =>
      rw [if_neg (by decide)] at hsub
      split at hsub
      · rename_i hsubd
        by_cases hcl : sub.clientId = request.clientId
        · exact .inr ⟨rfl, generation, request, rfl, hcl⟩
        · exact .inl ((mem_subscribe_of_ne hsubd hcl).mp hsub)
      · exact .inl hsub
  | unsubscribe generation clientId _ flowId =>
    dsimp only [finish] at hsub
    split at hsub
    · exact .inl hsub
    · exact .inl (mem_unsubscribe.mp hsub).1
  | unsubscribeByFlow generation clientId flowId =>
    dsimp only [finish] at hsub
    split at hsub
    · exact .inl hsub
    · exact .inl (mem_unsubscribeByFlow.mp hsub).1
  | release clientId generation preserveSession =>
    dsimp only [finish] at hsub
    split at hsub
    · exact .inl hsub
    cases preserveSession with
    | true => exact .inl hsub
    | false => exact .inl (mem_removeClientSubscriptions.mp hsub).1
  | armWill clientId generation | claimWill clientId generation =>
    dsimp only [finish] at hsub
    split at hsub <;> exact .inl hsub
  | prune clientId _ => exact .inl (mem_prune.mp hsub).1

theorem finish_cases {d' : Shared} (hfin : (op.finish current d).1 = d') :
    d'.clients = d.clients ∧ d'.pendingWills = d.pendingWills ∨
    d'.clients = d.clients.erase op.clientId ∧ d'.pendingWills = d.pendingWills ∨
    d'.clients = d.clients ∧ d'.pendingWills = d.pendingWills.erase op.clientId ∨
    (∃ generation, d.clients.lookup op.clientId = some generation ∧ d'.clients = d.clients ∧
      d'.pendingWills = d.pendingWills.insert op.clientId generation) ∨
    ∃ generation cleanStart, op = .register op.clientId generation cleanStart ∧
      d'.clients = d.clients.insert op.clientId generation ∧
      d'.pendingWills = d.pendingWills.erase op.clientId := by
  subst hfin
  cases op with
  | register clientId generation cleanStart =>
    exact .inr (.inr (.inr (.inr ⟨generation, cleanStart, rfl, rfl, rfl⟩)))
  | subscribe generation _ =>
    dsimp only [finish]
    split
    · exact .inl ⟨rfl, rfl⟩
    · split <;> exact .inl ⟨rfl, rfl⟩
  | unsubscribe generation clientId topicFilter flowId
  | unsubscribeByFlow generation clientId flowId =>
    dsimp only [finish]
    split <;> exact .inl ⟨rfl, rfl⟩
  | release clientId generation _ =>
    dsimp only [finish]
    split
    · exact .inl ⟨rfl, rfl⟩
    · exact .inr (.inl ⟨rfl, rfl⟩)
  | armWill clientId generation =>
    dsimp only [finish]
    split
    · exact .inl ⟨rfl, rfl⟩
    · rename_i hent
      exact .inr (.inr (.inr (.inl ⟨generation, not_not.mp hent, rfl, rfl⟩)))
  | claimWill clientId generation =>
    dsimp only [finish]
    split
    · exact .inl ⟨rfl, rfl⟩
    · exact .inr (.inr (.inl ⟨rfl, rfl⟩))
  | prune clientId _ => exact .inl ⟨rfl, rfl⟩

/-- Only a registration puts a generation into the entry of a client. -/
theorem entry_of_finish (h : (op.finish current d).1.clients.lookup c = some g) :
    d.clients.lookup c = some g ∨ ∃ cleanStart, op = .register c g cleanStart := by
  by_cases hne : op.clientId = c
  · subst hne
    rcases finish_cases (d := d) rfl with ⟨hsame, -⟩ | ⟨hgone, -⟩ | ⟨hsame, -⟩ |
      ⟨-, -, hsame, -⟩ | ⟨generation, cleanStart, hop, hnew, -⟩
    · exact .inl (hsame ▸ h)
    · rw [hgone, lookup_erase] at h
      cases h
    iterate 2 exact .inl (hsame ▸ h)
    · rw [hnew, lookup_insert] at h
      obtain rfl := some.inj h
      exact .inr ⟨cleanStart, hop⟩
  · exact .inl ((finish_other hne).entry ▸ h)

/-- Only the generation in the entry of a client arms its will. -/
theorem will_of_finish (h : (op.finish current d).1.pendingWills.lookup c = some g) :
    d.pendingWills.lookup c = some g ∨ d.clients.lookup c = some g := by
  by_cases hne : op.clientId = c
  · subst hne
    rcases finish_cases (d := d) rfl with ⟨-, hsame⟩ | ⟨-, hsame⟩ | ⟨-, hgone⟩ |
      ⟨generation, hent, -, harmed⟩ | ⟨-, -, -, -, hgone⟩
    iterate 2 exact .inl (hsame ▸ h)
    · rw [hgone, lookup_erase] at h
      cases h
    · rw [harmed, lookup_insert] at h
      exact .inr (hent.trans h)
    · rw [hgone, lookup_erase] at h
      cases h
  · exact .inl ((finish_other hne).will ▸ h)

end Operation

/-! ## The locks -/

theorem tasks_setTask {j : Nat} {t' : Task}
    (h : (s.setTask i t).tasks j = some t') : (j = i ∧ t' = t) ∨ (j ≠ i ∧ s.tasks j = some t') := by
  replace h : update s.tasks i (some t) j = some t' := h
  by_cases hj : j = i
  · subst hj
    rw [update_self] at h
    exact .inl ⟨rfl, (some.inj h).symm⟩
  · rw [update_of_ne hj] at h
    exact .inr ⟨hj, h⟩

theorem not_inside_of_acquiring (h : t.acquiring) : t.inside = false := by
  unfold Task.acquiring at h
  unfold Task.inside
  cases hstg : t.stage <;> rw [hstg] at h <;> first | rfl | cases h

theorem stage_of_ready (hrdy : t.ready = some current)
    (hchecks : t.operation.checks) : t.stage = .checked current := by
  unfold Task.ready at hrdy
  cases hstg : t.stage with
  | checked _ =>
    rw [hstg] at hrdy
    rw [some.inj hrdy]
  | acquiring =>
    rw [hstg] at hrdy
    cases hop : t.operation <;> rw [hop] at hrdy hchecks <;> first | cases hrdy | cases hchecks
  | stripped =>
    rw [hstg] at hrdy
    cases hop : t.operation <;> rw [hop] at hrdy hchecks <;>
      first | (cases hrdy; done) | cases hchecks
  | finished _ =>
    rw [hstg] at hrdy
    cases hrdy

/-- Who holds what, and what holding it means. -/
structure Sound (s : State) : Prop where
  exact : ∀ i t, s.tasks i = some t → t.exact = true → s.exactLock = some i
  wildcard : ∀ i t, s.tasks i = some t → t.wildcard = true → s.wildcardLock = some i
  inside : ∀ i t, s.tasks i = some t → t.inside = true → t.holdsAll = true
  checked : ∀ i t current, s.tasks i = some t → t.stage = .checked current →
    t.operation.checks = true
  stripped : ∀ i t, s.tasks i = some t → t.stage = .stripped →
    ∃ c g, t.operation = .register c g true ∧ NoSubscriptions c s.shared

/-- No operation is behind its check while a registration has stripped subscriptions: it would
need a lock the registration has. -/
theorem Sound.not_checked (hs : Sound s) {j : Nat} {t' : Task}
    (hi : s.tasks i = some t) (hstrip : t.stage = .stripped) (hj : s.tasks j = some t')
    (hchk : t'.stage = .checked current) : False := by
  obtain ⟨c, g, hop, -⟩ := hs.stripped i t hi hstrip
  have hhold : t.exact ∧ t.wildcard := by
    have hall := hs.inside i t hi (by unfold Task.inside; rw [hstrip])
    unfold Task.holdsAll at hall
    rw [hop] at hall
    simpa [Operation.needsExact, Operation.needsWildcard] using hall
  have hneeds : t'.exact ∨ t'.wildcard := by
    have hall := hs.inside j t' hj (by unfold Task.inside; rw [hchk])
    have hchecks := hs.checked j t' current hj hchk
    unfold Task.holdsAll at hall
    rw [and_eq_true, or_eq_true, or_eq_true] at hall
    have hlocks : t'.operation.needsExact ∨ t'.operation.needsWildcard := by
      cases hop' : t'.operation with
      | subscribe generation request =>
        cases hwild : hasWildcards request.actualFilter <;>
          simp [Operation.needsExact, Operation.needsWildcard, hwild]
      | unsubscribe generation clientId topicFilter flowId =>
        cases hwild : hasWildcards (parseSharedSubscription topicFilter).1 <;>
          simp [Operation.needsExact, Operation.needsWildcard, hwild]
      | unsubscribeByFlow generation clientId flowId => exact .inl rfl
      | register clientId generation cleanStart | release clientId generation preserveSession
      | armWill clientId generation | claimWill clientId generation | prune clientId requests =>
        rw [hop'] at hchecks; cases hchecks
    rcases hlocks with hexact | hwild
    · exact .inl (by simpa [hexact] using hall.1)
    · exact .inr (by simpa [hwild] using hall.2)
  have hsame : i = j := by
    rcases hneeds with hexact | hwild
    · exact some.inj ((hs.exact i t hi hhold.1).symm.trans (hs.exact j t' hj hexact))
    · exact some.inj ((hs.wildcard i t hi hhold.2).symm.trans (hs.wildcard j t' hj hwild))
  subst hsame
  rw [hi] at hj
  obtain rfl := some.inj hj
  rw [hstrip] at hchk
  cases hchk

theorem sound_start (d : Shared) : Sound { shared := d } :=
  ⟨fun _ _ h => by (cases h), fun _ _ h => by (cases h), fun _ _ h => by (cases h),
    fun _ _ _ h => by (cases h), fun _ _ h => by (cases h)⟩

/-- A step of one task: it keeps to its own locks, and no registration that has stripped a
client's subscriptions sees one of them. -/
theorem Sound.update (hs : Sound s) {d : Shared} (hexact : t.exact → exactLock = some i)
    (hexact' : ∀ j, j ≠ i → s.exactLock = some j → exactLock = some j)
    (hwildcard : t.wildcard → wildcardLock = some i)
    (hwildcard' : ∀ j, j ≠ i → s.wildcardLock = some j → wildcardLock = some j)
    (hinside : t.inside → t.holdsAll)
    (hchk : ∀ current, t.stage = .checked current → t.operation.checks)
    (hstrip : t.stage = .stripped → ∃ c g, t.operation = .register c g true ∧ NoSubscriptions c d)
    (hoth : ∀ j u c, j ≠ i → s.tasks j = some u → u.stage = .stripped →
      NoSubscriptions c s.shared → NoSubscriptions c d) :
    Sound (State.setTask ⟨d, exactLock, wildcardLock, s.tasks⟩ i t) := by
  refine ⟨fun j u hj h => ?_, fun j u hj h => ?_, fun j u hj h => ?_, fun j u current hj h => ?_,
    fun j u hj h => ?_⟩
  all_goals rcases tasks_setTask hj with ⟨rfl, rfl⟩ | ⟨hne, hold⟩
  · exact hexact h
  · exact hexact' j hne (hs.exact j u hold h)
  · exact hwildcard h
  · exact hwildcard' j hne (hs.wildcard j u hold h)
  · exact hinside h
  · exact hs.inside j u hold h
  · exact hchk current h
  · exact hs.checked j u current hold h
  · exact hstrip h
  · obtain ⟨c, g, hop, hnone⟩ := hs.stripped j u hold h
    exact ⟨c, g, hop, hoth j u c hne hold h hnone⟩

theorem sound_step (hs : Sound s) (hact : act s a = some s') : Sound s' := by
  have habsurd : ∀ {p : Prop}, false → p := fun h => by cases h
  rcases act_cases hact with ⟨i, _, -, -, rfl⟩ | ⟨i, t, -, ht, hcases⟩
  · -- a new operation holds nothing
    exact hs.update habsurd (fun _ _ h => h) habsurd (fun _ _ h => h) habsurd
      (fun _ h => by cases h) (fun h => by cases h) (fun _ _ _ _ _ _ h => h)
  rcases hcases with ⟨-, hacq, hfree, rfl⟩ | ⟨-, hacq, hfree, rfl⟩ |
    ⟨-, hacq, hall, hchecks, rfl⟩ | ⟨c, g, -, hop, hacq, hall, rfl⟩ | ⟨current, -, hrdy, rfl⟩
  · -- the lock was free
    have hout := not_inside_of_acquiring hacq
    refine hs.update (fun _ => rfl) (fun j _ h => ?_) (hs.wildcard i t ht) (fun _ _ h => h)
      (fun h => habsurd (hout.symm.trans h)) (hs.checked i t · ht) (hs.stripped i t ht)
      (fun _ _ _ _ _ _ h => h)
    rw [hfree] at h
    cases h
  · have hout := not_inside_of_acquiring hacq
    refine hs.update (hs.exact i t ht) (fun _ _ h => h) (fun _ => rfl) (fun j _ h => ?_)
      (fun h => habsurd (hout.symm.trans h)) (hs.checked i t · ht) (hs.stripped i t ht)
      (fun _ _ _ _ _ _ h => h)
    rw [hfree] at h
    cases h
  · exact hs.update (hs.exact i t ht) (fun _ _ h => h) (hs.wildcard i t ht) (fun _ _ h => h)
      (fun _ => hall) (fun _ _ => hchecks) (fun h => by cases h) (fun _ _ _ _ _ _ h => h)
  · refine hs.update (hs.exact i t ht) (fun _ _ h => h) (hs.wildcard i t ht) (fun _ _ h => h)
      (fun _ => hall) (fun _ h => by cases h) (fun _ => ⟨c, g, hop, ?_⟩) ?_
    · exact fun filter sub hsub => (mem_removeClientSubscriptions.mp hsub).2
    · exact fun _ _ _ _ _ _ hnone filter sub hsub =>
        hnone filter sub (mem_removeClientSubscriptions.mp hsub).1
  · -- the locks of the others stay; what is added comes from behind a check
    refine hs.update habsurd (fun j hne h => ?_) habsurd (fun j hne h => ?_) habsurd
      (fun _ h => by cases h) (fun h => by cases h)
      (fun j u c _ hj hstrip hnone filter sub hsub => ?_)
    · rw [if_neg ?_]
      · exact h
      · exact fun hheld => hne (some.inj (h.symm.trans (hs.exact i t ht hheld)))
    · rw [if_neg ?_]
      · exact h
      · exact fun hheld => hne (some.inj (h.symm.trans (hs.wildcard i t ht hheld)))
    · rcases Operation.mem_of_mem_finish hsub with hold | ⟨rfl, _, _, hop, -⟩
      · exact hnone filter sub hold
      · have hstg := stage_of_ready hrdy (by rw [hop]; rfl)
        exact (hs.not_checked hj hstrip ht hstg).elim

/-! ## The fence -/

/-- A step of a registration for the client: it strips the subscriptions or takes the entry. -/
def RegistersFor (c : String) (s : State) : Action → Prop
  | .strip i | .finish i => ∃ t g cleanStart, s.tasks i = some t ∧
      t.operation = .register c g cleanStart
  | _ => False

/-- A generation, or the holder of the client's slot, adds a subscription. -/
def AddsFor (c : String) (g : UInt64) (s : State) : Action → Prop
  | .finish i => ∃ t generation request, s.tasks i = some t ∧
      t.operation = .subscribe generation request ∧ request.clientId = c ∧
      (generation = none ∨ generation = some g)
  | _ => False

/-- No operation of another generation is between its check and its change. -/
def Undisturbed (c : String) (g : UInt64) (s : State) : Prop :=
  ∀ i t g', s.tasks i = some t → t.stage = .checked true → t.operation.clientId = c →
    t.operation.generation = some g' → g' = g

/-- No generation but this one can change the client. -/
structure Owns (c : String) (g : UInt64) (s : State) : Prop where
  entry : ∀ g', s.shared.clients.lookup c = some g' → g' = g
  will : ∀ g', s.shared.pendingWills.lookup c = some g' → g' = g
  undisturbed : Undisturbed c g s

/-- A step of a task that is not left between its check and its change, or is of the
generation. -/
theorem Undisturbed.setTask (h : Undisturbed c g s) {d : Shared}
    (hown : ∀ g', t.stage = .checked true → t.operation.clientId = c →
      t.operation.generation = some g' → g' = g) :
    Undisturbed c g (State.setTask ⟨d, exactLock, wildcardLock, s.tasks⟩ i t) := by
  intro j u g' hj hchk hcl hgen
  rcases tasks_setTask hj with ⟨-, rfl⟩ | ⟨-, hold⟩
  · exact hown g' hchk hcl hgen
  · exact h j u g' hold hchk hcl hgen

/-- The client is owned until the next registration takes its entry. -/
theorem owns_step (howns : Owns c g s) (hoth : ¬ RegistersFor c s a)
    (hact : act s a = some s') : Owns c g s' := by
  rcases act_cases hact with ⟨i, _, -, -, rfl⟩ | ⟨i, t, -, ht, hcases⟩
  · exact ⟨howns.entry, howns.will, howns.undisturbed.setTask fun _ h => by cases h⟩
  rcases hcases with ⟨-, hacq, hfree, rfl⟩ | ⟨-, hacq, hfree, rfl⟩ |
    ⟨-, hacq, hall, hchecks, rfl⟩ | ⟨c', g', -, hop, hacq, hall, rfl⟩ | ⟨current, rfl, hrdy, rfl⟩
  iterate 2
    exact ⟨howns.entry, howns.will, howns.undisturbed.setTask (howns.undisturbed i t · ht)⟩
  · -- the check compares with the entry
    refine ⟨howns.entry, howns.will, howns.undisturbed.setTask fun g' h hcl hgen => ?_⟩
    have hcur : t.operation.isCurrent s.shared := Stage.checked.inj h
    unfold Operation.isCurrent at hcur
    replace hcl : t.operation.clientId = c := hcl
    replace hgen : t.operation.generation = some g' := hgen
    rw [hgen, hcl] at hcur
    exact howns.entry g' (by simpa using hcur)
  · exact ⟨howns.entry, howns.will, howns.undisturbed.setTask fun _ h => by cases h⟩
  · refine ⟨fun g' hent => ?_, fun g' hwill => ?_,
      howns.undisturbed.setTask fun _ h => by cases h⟩
    · rcases Operation.entry_of_finish hent with hold | ⟨cleanStart, hop⟩
      · exact howns.entry g' hold
      · exact (hoth ⟨t, g', cleanStart, ht, hop⟩).elim
    · rcases Operation.will_of_finish hwill with hold | hold
      · exact howns.will g' hold
      · exact howns.entry g' hold

/-- A step of another generation leaves the client as it is. -/
theorem owns_fences {g g' : UInt64} (howns : Owns c g s) (hoth : ¬ RegistersFor c s a)
    (htask : s.tasks a.task = some t) (hgen : t.operation.generation = some g') (hne : g' ≠ g)
    (hact : act s a = some s') : SameFor c s.shared s'.shared := by
  have hsame : SameFor c s.shared s.shared := ⟨fun _ _ _ => Iff.rfl, rfl, rfl⟩
  rcases act_cases hact with ⟨i, _, -, -, rfl⟩ | ⟨i, u, hi, hu, hcases⟩
  · exact hsame
  subst hi
  rw [htask] at hu
  obtain rfl := some.inj hu
  rcases hcases with ⟨-, -, -, rfl⟩ | ⟨-, -, -, rfl⟩ | ⟨-, -, -, -, rfl⟩ |
    ⟨c', g'', ha, hop, -, -, rfl⟩ | ⟨current, ha, hrdy, rfl⟩
  · exact hsame
  · exact hsame
  · exact hsame
  · refine ⟨fun filter sub hsub => ?_, rfl, rfl⟩
    have hcl : sub.clientId ≠ c' := by
      rintro rfl
      rw [hsub] at hop
      rw [ha] at hoth
      exact hoth ⟨t, g'', true, htask, hop⟩
    show sub ∈ (s.shared.subscriptions.removeClientSubscriptions c').get filter ↔ _
    rw [mem_removeClientSubscriptions]
    simp [hcl]
  · by_cases hcl : t.operation.clientId = c
    · -- its check has failed, and neither the entry nor the will is of its generation
      have hdisp : (t.operation.finish current s.shared).1 = s.shared := by
        refine Operation.finish_displaced (g := g') ?_ hgen ?_ ?_ ?_
        · intro cleanStart hop
          rw [hcl] at hop
          rw [ha] at hoth
          exact hoth ⟨t, g', cleanStart, htask, hop⟩
        · exact fun hent => hne (howns.entry g' (hcl ▸ hent))
        · exact fun hwill => hne (howns.will g' (hcl ▸ hwill))
        · intro hchecks
          have hstg := stage_of_ready hrdy hchecks
          cases current with
          | false => rfl
          | true => exact (hne (howns.undisturbed _ t g' htask hstg hcl hgen)).elim
      show SameFor c s.shared (t.operation.finish current s.shared).1
      rw [hdisp]
      exact hsame
    · exact Operation.finish_other hcl

/-- Without a subscription of its own generation, or of the holder of the slot, a client that
has none gets none. -/
theorem noSubscriptions_step (howns : Owns c g s) (hnone : NoSubscriptions c s.shared)
    (hadds : ¬ AddsFor c g s a) (hact : act s a = some s') : NoSubscriptions c s'.shared := by
  rcases act_cases hact with ⟨i, _, -, -, rfl⟩ | ⟨i, t, -, ht, hcases⟩
  · exact hnone
  rcases hcases with ⟨-, -, -, rfl⟩ | ⟨-, -, -, rfl⟩ | ⟨-, -, -, -, rfl⟩ |
    ⟨c', g', -, hop, -, -, rfl⟩ | ⟨current, rfl, hrdy, rfl⟩
  · exact hnone
  · exact hnone
  · exact hnone
  · exact fun filter sub hsub =>
      hnone filter sub (mem_removeClientSubscriptions.mp hsub).1
  · intro filter sub hsub hcl
    rcases Operation.mem_of_mem_finish hsub with hold | ⟨rfl, generation, request, hop, hrequest⟩
    · exact hnone filter sub hold hcl
    · have hstg := stage_of_ready hrdy (by rw [hop]; rfl)
      refine hadds ⟨t, generation, request, ht, hop, hrequest.symm.trans hcl, ?_⟩
      cases generation with
      | none => exact .inl rfl
      | some g' =>
        have hg' := howns.undisturbed i t g' ht hstg (by rw [hop]; exact hrequest.symm.trans hcl)
          (by rw [hop]; rfl)
        exact .inr (by rw [hg'])

/-- A registration owns the client from its last section on: a clean start because nobody is
behind a check while it has the locks, any other if nobody of another generation is. -/
theorem owns_of_register {cleanStart : Bool} (hs : Sound s)
    (htask : s.tasks i = some t) (hop : t.operation = .register c g cleanStart)
    (hundisturbed : cleanStart = false → Undisturbed c g s) (hact : act s (.finish i) = some s') :
    Owns c g s' ∧ (cleanStart → NoSubscriptions c s'.shared) := by
  rcases act_cases hact with ⟨j, _, ha, -, -⟩ | ⟨j, u, hj, hu, hcases⟩
  · cases ha
  obtain rfl : i = j := hj
  rw [htask] at hu
  obtain rfl := some.inj hu
  rcases hcases with ⟨ha, -⟩ | ⟨ha, -⟩ | ⟨ha, -⟩ | ⟨_, _, ha, -⟩ | ⟨current, -, hrdy, rfl⟩
  iterate 4 cases ha
  have hstrip : cleanStart → t.stage = .stripped := by
    rintro rfl
    unfold Task.ready at hrdy
    rw [hop] at hrdy
    cases hstg : t.stage with
    | stripped => rfl
    | checked answer =>
      have hchecks := hs.checked i t answer htask hstg
      rw [hop] at hchecks
      cases hchecks
    | acquiring | finished outcome => rw [hstg] at hrdy; cases hrdy
  have hdata : (t.operation.finish current s.shared).1 =
      { s.shared with
        clients := s.shared.clients.insert c g
        pendingWills := s.shared.pendingWills.erase c } := by rw [hop]; rfl
  refine ⟨⟨fun g' hent => ?_, fun g' hwill => ?_, fun j u g' hj hchk hcl hgen => ?_⟩,
    fun hclean => ?_⟩
  · replace hent : (t.operation.finish current s.shared).1.clients.lookup c = some g' := hent
    rw [hdata, lookup_insert] at hent
    exact (some.inj hent).symm
  · replace hwill : (t.operation.finish current s.shared).1.pendingWills.lookup c = some g' := hwill
    rw [hdata, lookup_erase] at hwill
    cases hwill
  · rcases tasks_setTask hj with ⟨-, rfl⟩ | ⟨-, hold⟩
    · cases hchk
    cases cleanStart with
    | true => exact (hs.not_checked htask (hstrip rfl) hold hchk).elim
    | false => exact hundisturbed rfl j u g' hold hchk hcl hgen
  · show NoSubscriptions c (t.operation.finish current s.shared).1
    rw [hdata]
    obtain ⟨_, g', hop', hnone⟩ := hs.stripped i t htask (hstrip hclean)
    rw [hop] at hop'
    cases hop'
    exact hnone

/-- After a generation has registered for a client, until the next registration for it, no
operation of another generation changes the client's subscriptions, entry or pending will,
and after a clean start the client has no subscription until its own generation, or the
holder of its slot, adds one.  A registration that does not start clean has to find no
operation of another generation between its check and its change. -/
theorem generation_fence (d : Shared) {c : String} {g : UInt64} {cleanStart : Bool}
    {s s₁ : State} {i : Nat} {t : Task}
    (hrun : Reachable act (fun _ _ => True) { shared := d } s) (htask : s.tasks i = some t)
    (hop : t.operation = .register c g cleanStart)
    (hundisturbed : cleanStart = false → Undisturbed c g s)
    (hregister : act s (.finish i) = some s₁) :
    (∀ s₂, Reachable act (fun s a => ¬ RegistersFor c s a) s₁ s₂ →
      ∀ a s₃ u g', s₂.tasks a.task = some u → u.operation.generation = some g' → g' ≠ g →
        ¬ RegistersFor c s₂ a → act s₂ a = some s₃ → SameFor c s₂.shared s₃.shared) ∧
    (cleanStart = true →
      ∀ s₂, Reachable act (fun s a => ¬ RegistersFor c s a ∧ ¬ AddsFor c g s a) s₁ s₂ →
        NoSubscriptions c s₂.shared) := by
  have hsound : Sound s :=
    hrun.invariant (sound_start d) fun _ _ _ hs _ hact => sound_step hs hact
  obtain ⟨howns, hclean⟩ := owns_of_register hsound htask hop hundisturbed hregister
  constructor
  · intro s₂ hrun₂ a s₃ u g' hu hgeneration hne hother hact
    have howns₂ : Owns c g s₂ :=
      hrun₂.invariant howns fun _ _ _ ho hcond hact => owns_step ho hcond hact
    exact owns_fences howns₂ hother hu hgeneration hne hact
  · intro hstart s₂ hrun₂
    have hboth : Owns c g s₁ ∧ NoSubscriptions c s₁.shared := ⟨howns, hclean hstart⟩
    have hboth₂ : Owns c g s₂ ∧ NoSubscriptions c s₂.shared := by
      refine hrun₂.invariant (p := fun s => Owns c g s ∧ NoSubscriptions c s.shared) hboth
        fun _ _ _ hinv hcond hact => ?_
      exact ⟨owns_step hinv.1 hcond.1 hact, noSubscriptions_step hinv.1 hinv.2 hcond.2 hact⟩
    exact hboth₂.2

/-! ### A take-over while a subscribe is under way -/

def request : SubscriptionRequest := { clientId := "c", topicFilter := "a", qos := .atMostOnce }

/-- Generation 1 has begun to subscribe when generation 2 comes, which does not start clean. -/
def takeOver : List Action :=
  [.begin 0 (.register "c" 1 false), .finish 0, .begin 1 (.subscribe (some 1) request),
    .begin 2 (.register "c" 2 false)]

theorem generation_fence_takeOver : ∃ s s₁, follow act {} takeOver = some s ∧
    act s (.finish 2) = some s₁ ∧
    ∀ s₂, Reachable act (fun s a => ¬ RegistersFor "c" s a) s₁ s₂ →
      ∀ a s₃ u g', s₂.tasks a.task = some u → u.operation.generation = some g' → g' ≠ 2 →
        ¬ RegistersFor "c" s₂ a → act s₂ a = some s₃ → SameFor "c" s₂.shared s₃.shared := by
  refine ⟨_, _, rfl, rfl, ?_⟩
  have hstart : Reachable act (fun _ _ => True) {} {} := .start
  have hrun := hstart.follow (fun _ _ _ => trivial) (show follow act {} takeOver = some _ from rfl)
  refine (generation_fence (i := 2) {} hrun rfl rfl (fun _ => ?_) rfl).1
  -- no operation has come to its check
  intro i t g' hi hchecked
  iterate 4
    rcases tasks_setTask hi with ⟨-, rfl⟩ | ⟨-, hi⟩
    · cases hchecked
  cases hi

/-- The subscribe of generation 1 has passed its check when generation 2 takes the entry: it
subscribes the client all the same. -/
theorem subscribe_behind_takeOver : ∃ s s₁ s₂ u,
    follow act {} [.begin 0 (.register "c" 1 false), .finish 0,
      .begin 1 (.subscribe (some 1) request), .lockExact 1, .check 1,
      .begin 2 (.register "c" 2 false)] = some s ∧
    act s (.finish 2) = some s₁ ∧ s₁.shared.clients.lookup "c" = some 2 ∧
    s₁.tasks 1 = some u ∧ u.operation.generation = some 1 ∧ ¬ RegistersFor "c" s₁ (.finish 1) ∧
    act s₁ (.finish 1) = some s₂ ∧ ¬ SameFor "c" s₁.shared s₂.shared := by
  refine ⟨_, _, _, _, rfl, rfl, rfl, rfl, rfl, ?_, rfl, ?_⟩
  · rintro ⟨t, g, _, ht, hop⟩
    cases ht
    cases hop
  · intro hsame
    have hiff := hsame.subscriptions "a" request.subscription rfl
    exact List.not_mem_nil (hiff.mp (mem_place.mpr (.inl ⟨rfl, rfl⟩)))

/-! ## No deadlock -/

/-- A lock that is taken has an owner that is under way, and an operation takes the wildcard
lock last. -/
structure Owned (s : State) : Prop where
  exact : ∀ i, s.exactLock = some i → ∃ t, s.tasks i = some t ∧ t.exact
  wildcard : ∀ i, s.wildcardLock = some i → ∃ t, s.tasks i = some t ∧ t.wildcard
  last : ∀ i t, s.tasks i = some t → t.wildcard → t.operation.needsExact → t.exact
  under : ∀ i t, s.tasks i = some t → t.exact || t.wildcard → t.acquiring || t.inside

theorem Owned.step (h : Owned s) (hact : act s a = some s') : Owned s' := by
  have hlast : ∀ i t, a = .lockWildcard i → s.tasks i = some t → t.operation.needsExact →
      t.exact := by
    rintro i t rfl htask hneeds
    simp only [act, htask, hneeds] at hact
    grind
  obtain ⟨hexact, hwild, hord, hunder⟩ := h
  rcases act_cases hact with ⟨i, op, rfl, hnone, rfl⟩ | ⟨i, t, -, htask, hcase⟩
  · constructor <;> simp only [State.setTask, update] <;> grind
  rcases hcase with ⟨rfl, hacq, hfree, rfl⟩ | ⟨rfl, hacq, hfree, rfl⟩ | ⟨rfl, hacq, -, -, rfl⟩ |
    ⟨_, _, rfl, -, hacq, -, rfl⟩ | ⟨_, rfl, -, rfl⟩
  all_goals constructor <;> simp only [State.setTask, update] <;>
    grind [Task.acquiring, Task.inside]

/-- An operation that has begun can take its next step. -/
def State.Advances (s : State) : Prop := ∃ a t, s.tasks a.task = some t ∧ (act s a).isSome

/-- An operation that has its locks waits for nobody. -/
theorem Sound.advances (hs : Sound s) (htask : s.tasks i = some t)
    (hopen : t.acquiring || t.inside) (hall : t.holdsAll) : s.Advances := by
  have hfinish : t.ready.isSome → s.Advances := by
    intro hready
    obtain ⟨current, hcurrent⟩ := Option.isSome_iff_exists.mp hready
    exact ⟨.finish i, t, htask, by simp [act, htask, hcurrent]⟩
  cases hstg : t.stage with
  | finished => simp [Task.acquiring, Task.inside, hstg] at hopen
  | checked => exact hfinish (by simp [Task.ready, hstg])
  | stripped =>
    obtain ⟨_, _, hop, -⟩ := hs.stripped i t htask hstg
    exact hfinish (by simp [Task.ready, hstg, hop])
  | acquiring =>
    cases hop : t.operation with
    | subscribe | unsubscribe | unsubscribeByFlow =>
      exact ⟨.check i, t, htask, by
        simp [act, htask, Task.acquiring, hstg, hall, hop, Operation.checks]⟩
    | register _ _ cleanStart =>
      cases cleanStart with
      | true => exact ⟨.strip i, t, htask, by simp [act, htask, Task.acquiring, hstg, hall, hop]⟩
      | false => exact hfinish (by simp [Task.ready, hstg, hop])
    | _ => exact hfinish (by simp [Task.ready, hstg, hop, hall])

/-- However the operations interleave, they do not wait for each other in a circle: as long as
one of them has not finished, one of them can take its next step. -/
theorem operations_advance (d : Shared)
    (hrun : Reachable act (fun _ _ => True) { shared := d } s) (htask : s.tasks i = some t)
    (hopen : t.acquiring || t.inside) : s.Advances := by
  have hs : Sound s := hrun.invariant (sound_start d) fun _ _ _ hs _ hact => sound_step hs hact
  have ho : Owned s := by
    refine hrun.invariant ⟨nofun, nofun, fun _ _ h => ?_, fun _ _ h => ?_⟩ fun _ _ _ h _ => h.step
    all_goals cases h
  -- without the wildcard lock: it is free, or its owner has all it needs
  have hwild : ∀ j u, s.tasks j = some u → u.acquiring || u.inside →
      (u.operation.needsExact → u.exact) → s.Advances := by
    intro j u hu hopen hexact
    by_cases hall : u.holdsAll
    · exact hs.advances hu hopen hall
    cases hlock : s.wildcardLock with
    | none =>
      have := hs.inside j u hu
      exact ⟨.lockWildcard j, u, hu, by grind [act, Task.holdsAll]⟩
    | some k =>
      obtain ⟨v, hv, hheld⟩ := ho.wildcard k hlock
      have := ho.last k v hv hheld
      exact hs.advances hv (ho.under k v hv (by simp [hheld])) (by grind [Task.holdsAll])
  by_cases hexact : t.operation.needsExact → t.exact
  · exact hwild i t htask hopen hexact
  cases hlock : s.exactLock with
  | none =>
    have := hs.inside i t htask
    exact ⟨.lockExact i, t, htask, by grind [act, Task.holdsAll]⟩
  | some j =>
    obtain ⟨u, hu, hheld⟩ := ho.exact j hlock
    exact hwild j u hu (ho.under j u hu (by simp [hheld])) fun _ => hheld

/-- A registration that starts clean waits for the lock of a subscribe. -/
def waiting : List Action :=
  [.begin 0 (.subscribe none request), .lockExact 0, .begin 1 (.register "c" 2 true)]

theorem operations_advance_waiting : ∃ s, follow act {} waiting = some s ∧
    act s (.lockExact 1) = none ∧ s.Advances := by
  have hstart : Reachable act (fun _ _ => True) {} {} := .start
  have hrun := hstart.follow (fun _ _ _ => trivial) (show follow act {} waiting = some _ from rfl)
  exact ⟨_, rfl, rfl, operations_advance {} hrun (show State.tasks _ 1 = _ from rfl) rfl⟩

end MqttLib.Broker.Fence
