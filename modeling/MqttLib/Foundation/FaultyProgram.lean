/-
MqttLib.Foundation.FaultyProgram

Imperative programs that keep a private state `σ` and call a device whose
answers they do not control.  A device is a relation: calling `o` on the
device state `d` may answer `r` and leave `d'`.  Faults are answers, so a
program's error paths are part of its tree.

`Prog.Safe dev I p Q s d` is a crash-Hoare assertion: at every point of every
execution of `p` from `s`, `d` the crash invariant `I` holds, and whatever `p`
returns satisfies `Q`.  It is defined by recursion on the program, composes
over sequencing (`Prog.safe_bind`), and is kept by single steps
(`Prog.Safe.step`), which is how a machine that runs the program in the
background uses it.
-/

import Mathlib.Logic.Relation

namespace MqttLib.Foundation

/-- Programs over a private state `σ` and device operations `Op`. -/
inductive Prog (σ Op : Type) (Resp : Op → Type) (α : Type) where
  | ret (a : α)
  | read (k : σ → Prog σ Op Resp α)
  | write (s : σ) (k : Prog σ Op Resp α)
  | call (o : Op) (k : Resp o → Prog σ Op Resp α)

namespace Prog

variable {σ Op D α β : Type} {Resp : Op → Type}

def bind : Prog σ Op Resp α → (α → Prog σ Op Resp β) → Prog σ Op Resp β
  | .ret a, f => f a
  | .read k, f => .read fun s => (k s).bind f
  | .write s k, f => .write s (k.bind f)
  | .call o k, f => .call o fun r => (k r).bind f

instance : Monad (Prog σ Op Resp) where
  pure := .ret
  bind := bind

/-- Read the private state. -/
def get : Prog σ Op Resp σ := .read .ret

/-- Replace the private state. -/
def set (s : σ) : Prog σ Op Resp Unit := .write s (.ret ())

/-- Change the private state. -/
def modify (f : σ → σ) : Prog σ Op Resp Unit := .read fun s => .write (f s) (.ret ())

/-- Call the device. -/
def ask (o : Op) : Prog σ Op Resp (Resp o) := .call o .ret

/-- The device as a relation: operation, state before, answer, state after. -/
abbrev Device (Op D : Type) (Resp : Op → Type) := (o : Op) → D → Resp o → D → Prop

/-! ## Execution -/

/-- One step of a program together with its private state and the device. -/
inductive Step (dev : Device Op D Resp) :
    Prog σ Op Resp α × σ × D → Prog σ Op Resp α × σ × D → Prop where
  | read (k s d) : Step dev (.read k, s, d) (k s, s, d)
  | write (s' k s d) : Step dev (.write s' k, s, d) (k, s', d)
  | call (o k s d r d') (h : dev o d r d') : Step dev (.call o k, s, d) (k r, s, d')

/-- `p` started in `s`, `d` can return `a` in `s'`, `d'`. -/
def Ends (dev : Device Op D Resp) (p : Prog σ Op Resp α) (s : σ) (d : D) (a : α) (s' : σ)
    (d' : D) : Prop :=
  Relation.ReflTransGen (Step dev) (p, s, d) (.ret a, s', d')

/-- Execution against a device that answers by a function; `none` where it has no
answer. -/
def run (perform : (o : Op) → D → Option (Resp o × D)) :
    Prog σ Op Resp α → σ → D → Option (α × σ × D)
  | .ret a, s, d => some (a, s, d)
  | .read k, s, d => (k s).run perform s d
  | .write s' k, _, d => k.run perform s' d
  | .call o k, s, d =>
    match perform o d with
    | none => none
    | some (r, d') => (k r).run perform s d'

/-- Running against allowed answers is one of the executions. -/
theorem ends_of_run {dev : Device Op D Resp} {perform : (o : Op) → D → Option (Resp o × D)}
    (h : ∀ o d r d', perform o d = some (r, d') → dev o d r d') {p : Prog σ Op Resp α} {s s' : σ}
    {d d' : D} {a : α} (hrun : p.run perform s d = some (a, s', d')) : Ends dev p s d a s' d' := by
  induction p generalizing s d with
  | ret b =>
    cases hrun
    exact .refl
  | read k ih => exact .head (.read k s d) (ih s hrun)
  | write t k ih => exact .head (.write t k s d) (ih hrun)
  | call o k ih =>
    rw [run] at hrun
    cases hans : perform o d with
    | none =>
      rw [hans] at hrun
      cases hrun
    | some answer =>
      obtain ⟨r, d₁⟩ := answer
      rw [hans] at hrun
      exact .head (.call o k s d r d₁ (h o d r d₁ hans)) (ih r hrun)

/-! ## Crash-Hoare assertions -/

/-- Every state `p` passes through before it returns satisfies `I`, and every result it
returns satisfies `Q`. -/
def Safe (dev : Device Op D Resp) (I : σ → D → Prop) :
    Prog σ Op Resp α → (α → σ → D → Prop) → σ → D → Prop
  | .ret a, Q, s, d => Q a s d
  | .read k, Q, s, d => I s d ∧ (k s).Safe dev I Q s d
  | .write s' k, Q, s, d => I s d ∧ k.Safe dev I Q s' d
  | .call o k, Q, s, d => I s d ∧ ∀ r d', dev o d r d' → (k r).Safe dev I Q s d'

section Safe

variable {dev : Device Op D Resp} {I : σ → D → Prop}

variable {p : Prog σ Op Resp α} {Q : β → σ → D → Prop} {f : Unit → Prog σ Op Resp β}

/-- The state of a program that has not returned. -/
theorem Safe.now {Q s d} (h : p.Safe dev I Q s d) : I s d ∨ ∃ a, p = .ret a ∧ Q a s d := by
  cases p with
  | ret a => exact .inr ⟨a, rfl, h⟩
  | read k => exact .inl h.1
  | write _ k => exact .inl h.1
  | call o k => exact .inl h.1

theorem Safe.mono {I' : σ → D → Prop} {Q Q' : α → σ → D → Prop} {s d} (h : p.Safe dev I Q s d)
    (hI : ∀ s d, I s d → I' s d) (hQ : ∀ a s d, Q a s d → Q' a s d) : p.Safe dev I' Q' s d := by
  induction p generalizing s d with
  | ret a => exact hQ a s d h
  | read k ih => exact ⟨hI _ _ h.1, ih s h.2⟩
  | write _ k ih => exact ⟨hI _ _ h.1, ih h.2⟩
  | call o k ih => exact ⟨hI _ _ h.1, fun r d' hd => ih r (h.2 r d' hd)⟩

theorem Safe.mono_post {Q Q' : α → σ → D → Prop} {s d} (h : p.Safe dev I Q s d)
    (hQ : ∀ a s d, Q a s d → Q' a s d) : p.Safe dev I Q' s d :=
  h.mono (fun _ _ hI => hI) hQ

@[simp] theorem safe_pure {a : α} {Q : α → σ → D → Prop} {s d} :
    (pure a : Prog σ Op Resp α).Safe dev I Q s d ↔ Q a s d := Iff.rfl

/-- Sequencing: the second program starts from what the first one ensures. -/
theorem safe_bind {f : α → Prog σ Op Resp β} {s d} :
    (p >>= f).Safe dev I Q s d ↔ p.Safe dev I (fun a s d => (f a).Safe dev I Q s d) s d := by
  change (p.bind f).Safe dev I Q s d ↔ _
  induction p generalizing s d with
  | ret a => exact Iff.rfl
  | read k ih | write s' k ih | call o k ih => simp only [bind, Safe, ih]

/-! The shapes a `do` block steps through. -/

@[simp] theorem safe_get_bind {f : σ → Prog σ Op Resp β} {s d} :
    (get >>= f).Safe dev I Q s d ↔ I s d ∧ (f s).Safe dev I Q s d := Iff.rfl

@[simp] theorem safe_set_bind {s' : σ} {s d} :
    (set s' >>= f).Safe dev I Q s d ↔ I s d ∧ (f ()).Safe dev I Q s' d := Iff.rfl

@[simp] theorem safe_modify_bind {g : σ → σ} {s d} :
    (modify g >>= f).Safe dev I Q s d ↔ I s d ∧ (f ()).Safe dev I Q (g s) d :=
  ⟨fun h => ⟨h.1, h.2.2⟩, fun h => ⟨h.1, h.1, h.2⟩⟩

@[simp] theorem safe_ask_bind {o : Op} {f : Resp o → Prog σ Op Resp β} {s d} :
    (ask o >>= f).Safe dev I Q s d ↔
      I s d ∧ ∀ r d', dev o d r d' → (f r).Safe dev I Q s d' := Iff.rfl

/-- A step of the program keeps the assertion. -/
theorem Safe.step {p p' : Prog σ Op Resp α} {Q s s' d d'} (h : p.Safe dev I Q s d)
    (hs : Step dev (p, s, d) (p', s', d')) : p'.Safe dev I Q s' d' := by
  cases hs with
  | read k => exact h.2
  | write => exact h.2
  | call o k _ _ r _ hd => exact h.2 r d' hd

/-- What a finished program satisfies. -/
theorem Safe.ends {Q s d a s' d'} (h : p.Safe dev I Q s d)
    (he : Ends dev p s d a s' d') : Q a s' d' := by
  suffices H : ∀ c, Relation.ReflTransGen (Step dev) (p, s, d) c → c.1.Safe dev I Q c.2.1 c.2.2 from
    H _ he
  intro c hc
  induction hc with
  | refl => exact h
  | tail _ hstep ih => exact ih.step hstep

/-- A step of a sequence is a step of its first program, or that program has returned. -/
theorem step_bind {f : α → Prog σ Op Resp β} {q' s s' d d'}
    (h : Step dev (p.bind f, s, d) (q', s', d')) :
    (∃ p', q' = p'.bind f ∧ Step dev (p, s, d) (p', s', d')) ∨ ∃ a, p = .ret a := by
  cases p with
  | ret a => exact .inr ⟨a, rfl⟩
  | read k => cases h; exact .inl ⟨k s, rfl, .read k s d⟩
  | write _ k => cases h; exact .inl ⟨k, rfl, .write _ k s d⟩
  | call o k =>
    cases h with
    | call _ _ _ _ r _ hd => exact .inl ⟨k r, rfl, .call o k s d r d' hd⟩

end Safe

end Prog

end MqttLib.Foundation
