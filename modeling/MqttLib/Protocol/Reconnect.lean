/-
MqttLib.Protocol.Reconnect

The delays between attempts to reconnect (`ReconnectConfig` of `connection.rs`).
-/

import Mathlib.Algebra.GroupWithZero.Nat
import Mathlib.Order.Iterate

namespace MqttLib.Protocol

open Function

/-- The delays are in milliseconds. -/
structure ReconnectConfig where
  initialDelay : Nat
  maxDelay : Nat
  backoffFactorTenths : UInt32

namespace ReconnectConfig

/-- A `u64`. -/
def saturating (n : Nat) : Nat := min n (2 ^ 64 - 1)

variable (c : ReconnectConfig)

/-- The loop of `calculate_delay`. -/
def delayLoop : Nat → Nat → Nat
  | 0, delayTenths => min (delayTenths / 10) (saturating c.maxDelay)
  | rounds + 1, delayTenths =>
    let delayTenths := saturating (delayTenths * c.backoffFactorTenths.toNat) / 10
    if delayTenths / 10 ≥ saturating c.maxDelay then c.maxDelay else delayLoop rounds delayTenths

def calculateDelay (attempt : UInt32) : Nat :=
  if attempt = 0 then c.initialDelay
  else c.delayLoop attempt.toNat (saturating (saturating c.initialDelay * 10))

/-- A round without saturation. -/
def grow (delayTenths : Nat) : Nat := delayTenths * c.backoffFactorTenths.toNat / 10

variable {c} {n m d : Nat}

theorem id_le_grow (hfactor : 10 ≤ c.backoffFactorTenths.toNat) : id ≤ c.grow := by
  intro d
  have hmul := Nat.mul_le_mul_left d hfactor
  show d ≤ d * c.backoffFactorTenths.toNat / 10
  omega

/-- The early exit and the saturation only cut off what is above the largest delay. -/
theorem delayLoop_eq (hmax : c.maxDelay ≤ 2 ^ 56) (hfactor : 10 ≤ c.backoffFactorTenths.toNat) :
    c.delayLoop n d = min (c.grow^[n] d / 10) c.maxDelay := by
  have hsat : saturating c.maxDelay = c.maxDelay := Nat.min_eq_left (by omega)
  induction n generalizing d with
  | zero => rw [delayLoop, hsat, iterate_zero_apply]
  | succ n ih =>
    rw [delayLoop, hsat, iterate_succ_apply]
    have hround : saturating (d * c.backoffFactorTenths.toNat) / 10 ≤ c.grow d :=
      Nat.div_le_div_right (Nat.min_le_left ..)
    have hlater : c.grow d ≤ c.grow^[n] (c.grow d) :=
      id_le_iterate_of_id_le (id_le_grow hfactor) n _
    split
    · omega
    · rename_i hbelow
      have hsame : saturating (d * c.backoffFactorTenths.toNat) / 10 = c.grow d := by
        unfold saturating grow at *
        omega
      rw [hsame]
      exact ih

/-- Ten rounds double the delay. -/
theorem double_le_grow (hfactor : 10 < c.backoffFactorTenths.toNat) (hd : 10 * m ≤ d) :
    10 * m + n * m ≤ c.grow^[n] d := by
  induction n with
  | zero => simpa using hd
  | succ n ih =>
    have hmul := Nat.mul_le_mul_left (c.grow^[n] d) hfactor
    rw [iterate_succ_apply', Nat.add_one_mul n]
    unfold grow at *
    omega

theorem pow_le_grow (hfactor : 10 < c.backoffFactorTenths.toNat) (hd : 10 ≤ d) :
    10 * 2 ^ n ≤ c.grow^[10 * n] d := by
  induction n with
  | zero => exact hd
  | succ n ih =>
    have hten := double_le_grow (c := c) (n := 10) hfactor ih
    rw [Nat.mul_add_one, Nat.add_comm (10 * n), iterate_add_apply, Nat.pow_succ]
    omega

/-- The delay never exceeds the largest one and never decreases, and it reaches it. -/
theorem reconnect_delay (hinitial : c.initialDelay ≤ c.maxDelay) (hmax : c.maxDelay ≤ 2 ^ 56)
    (hfactor : 10 ≤ c.backoffFactorTenths.toNat) :
    (∀ attempt, c.calculateDelay attempt ≤ c.maxDelay) ∧
      (∀ attempt later, attempt ≤ later → c.calculateDelay attempt ≤ c.calculateDelay later) ∧
      (1 ≤ c.initialDelay → 10 < c.backoffFactorTenths.toNat →
        ∃ attempt, ∀ later ≥ attempt, c.calculateDelay later = c.maxDelay) := by
  have hdelay : ∀ attempt, c.calculateDelay attempt =
      min (c.grow^[attempt.toNat] (c.initialDelay * 10) / 10) c.maxDelay := by
    intro attempt
    unfold calculateDelay
    split
    · rename_i hzero
      subst hzero
      show _ = min (c.initialDelay * 10 / 10) c.maxDelay
      omega
    · rw [delayLoop_eq hmax hfactor]
      congr 3
      unfold saturating
      omega
  have hmono : ∀ attempt later : UInt32, attempt ≤ later →
      c.grow^[attempt.toNat] (c.initialDelay * 10) ≤ c.grow^[later.toNat] (c.initialDelay * 10) :=
    fun _ _ hle => monotone_iterate_of_id_le (id_le_grow hfactor) (UInt32.le_iff_toNat_le.mp hle) _
  simp only [hdelay]
  refine ⟨fun _ => Nat.min_le_right .., fun attempt later hle => ?_, fun hpos hgrows => ?_⟩
  · have hgrown := hmono attempt later hle
    omega
  · refine ⟨560, fun later hle => ?_⟩
    have hgrown := hmono 560 later hle
    have hreached : 10 * 2 ^ 56 ≤ c.grow^[(560 : UInt32).toNat] (c.initialDelay * 10) :=
      pow_le_grow hgrows (by omega)
    omega

/-- One second to one minute with the factor 1.1. -/
theorem reconnect_delay_tenth : ∃ attempt, ∀ later ≥ attempt,
    calculateDelay ⟨1000, 60000, 11⟩ later = 60000 :=
  (reconnect_delay (c := ⟨1000, 60000, 11⟩) (by decide) (by decide) (by decide)).2.2 (by decide)
    (by decide)

end ReconnectConfig

end MqttLib.Protocol
