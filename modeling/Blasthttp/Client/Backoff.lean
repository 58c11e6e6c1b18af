/-
# Blasthttp.Client.Backoff -- `retry_backoff` of `hyper.rs`

The wait before a retry: a power of two in a `u64`, narrowed to a `u32`, times the
shortest wait, under the longest.  Up to attempt 31 the power goes through the narrowing
as it is; from 32 to 63 nothing of it is left, and from 64 on, where the power has
saturated, all ones are (`narrowed_cases`).
-/
import Blasthttp.Rust.Duration

namespace Blasthttp.Client

open Blasthttp.Rust

set_option autoImplicit false

/-- `u64::saturating_pow`. -/
def saturatingPow (base : UInt64) (exp : UInt32) : UInt64 :=
  if base.toNat ^ exp.toNat < 2 ^ 64 then UInt64.ofNat (base.toNat ^ exp.toNat)
  else UInt64.ofNat (2 ^ 64 - 1)

/-- Compute exponential backoff. -/
def retryBackoff (attempt : UInt32) (minWait maxWait : Duration) : Duration :=
  let factor := saturatingPow 2 attempt
  let backoff := minWait.saturatingMul factor.toUInt32
  backoff.least maxWait

/-! ## The factor -/

theorem narrowed_cases (attempt : UInt32) :
    (attempt.toNat < 32 ∧ (saturatingPow 2 attempt).toUInt32.toNat = 2 ^ attempt.toNat) ∨
    (32 ≤ attempt.toNat ∧ attempt.toNat < 64 ∧ (saturatingPow 2 attempt).toUInt32.toNat = 0) ∨
    (64 ≤ attempt.toNat ∧ (saturatingPow 2 attempt).toUInt32.toNat = 2 ^ 32 - 1) := by
  have two : (2 : UInt64).toNat = 2 := rfl
  have narrowed : (saturatingPow 2 attempt).toUInt32.toNat =
      (if 2 ^ attempt.toNat < 2 ^ 64 then 2 ^ attempt.toNat else 2 ^ 64 - 1) % 2 ^ 32 := by
    unfold saturatingPow
    rw [two, UInt64.toNat_toUInt32]
    split
    · rename_i small
      rw [UInt64.toNat_ofNat_of_lt' small]
    · rfl
  rw [narrowed]
  by_cases early : attempt.toNat < 32
  · have small : 2 ^ attempt.toNat < 2 ^ 32 := Nat.pow_lt_pow_right (by decide) early
    have wide : 2 ^ attempt.toNat < 2 ^ 64 := by omega
    rw [if_pos wide, Nat.mod_eq_of_lt small]
    exact .inl ⟨early, rfl⟩
  · by_cases late : attempt.toNat < 64
    · have wide : 2 ^ attempt.toNat < 2 ^ 64 := Nat.pow_lt_pow_right (by decide) late
      have even : 2 ^ 32 ∣ 2 ^ attempt.toNat := Nat.pow_dvd_pow 2 (by omega)
      rw [if_pos wide, Nat.mod_eq_zero_of_dvd even]
      exact .inr (.inl ⟨by omega, late, rfl⟩)
    · have wide : 2 ^ 64 ≤ 2 ^ attempt.toNat := Nat.pow_le_pow_right (by decide) (by omega)
      rw [if_neg (by omega)]
      exact .inr (.inr ⟨by omega, rfl⟩)

/-- The narrowing never makes the factor larger. -/
theorem narrowed_le (attempt : UInt32) :
    (saturatingPow 2 attempt).toUInt32.toNat ≤ 2 ^ attempt.toNat := by
  rcases narrowed_cases attempt with ⟨-, same⟩ | ⟨-, -, zero⟩ | ⟨late, ones⟩
  · exact same.le
  · rw [zero]
    exact Nat.zero_le _
  · have large : 2 ^ 64 ≤ 2 ^ attempt.toNat := Nat.pow_le_pow_right (by decide) late
    omega

theorem retryBackoff_nanos (attempt : UInt32) (minWait maxWait : Duration) :
    (retryBackoff attempt minWait maxWait).nanos =
      min (minWait.nanos * (saturatingPow 2 attempt).toUInt32.toNat) maxWait.nanos :=
  Duration.nanos_saturatingMul_least minWait maxWait _

/-! ## The capped exponential -/

/-- `min(2^attempt × min_wait, max_wait)`, without bound. -/
def cappedExponential (attempt : UInt32) (minWait maxWait : Duration) : Nat :=
  min (2 ^ attempt.toNat * minWait.nanos) maxWait.nanos

theorem retryBackoff_le (attempt : UInt32) (minWait maxWait : Duration) :
    (retryBackoff attempt minWait maxWait).nanos ≤ cappedExponential attempt minWait maxWait := by
  have smaller := Nat.mul_le_mul_left minWait.nanos (narrowed_le attempt)
  rw [retryBackoff_nanos, cappedExponential, Nat.mul_comm (2 ^ attempt.toNat)]
  omega

theorem cappedExponential_mono {earlier attempt : UInt32} (before : earlier ≤ attempt)
    (minWait maxWait : Duration) :
    cappedExponential earlier minWait maxWait ≤ cappedExponential attempt minWait maxWait := by
  have power : 2 ^ earlier.toNat ≤ 2 ^ attempt.toNat :=
    Nat.pow_le_pow_right (by decide) (UInt32.le_iff_toNat_le.mp before)
  have larger := Nat.mul_le_mul_right minWait.nanos power
  unfold cappedExponential
  omega

/-- The wait is the capped exponential; it is no shorter than any before it, and not
zero unless the shortest wait is. -/
structure Doubles (attempt : UInt32) (minWait maxWait : Duration) : Prop where
  exact : (retryBackoff attempt minWait maxWait).nanos = cappedExponential attempt minWait maxWait
  mono : ∀ earlier ≤ attempt,
    (retryBackoff earlier minWait maxWait).nanos ≤ (retryBackoff attempt minWait maxWait).nanos
  positive : 0 < minWait.nanos → 0 < (retryBackoff attempt minWait maxWait).nanos

/-- What `2^attempt` keeps of itself in a `u32` is enough. -/
def FactorFits (attempt : UInt32) (minWait maxWait : Duration) : Prop :=
  attempt.toNat < 32 ∨ minWait.nanos = 0 ∨
    (64 ≤ attempt.toNat ∧ maxWait.nanos ≤ (2 ^ 32 - 1) * minWait.nanos)

/-- At a fixed attempt the wait is right exactly when the narrowed factor is enough. -/
theorem retryBackoff_exact_iff {minWait maxWait : Duration}
    (ordered : minWait.nanos ≤ maxWait.nanos) (attempt : UInt32) :
    (retryBackoff attempt minWait maxWait).nanos = cappedExponential attempt minWait maxWait ↔
      FactorFits attempt minWait maxWait := by
  rw [retryBackoff_nanos, cappedExponential, FactorFits, Nat.mul_comm minWait.nanos]
  have positive : minWait.nanos ≤ 2 ^ attempt.toNat * minWait.nanos :=
    Nat.le_mul_of_pos_left _ (Nat.two_pow_pos _)
  have vanishes : minWait.nanos = 0 → 2 ^ attempt.toNat * minWait.nanos = 0 := by
    intro zero
    rw [zero, Nat.mul_zero]
  rcases narrowed_cases attempt with ⟨early, factor⟩ | ⟨late, later, factor⟩ | ⟨late, factor⟩
  · rw [factor]
    simp only [early, true_or]
  · rw [factor, Nat.zero_mul]
    generalize 2 ^ attempt.toNat * minWait.nanos = full at *
    constructor
    · intro same
      omega
    · intro fits
      omega
  · have power : 2 ^ 64 ≤ 2 ^ attempt.toNat := Nat.pow_le_pow_right (by decide) late
    have large := Nat.mul_le_mul_right minWait.nanos power
    rw [factor]
    generalize 2 ^ attempt.toNat * minWait.nanos = full at *
    constructor
    · intro same
      omega
    · intro fits
      omega

/-- **When the backoff doubles.** -/
theorem retryBackoff_iff (attempt : UInt32) (minWait maxWait : Duration)
    (ordered : minWait.nanos ≤ maxWait.nanos) :
    Doubles attempt minWait maxWait ↔ FactorFits attempt minWait maxWait := by
  constructor
  · intro doubles
    exact (retryBackoff_exact_iff ordered attempt).mp doubles.exact
  · intro fits
    have exact := (retryBackoff_exact_iff ordered attempt).mpr fits
    refine ⟨exact, ?_, ?_⟩
    · intro earlier before
      rw [exact]
      exact (retryBackoff_le earlier minWait maxWait).trans
        (cappedExponential_mono before minWait maxWait)
    · intro positive
      have power := Nat.mul_pos (Nat.two_pow_pos attempt.toNat) positive
      rw [exact, cappedExponential]
      omega

def oneSecond : Duration := .fromMillis 1000
def thirtySeconds : Duration := .fromMillis 30000

theorem retryBackoff_iff_tenth :
    Doubles 10 oneSecond thirtySeconds ↔ FactorFits 10 oneSecond thirtySeconds :=
  retryBackoff_iff 10 oneSecond thirtySeconds (by decide)

/-- Retry 33 does not wait at all. -/
theorem retryBackoff_vanishes :
    (retryBackoff 32 oneSecond thirtySeconds).nanos = 0 ∧
      cappedExponential 32 oneSecond thirtySeconds = 30 * 10 ^ 9 ∧
      ¬ Doubles 32 oneSecond thirtySeconds := by
  have zero : (retryBackoff 32 oneSecond thirtySeconds).nanos = 0 := by decide
  refine ⟨zero, by decide, fun doubles => ?_⟩
  have positive := doubles.positive (by decide)
  omega

end Blasthttp.Client
