/-
# Blasthttp.Rust.Duration -- `std::time::Duration`

A duration is its nanoseconds, below the seconds a `u64` counts.  Multiplication
saturates, so with a cap behind it, it is the product under that cap
(`nanos_saturatingMul_least`).
-/
import Mathlib

namespace Blasthttp.Rust

set_option autoImplicit false

structure Duration where
  nanos : Nat
  small : nanos < 2 ^ 64 * 10 ^ 9
  deriving DecidableEq

namespace Duration

/-- `Duration::MAX`. -/
def longest : Duration := ⟨2 ^ 64 * 10 ^ 9 - 1, by decide⟩

def fromMillis (millis : UInt64) : Duration where
  nanos := millis.toNat * 10 ^ 6
  small := by
    have bound := millis.toNat_lt
    omega

/-- `saturating_mul`. -/
def saturatingMul (d : Duration) (rhs : UInt32) : Duration :=
  if small : d.nanos * rhs.toNat < 2 ^ 64 * 10 ^ 9 then ⟨d.nanos * rhs.toNat, small⟩ else longest

/-- `Ord::min`. -/
def least (a b : Duration) : Duration := if a.nanos ≤ b.nanos then a else b

theorem nanos_least (a b : Duration) : (a.least b).nanos = min a.nanos b.nanos := by
  unfold least
  split <;> omega

/-- Under a cap the saturation does not show. -/
theorem nanos_saturatingMul_least (d cap : Duration) (rhs : UInt32) :
    ((d.saturatingMul rhs).least cap).nanos = min (d.nanos * rhs.toNat) cap.nanos := by
  rw [nanos_least]
  unfold saturatingMul
  split
  · rfl
  · have below := cap.small
    simp only [longest]
    omega

end Duration

end Blasthttp.Rust
