/-
# Blasthttp.Lib.BigEndian -- numbers as bytes, most significant first
-/
import Mathlib.Data.Nat.Basic
import Mathlib.Tactic.Ring

namespace Blasthttp.Lib.BigEndian

set_option autoImplicit false

/-- The low `width` bytes of a number. -/
def toBytes : Nat → Nat → List UInt8
  | 0, _ => []
  | width + 1, n => UInt8.ofNat (n / 256 ^ width) :: toBytes width n

def ofBytes : List UInt8 → Nat
  | [] => 0
  | b :: bytes => b.toNat * 256 ^ bytes.length + ofBytes bytes

@[simp] theorem length_toBytes (width n : Nat) : (toBytes width n).length = width := by
  induction width with
  | zero => rfl
  | succ width ih => rw [toBytes, List.length_cons, ih]

theorem ofBytes_toBytes (width n : Nat) : ofBytes (toBytes width n) = n % 256 ^ width := by
  induction width with
  | zero => rw [Nat.pow_zero, Nat.mod_one]; rfl
  | succ width ih =>
      have digit : (UInt8.ofNat (n / 256 ^ width)).toNat = n / 256 ^ width % 256 := rfl
      rw [toBytes, ofBytes, ih, length_toBytes, digit, Nat.pow_succ, Nat.mod_mul]
      ring

theorem ofBytes_toBytes_of_lt {width n : Nat} (fits : n < 256 ^ width) :
    ofBytes (toBytes width n) = n := by
  rw [ofBytes_toBytes, Nat.mod_eq_of_lt fits]

theorem ofBytes_lt (bytes : List UInt8) : ofBytes bytes < 256 ^ bytes.length := by
  induction bytes with
  | nil => exact Nat.one_pos
  | cons b bytes ih =>
      have digit := b.toNat_lt
      rw [ofBytes, List.length_cons, Nat.pow_succ]
      calc b.toNat * 256 ^ bytes.length + ofBytes bytes
          < (b.toNat + 1) * 256 ^ bytes.length := by rw [Nat.add_mul, Nat.one_mul]; omega
        _ ≤ 256 * 256 ^ bytes.length := Nat.mul_le_mul_right _ digit
        _ = 256 ^ bytes.length * 256 := Nat.mul_comm _ _

end Blasthttp.Lib.BigEndian
