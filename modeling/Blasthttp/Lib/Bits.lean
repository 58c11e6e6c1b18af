/-
# Blasthttp.Lib.Bits -- bit strings, most significant bit first

A bit-level coder keeps its pending bits in the low end of a machine word and
hands out whole bytes from the top.  `msb w n` is the reading of such a word:
the low `w` bits of `n`, most significant first.  The lemmas say what the
operations of a coder do to that reading (`<<`, `|`, `>>`, masking and
truncation), so a proof about a coder never looks at a single bit again.
-/
import Mathlib.Data.Nat.Bitwise
import Mathlib.Data.List.Basic
import Mathlib.Tactic.Common

namespace Blasthttp.Lib.Bits

set_option autoImplicit false

/-- The low `w` bits of `n`, most significant first. -/
def msb : Nat → Nat → List Bool
  | 0, _ => []
  | w + 1, n => n.testBit w :: msb w n

@[simp] theorem msb_length (w n : Nat) : (msb w n).length = w := by
  induction w with
  | zero => rfl
  | succ w ih => simp [msb, ih]

theorem msb_congr {w n m : Nat} (same : ∀ i, i < w → n.testBit i = m.testBit i) :
    msb w n = msb w m := by
  induction w with
  | zero => rfl
  | succ w ih =>
      rw [msb, msb, same w (Nat.lt_succ_self w), ih fun i hi => same i (Nat.lt_succ_of_lt hi)]

/-- Truncating a word to at least the width read changes nothing. -/
theorem msb_mod {w k : Nat} (n : Nat) (fits : w ≤ k) : msb w (n % 2 ^ k) = msb w n :=
  msb_congr fun i hi => by simp [Nat.testBit_mod_two_pow, Nat.lt_of_lt_of_le hi fits]

/-- A word splits at any position into a high and a low reading. -/
theorem msb_add (high low n : Nat) : msb (high + low) n = msb high (n >>> low) ++ msb low n := by
  induction high with
  | zero => simp [msb]
  | succ high ih =>
      rw [Nat.succ_add, msb, ih, msb, Nat.testBit_shiftRight, Nat.add_comm low high]
      rfl

/-- Shifting a `k`-bit word left and filling the hole appends the filling, as long
as the reading stays inside the word. -/
theorem msb_push {n len k code : Nat} (word : Nat) (room : n + len ≤ k) (fits : code < 2 ^ len) :
    msb (n + len) ((word <<< len) % 2 ^ k ||| code) = msb n word ++ msb len code := by
  rw [msb_add]
  congr 1
  · refine msb_congr fun i hi => ?_
    have high : code.testBit (len + i) = false :=
      Nat.testBit_lt_two_pow (lt_of_lt_of_le fits (Nat.pow_le_pow_right (by omega) (by omega)))
    have kept : len + i < k := by omega
    simp [Nat.testBit_or, Nat.testBit_mod_two_pow, high, kept]
  · refine msb_congr fun i hi => ?_
    simp [Nat.testBit_or, Nat.testBit_mod_two_pow, Nat.testBit_shiftLeft, hi]

theorem msb_ones (w : Nat) : msb w (2 ^ w - 1) = List.replicate w true := by
  have full : ∀ k, k ≤ w → msb k (2 ^ w - 1) = List.replicate k true := by
    intro k hk
    induction k with
    | zero => rfl
    | succ k ih =>
        rw [msb, ih (by omega), Nat.testBit_two_pow_sub_one, List.replicate_succ]
        simp [show k < w by omega]
  exact full w le_rfl

theorem testBit_of_msb_eq {w n m i : Nat} (same : msb w n = msb w m) (below : i < w) :
    n.testBit i = m.testBit i := by
  induction w with
  | zero => omega
  | succ w ih =>
      obtain ⟨top, rest⟩ := List.cons_eq_cons.mp same
      rcases Nat.lt_succ_iff_lt_or_eq.mp below with lower | rfl
      · exact ih rest lower
      · exact top

/-- A reading determines the word, up to its width. -/
theorem eq_of_msb_eq {w n m : Nat} (first : n < 2 ^ w) (second : m < 2 ^ w)
    (same : msb w n = msb w m) : n = m := by
  apply Nat.eq_of_testBit_eq
  intro i
  by_cases inside : i < w
  · exact testBit_of_msb_eq same inside
  · have wide : 2 ^ w ≤ 2 ^ i := Nat.pow_le_pow_right (by omega) (by omega)
    rw [Nat.testBit_lt_two_pow (by omega), Nat.testBit_lt_two_pow (by omega)]

/-! ## The first bits -/

/-- The ones in the first bits of a word, made by shifting. -/
theorem testBit_mask (w low i : Nat) :
    (((2 ^ w - 1) <<< low) % 2 ^ w).testBit i = decide (low ≤ i ∧ i < w) := by
  rw [Nat.testBit_mod_two_pow, Nat.testBit_shiftLeft, Nat.testBit_two_pow_sub_one]
  by_cases inside : i < w
  · by_cases high : low ≤ i
    · simp [inside, high, show i - low < w by omega]
    · simp [inside, high]
  · simp [inside]

theorem take_msb (high low n : Nat) : (msb (high + low) n).take high = msb high (n >>> low) := by
  rw [msb_add, List.take_left' (msb_length high _)]

/-- Words that agree under a mask of their first bits agree in these. -/
theorem and_mask_eq_iff (high low n m : Nat) :
    n &&& (((2 ^ (high + low) - 1) <<< low) % 2 ^ (high + low)) =
        m &&& (((2 ^ (high + low) - 1) <<< low) % 2 ^ (high + low)) ↔
      (msb (high + low) n).take high = (msb (high + low) m).take high := by
  rw [take_msb, take_msb]
  constructor
  · intro masked
    apply msb_congr
    intro i below
    have bit := congrArg (Nat.testBit · (low + i)) masked
    have inside : low ≤ low + i ∧ low + i < high + low := by omega
    simp only [Nat.testBit_and, testBit_mask, decide_eq_true inside, Bool.and_true] at bit
    rw [Nat.testBit_shiftRight, Nat.testBit_shiftRight]
    exact bit
  · intro same
    apply Nat.eq_of_testBit_eq
    intro i
    rw [Nat.testBit_and, Nat.testBit_and, testBit_mask]
    by_cases inside : low ≤ i ∧ i < high + low
    · have bit := testBit_of_msb_eq same (show i - low < high by omega)
      rw [Nat.testBit_shiftRight, Nat.testBit_shiftRight, Nat.add_sub_cancel' inside.1] at bit
      rw [bit]
    · simp [inside]

/-! ## Bytes -/

/-- The eight bits of a byte. -/
def byteBits (b : UInt8) : List Bool := msb 8 b.toNat

/-- The bits of a byte string. -/
def bits (bytes : List UInt8) : List Bool := bytes.flatMap byteBits

@[simp] theorem byteBits_length (b : UInt8) : (byteBits b).length = 8 := msb_length 8 _

@[simp] theorem bits_nil : bits [] = [] := rfl

@[simp] theorem bits_cons (b : UInt8) (bytes : List UInt8) :
    bits (b :: bytes) = byteBits b ++ bits bytes := rfl

@[simp] theorem bits_append (xs ys : List UInt8) : bits (xs ++ ys) = bits xs ++ bits ys :=
  List.flatMap_append

@[simp] theorem bits_length (bytes : List UInt8) : (bits bytes).length = 8 * bytes.length := by
  induction bytes with
  | nil => rfl
  | cons b bytes ih => simp [ih]; omega

theorem byteBits_injective {a b : UInt8} (same : byteBits a = byteBits b) : a = b := by
  apply UInt8.toNat_inj.mp
  exact eq_of_msb_eq (w := 8) a.toNat_lt b.toNat_lt same

/-- A byte string is determined by its bits. -/
theorem bits_injective : ∀ {xs ys : List UInt8}, bits xs = bits ys → xs = ys
  | [], [], _ => rfl
  | [], y :: ys, same => by
      have shorter := congrArg List.length same
      simp only [bits_length, List.length_nil, List.length_cons] at shorter
      omega
  | x :: xs, [], same => by
      have longer := congrArg List.length same
      simp only [bits_length, List.length_nil, List.length_cons] at longer
      omega
  | x :: xs, y :: ys, same => by
      obtain ⟨first, rest⟩ := List.append_inj same (by simp)
      rw [byteBits_injective first, bits_injective rest]

/-- The low byte of a word carries its low eight bits. -/
theorem byteBits_low (n : Nat) : byteBits (UInt8.ofNat (n &&& 0xFF)) = msb 8 n := by
  rw [byteBits, UInt8.toNat_ofNat', show n &&& 0xFF = n % 2 ^ 8 from Nat.and_two_pow_sub_one_eq_mod n 8,
    Nat.mod_mod, msb_mod n le_rfl]

end Blasthttp.Lib.Bits
