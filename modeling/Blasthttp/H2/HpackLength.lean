/-
# Blasthttp.H2.HpackLength -- how long what the encoder writes is

The length of an integer grows with its value, so a shorter payload never has the
longer literal: the automatic Huffman choice is decided by payloads alone, and
`encodedLen` knows their length without encoding (`encodedLen_eq`).
-/
import Blasthttp.H2.HpackEncode
import Blasthttp.H2.HuffmanRoundTrip

namespace Blasthttp.H2

open Blasthttp.Lib.Bits

set_option autoImplicit false

/-! ## Encoded strings -/

theorem Huffman.flatMap_codeBits_length (input : List UInt8) :
    (input.flatMap codeBits).length = (input.map fun b => (tableEntry b).2).sum := by
  induction input with
  | nil => rfl
  | cons b input ih => simp [codeBits_length, ih]

/-- The computed length is the length of the encoding. -/
theorem Huffman.encodedLen_eq (input : List UInt8) : encodedLen input = (encode input).length := by
  obtain ⟨pad, short, written⟩ := bits_encode input
  have total := congrArg List.length written
  simp only [bits_length, List.length_append, List.length_replicate,
    flatMap_codeBits_length] at total
  unfold encodedLen
  omega

namespace Hpack

/-! ## Integers -/

/-- Seven-bit groups: more of them for a larger remainder. -/
theorem writeTail_length_mono :
    ∀ (fuel fuel' : Nat) {r r' : Nat}, r ≤ r' → r ≤ fuel → r' ≤ fuel' →
      (writeTail fuel r).length ≤ (writeTail fuel' r').length
  | 0, 0, _, _, _, _, _ => le_rfl
  | 0, fuel' + 1, r, r', _, _, _ => by
      unfold writeTail
      split <;> simp
  | fuel + 1, 0, r, r', small, _, nothing => by
      have zero : ¬ 128 ≤ r := by omega
      unfold writeTail
      rw [if_neg zero]
      exact le_rfl
  | fuel + 1, fuel' + 1, r, r', small, enough, enough' => by
      unfold writeTail
      by_cases more : 128 ≤ r
      · have more' : 128 ≤ r' := by omega
        rw [if_pos more, if_pos more', List.length_cons, List.length_cons]
        have shifted : r >>> 7 ≤ r' >>> 7 := by
          rw [Nat.shiftRight_eq_div_pow, Nat.shiftRight_eq_div_pow]
          exact Nat.div_le_div_right small
        apply Nat.succ_le_succ
        apply writeTail_length_mono fuel fuel' shifted
        · rw [Nat.shiftRight_eq_div_pow]; omega
        · rw [Nat.shiftRight_eq_div_pow]; omega
      · rw [if_neg more]
        split <;> simp

theorem writeTail_ne_nil (fuel r : Nat) : writeTail fuel r ≠ [] := by
  cases fuel with
  | zero => simp [writeTail]
  | succ fuel =>
      unfold writeTail
      split <;> simp

/-- Every pass of the padding loop adds one byte. -/
theorem writeBloat_length :
    ∀ (bloat : Nat) {out : List UInt8}, out ≠ [] → (writeBloat bloat out).length = out.length + bloat
  | 0, _, _ => rfl
  | bloat + 1, out, held => by
      have last := List.getLast?_eq_some_getLast held
      have longer : (out.dropLast ++ [0x80, out.getLast held]).length = out.length + 1 := by
        have pos := List.length_pos_of_ne_nil held
        simp only [List.length_append, List.length_dropLast, List.length_cons, List.length_nil]
        omega
      unfold writeBloat
      simp only [last]
      rw [writeBloat_length bloat (by simp), longer]
      omega

theorem writeInteger_length (value n : Nat) (pattern bloat : UInt8) :
    (writeInteger value n pattern bloat).length =
      if value < 2 ^ n - 1 then 1
      else 1 + (writeTail (value - (2 ^ n - 1)) (value - (2 ^ n - 1))).length + bloat.toNat := by
  unfold writeInteger
  simp only
  split
  · rfl
  · rw [List.length_cons, writeBloat_length _ (writeTail_ne_nil _ _)]
    omega

theorem writeInteger_length_mono {value value' n : Nat} (pattern pattern' bloat : UInt8)
    (small : value ≤ value') :
    (writeInteger value n pattern bloat).length ≤ (writeInteger value' n pattern' bloat).length := by
  rw [writeInteger_length, writeInteger_length]
  by_cases inside : value < 2 ^ n - 1
  · rw [if_pos inside]
    split <;> omega
  · have outside : ¬ value' < 2 ^ n - 1 := by omega
    rw [if_neg inside, if_neg outside]
    have tails := writeTail_length_mono (value - (2 ^ n - 1)) (value' - (2 ^ n - 1))
      (show value - (2 ^ n - 1) ≤ value' - (2 ^ n - 1) by omega) le_rfl le_rfl
    omega

/-- Padding an integer only adds bytes. -/
theorem writeInteger_length_bloat (value n : Nat) (pattern bloat : UInt8) :
    (writeInteger value n pattern 0).length ≤ (writeInteger value n pattern bloat).length := by
  rw [writeInteger_length, writeInteger_length]
  split
  · exact le_rfl
  · exact Nat.add_le_add_left (Nat.zero_le _) _

/-! ## String literals -/

theorem writeString_length (data : List UInt8) (huffman : Option Bool) (bloat : UInt8) :
    (writeString data huffman bloat).length =
      (writeInteger ((stringPayload data huffman).length % 2 ^ 32) 7
        (if useHuffman data huffman then 0x80 else 0x00) bloat).length +
      (stringPayload data huffman).length := by
  unfold writeString
  rw [List.length_append]

/-- A payload no longer than another has a literal no longer than the other's. -/
theorem writeString_length_le {data : List UInt8} {huffman huffman' : Option Bool} (bloat : UInt8)
    (fits : (stringPayload data huffman').length < 2 ^ 32)
    (shorter : (stringPayload data huffman).length ≤ (stringPayload data huffman').length) :
    (writeString data huffman bloat).length ≤ (writeString data huffman' bloat).length := by
  rw [writeString_length, writeString_length, Nat.mod_eq_of_lt fits,
    Nat.mod_eq_of_lt (lt_of_le_of_lt shorter fits)]
  exact Nat.add_le_add (writeInteger_length_mono _ _ bloat shorter) shorter

/-- The automatic choice takes the shorter payload. -/
theorem stringPayload_none (data : List UInt8) :
    (stringPayload data none).length = min (Huffman.encode data).length data.length := by
  unfold stringPayload useHuffman
  rw [Huffman.encodedLen_eq]
  by_cases coded : (Huffman.encode data).length < data.length
  · simp only [coded, decide_true, if_true]
    omega
  · simp only [coded, decide_false, Bool.false_eq_true, if_false]
    omega

/-- **The automatic Huffman choice is minimal**, length included, whatever the padding. -/
theorem writeString_minimal (x : List UInt8) (bloat : UInt8) (raw : x.length < 2 ^ 32)
    (encoded : (Huffman.encode x).length < 2 ^ 32) :
    Huffman.encodedLen x = (Huffman.encode x).length ∧
    (writeString x none bloat).length ≤ (writeString x (some true) bloat).length ∧
    (writeString x none bloat).length ≤ (writeString x (some false) bloat).length := by
  refine ⟨Huffman.encodedLen_eq x, ?_, ?_⟩
  · have shorter : (stringPayload x none).length ≤ (stringPayload x (some true)).length := by
      rw [stringPayload_none]
      exact Nat.min_le_left _ _
    exact writeString_length_le bloat encoded shorter
  · have shorter : (stringPayload x none).length ≤ (stringPayload x (some false)).length := by
      rw [stringPayload_none]
      exact Nat.min_le_right _ _
    exact writeString_length_le bloat raw shorter

/-- Two bytes of five-bit codes: two bytes in either form. -/
theorem writeString_minimal_pair :
    Huffman.encodedLen [48, 49] = (Huffman.encode [48, 49]).length ∧
    (writeString [48, 49] none 1).length ≤ (writeString [48, 49] (some true) 1).length ∧
    (writeString [48, 49] none 1).length ≤ (writeString [48, 49] (some false) 1).length :=
  writeString_minimal [48, 49] 1 (by decide) (by decide)

end Hpack

end Blasthttp.H2
