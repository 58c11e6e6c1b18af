/-
# Blasthttp.H2.HpackPadding -- what padding makes of an integer

`length_bloat` puts zero groups in front of the last group of an integer instead of
behind it, which moves the last group to a higher place.  `readInteger_writeInteger`
is the round trip where that changes nothing, and `readInteger_padded` says that
anywhere else the integer read back is another one.
-/
import Blasthttp.H2.HpackInteger

namespace Blasthttp.H2.Hpack

open Blasthttp.Lib.Groups

set_option autoImplicit false

/-! ## The bytes written -/

/-- The groups of a remainder: complete, worth it, and the last one zero only alone. -/
theorem writeTail_groups :
    ∀ (fuel r : Nat), r ≤ fuel → ∃ front last, writeTail fuel r = front ++ [last] ∧
      Complete (front ++ [last]) ∧ value (front ++ [last]) = r ∧ (front ≠ [] → payload last ≠ 0)
  | 0, r, small => by
      obtain rfl : r = 0 := by omega
      exact ⟨[], 0, rfl, .last 0 (by decide), by decide, fun more => absurd rfl more⟩
  | fuel + 1, r, small => by
      unfold writeTail
      by_cases large : 128 ≤ r
      · rw [if_pos large]
        have masked : r &&& 0x7F = r % 128 := Nat.and_two_pow_sub_one_eq_mod r 7
        have shifted : r >>> 7 = r / 128 := Nat.shiftRight_eq_div_pow r 7
        obtain ⟨-, low, goes⟩ := payload_ofNat ⟨r % 128, Nat.mod_lt _ (by omega)⟩
        obtain ⟨front, last, rest, complete, worth, top⟩ :=
          writeTail_groups fuel (r / 128) (by omega)
        refine ⟨(UInt8.ofNat (r % 128) ||| 0x80) :: front, last, ?_, ?_, ?_, ?_⟩
        · rw [masked, shifted, rest, List.cons_append]
        · exact .next _ _ goes complete
        · rw [List.cons_append, value_cons, low, worth]
          exact Nat.mod_add_div r 128
        · intro _ zero
          cases front with
          | nil =>
              simp only [List.nil_append, value_cons, value_nil] at worth
              omega
          | cons c front => exact top (List.cons_ne_nil _ _) zero
      · rw [if_neg large]
        obtain ⟨⟨low, stops⟩, -⟩ := payload_ofNat ⟨r, by omega⟩
        refine ⟨[], UInt8.ofNat r, rfl, .last _ stops, ?_, fun more => absurd rfl more⟩
        simp only [List.nil_append, value_cons, value_nil]
        exact low

/-- The padding stands in front of the last byte. -/
theorem writeBloat_concat :
    ∀ (bloat : Nat) (front : List UInt8) (last : UInt8),
      writeBloat bloat (front ++ [last]) = (front ++ List.replicate bloat 0x80) ++ [last]
  | 0, front, last => by simp [writeBloat]
  | bloat + 1, front, last => by
      unfold writeBloat
      simp only [List.getLast?_concat, List.dropLast_concat]
      have regroup : front ++ [0x80, last] = (front ++ [0x80]) ++ [last] := by simp
      rw [regroup, writeBloat_concat bloat (front ++ [0x80]) last, List.append_assoc front,
        List.singleton_append, ← List.replicate_succ]

/-- An integer that does not fit its first part, at every padding. -/
theorem writeInteger_groups {v n : Nat} (pattern : UInt8) (large : 2 ^ n - 1 ≤ v) :
    ∃ front last, Complete (front ++ [last]) ∧ value (front ++ [last]) = v - (2 ^ n - 1) ∧
      (front ≠ [] → payload last ≠ 0) ∧
      ∀ bloat : UInt8, writeInteger v n pattern bloat =
        (pattern ||| UInt8.ofNat (2 ^ n - 1)) ::
          ((front ++ List.replicate bloat.toNat 0x80) ++ [last]) := by
  obtain ⟨front, last, written, complete, worth, top⟩ :=
    writeTail_groups (v - (2 ^ n - 1)) (v - (2 ^ n - 1)) le_rfl
  refine ⟨front, last, complete, worth, top, fun bloat => ?_⟩
  unfold writeInteger
  simp only
  rw [if_neg (by omega), written, writeBloat_concat]

/-- Padded groups are complete, and worth the last group at its new place. -/
theorem padded_groups {front : List UInt8} {last : UInt8} (complete : Complete (front ++ [last]))
    (k : Nat) :
    Complete ((front ++ List.replicate k 0x80) ++ [last]) ∧
      value ((front ++ List.replicate k 0x80) ++ [last]) =
        value front + 128 ^ (front.length + k) * payload last := by
  obtain ⟨front', last', same, open', stops⟩ := complete.eq_concat
  obtain ⟨rfl, sameLast⟩ := List.append_inj' same rfl
  obtain rfl : last = last' := by simpa using sameLast
  constructor
  · apply complete_concat _ stops
    intro b there
    rcases List.mem_append.mp there with inside | pad
    · exact open' b inside
    · rw [List.eq_of_mem_replicate pad]
      decide
  · rw [value_concat, value_append, value_replicate_zero, List.length_append, List.length_replicate,
      Nat.mul_zero, Nat.add_zero]

/-- A number below 2^32 has at most five groups, zero groups at its end left out. -/
theorem few_groups {front : List UInt8} {last : UInt8} (top : front ≠ [] → payload last ≠ 0)
    (word : value (front ++ [last]) < 2 ^ 32) : front.length ≤ 4 := by
  by_contra many
  have nonempty : front ≠ [] := by
    rintro rfl
    exact many (Nat.zero_le 4)
  have scale : 128 ^ 5 ≤ 128 ^ front.length := Nat.pow_le_pow_right (by omega) (by omega)
  have heavy : 128 ^ front.length * 1 ≤ 128 ^ front.length * payload last :=
    Nat.mul_le_mul_left _ (Nat.one_le_iff_ne_zero.mpr (top nonempty))
  rw [value_concat] at word
  omega

/-- Groups with a last one that is not zero are kept as something else once that one
has been moved. -/
theorem held_padded_ne {front : List UInt8} {last : UInt8} (complete : Complete (front ++ [last]))
    (heavy : 0 < payload last) {k : Nat} (some : 0 < k) (few : front.length + k + 1 ≤ 5) :
    held 0 ((front ++ List.replicate k 0x80) ++ [last]) ≠ value (front ++ [last]) := by
  have scale : 0 < 128 ^ front.length := Nat.pow_pos (by omega)
  have weight : 0 < 128 ^ front.length * payload last := Nat.mul_pos scale heavy
  obtain ⟨whole, total⟩ := padded_groups complete k
  have length : ((front ++ List.replicate k 0x80) ++ [last]).length = front.length + k + 1 := by
    simp [Nat.add_assoc]
  rw [value_concat]
  rcases held_eq_value whole (by omega) with same | ⟨four, top, shape, size, -⟩
  · -- the last group is worth at least 128 times as much
    have moved : 128 ^ front.length * 128 ≤ 128 ^ (front.length + k) := by
      rw [← Nat.pow_succ]
      exact Nat.pow_le_pow_right (by omega) (by omega)
    have more := Nat.mul_le_mul_right (payload last) moved
    rw [Nat.mul_right_comm] at more
    omega
  · -- what is kept of the fifth group is nothing, or more than the last group was worth
    obtain ⟨rfl, sameLast⟩ := List.append_inj' shape rfl
    obtain rfl : last = top := by simpa using sameLast
    rw [held_five last size, value_append, value_replicate_zero, Nat.mul_zero, Nat.add_zero]
    have below : 128 ^ front.length * payload last < 2 ^ 28 := by
      calc 128 ^ front.length * payload last
          < 128 ^ front.length * 128 := Nat.mul_lt_mul_of_pos_left (payload_lt last) scale
        _ = 128 ^ (front.length + 1) := (Nat.pow_succ ..).symm
        _ ≤ 128 ^ 4 := Nat.pow_le_pow_right (by omega) (by omega)
        _ = 2 ^ 28 := by norm_num
    rcases Nat.eq_zero_or_pos (payload last % 16) with zero | kept
    · rw [zero]
      omega
    · have above := Nat.mul_le_mul_right (2 ^ 28) kept
      omega

/-- The first byte of an integer: the pattern with at most `n` bits filled in. -/
theorem writeInteger_head (value n : Nat) (pattern bloat : UInt8) :
    ∃ x tail, x < 2 ^ n ∧
      writeInteger value n pattern bloat = (pattern ||| UInt8.ofNat x) :: tail := by
  have pos : 0 < 2 ^ n := Nat.two_pow_pos n
  unfold writeInteger
  by_cases small : value < 2 ^ n - 1
  · exact ⟨value, [], by omega, by simp only [if_pos small]⟩
  · exact ⟨2 ^ n - 1, _, by omega, by simp only [if_neg small]; rfl⟩

/-- The value part of a first byte whose pattern leaves the low bits clear. -/
theorem first_byte {n : Nat} (x : Nat) {pattern : UInt8} (width : n ≤ 8)
    (clear : pattern.toNat % 2 ^ n = 0) (small : x < 2 ^ n) :
    (pattern ||| UInt8.ofNat x).toNat &&& (2 ^ n - 1) = x := by
  have byte : x < 256 := lt_of_lt_of_le small (Nat.pow_le_pow_right (by omega) width)
  rw [Nat.and_two_pow_sub_one_eq_mod, UInt8.toNat_or, UInt8.toNat_ofNat', Nat.or_mod_two_pow, clear,
    Nat.zero_or, Nat.mod_eq_of_lt byte, Nat.mod_eq_of_lt small]

/-! ## The integer read back -/

section Written

variable {v n : Nat} {pattern bloat : UInt8} (front rest : List UInt8)

/-- An integer within its first part is read back, whatever the padding asked for. -/
theorem readInteger_small (width : n ≤ 8) (clear : pattern.toNat % 2 ^ n = 0)
    (small : v < 2 ^ n - 1) :
    readInteger (front ++ (writeInteger v n pattern bloat ++ rest)) front.length n =
      .ok (v, front.length + (writeInteger v n pattern bloat).length) := by
  have read := first_byte v width clear (by omega)
  have written : writeInteger v n pattern bloat = [pattern ||| UInt8.ofNat v] := by
    unfold writeInteger
    simp only [if_pos small]
  have here : (front ++ (writeInteger v n pattern bloat ++ rest)).drop front.length =
      (pattern ||| UInt8.ofNat v) :: rest := by
    rw [List.drop_left, written]
    rfl
  rw [readInteger_short here (by rw [read]; exact small), read, written]
  rfl

/-- A longer one is read as what the shifts keep of its padded groups. -/
theorem readInteger_large (width : n ≤ 8) (clear : pattern.toNat % 2 ^ n = 0)
    (large : 2 ^ n - 1 ≤ v) :
    ∃ groups last, Complete (groups ++ [last]) ∧ value (groups ++ [last]) = v - (2 ^ n - 1) ∧
      (groups ≠ [] → payload last ≠ 0) ∧
      (writeInteger v n pattern bloat).length = groups.length + bloat.toNat + 2 ∧
      readInteger (front ++ (writeInteger v n pattern bloat ++ rest)) front.length n =
        if groups.length + bloat.toNat + 1 ≤ 5 ∧
            2 ^ n - 1 + held 0 ((groups ++ List.replicate bloat.toNat 0x80) ++ [last]) < 2 ^ 32 then
          .ok (2 ^ n - 1 + held 0 ((groups ++ List.replicate bloat.toNat 0x80) ++ [last]),
            front.length + (writeInteger v n pattern bloat).length)
        else .error .integerOverflow := by
  have pos : 0 < 2 ^ n := Nat.two_pow_pos n
  obtain ⟨groups, last, complete, worth, top, written⟩ := writeInteger_groups pattern large
  have full := first_byte (2 ^ n - 1) width clear (by omega)
  have padded := (padded_groups complete bloat.toNat).1
  have size : ((groups ++ List.replicate bloat.toNat 0x80) ++ [last]).length =
      groups.length + bloat.toNat + 1 := by simp [Nat.add_assoc]
  have here : (front ++ (writeInteger v n pattern bloat ++ rest)).drop front.length =
      (pattern ||| UInt8.ofNat (2 ^ n - 1)) ::
        (((groups ++ List.replicate bloat.toNat 0x80) ++ [last]) ++ rest) := by
    rw [List.drop_left, written]
    rfl
  have length : (writeInteger v n pattern bloat).length = groups.length + bloat.toNat + 2 := by
    rw [written, List.length_cons, size]
  refine ⟨groups, last, complete, worth, top, length, ?_⟩
  rw [readInteger_long here full padded, size, length]
  congr 3
  omega

/-- **An integer is read back** when it is not padded, or when its one group behind the
first byte is zero. -/
theorem readInteger_writeInteger (width : n ≤ 8) (clear : pattern.toNat % 2 ^ n = 0)
    (word : v < 2 ^ 32)
    (harmless : bloat = 0 ∨ (v < 2 ^ n ∧ (writeInteger v n pattern bloat).length ≤ 6)) :
    readInteger (front ++ (writeInteger v n pattern bloat ++ rest)) front.length n =
      .ok (v, front.length + (writeInteger v n pattern bloat).length) := by
  by_cases small : v < 2 ^ n - 1
  · exact readInteger_small front rest width clear small
  · obtain ⟨groups, last, complete, worth, top, length, read⟩ :=
      @readInteger_large v n pattern bloat front rest width clear (by omega)
    obtain ⟨padded, total⟩ := padded_groups complete bloat.toNat
    have length' : ((groups ++ List.replicate bloat.toNat 0x80) ++ [last]).length =
        groups.length + bloat.toNat + 1 := by simp [Nat.add_assoc]
    -- the padded groups are still worth the remainder, and there are at most five
    have kept : groups.length + bloat.toNat + 1 ≤ 5 ∧
        value ((groups ++ List.replicate bloat.toNat 0x80) ++ [last]) = v - (2 ^ n - 1) := by
      rw [total]
      have weight := value_concat groups last
      rcases harmless with rfl | ⟨inside, few⟩
      · have short := few_groups top (by omega)
        exact ⟨show groups.length + 0 + 1 ≤ 5 by omega, weight.symm.trans worth⟩
      · have scale := Nat.pow_pos (n := groups.length) (show 0 < 128 by omega)
        have light : payload last = 0 := by
          by_contra heavy
          have product := Nat.mul_pos scale (Nat.pos_of_ne_zero heavy)
          omega
        rw [light, Nat.mul_zero] at weight ⊢
        exact ⟨by omega, by omega⟩
    have exact' : held 0 ((groups ++ List.replicate bloat.toNat 0x80) ++ [last]) =
        v - (2 ^ n - 1) := by
      rcases held_eq_value padded (by omega) with same | ⟨four, top', shape, size, heavy⟩
      · exact same.trans kept.2
      · have past := value_five size heavy
        rw [← shape, kept.2] at past
        omega
    rw [read, exact', if_pos ⟨kept.1, by omega⟩, show 2 ^ n - 1 + (v - (2 ^ n - 1)) = v by omega]

/-- **A padded integer is read as another one**, or not at all, when a group other than
zero moves. -/
theorem readInteger_padded (width : n ≤ 8) (clear : pattern.toNat % 2 ^ n = 0) (padded : bloat ≠ 0)
    (large : 2 ^ n ≤ v) {v' p : Nat}
    (read : readInteger (front ++ (writeInteger v n pattern bloat ++ rest)) front.length n =
      .ok (v', p)) : v' ≠ v := by
  obtain ⟨groups, last, complete, worth, top, -, eq⟩ :=
    @readInteger_large v n pattern bloat front rest width clear (by omega)
  rw [eq] at read
  split at read
  · rename_i fits
    cases read
    have some : 0 < bloat.toNat := by
      rcases Nat.eq_zero_or_pos bloat.toNat with zero | pos
      · exact absurd (UInt8.toNat_inj.mp zero) padded
      · exact pos
    have heavy : 0 < payload last := by
      by_cases alone : groups = []
      · subst alone
        simp only [List.nil_append, value_cons, value_nil] at worth
        omega
      · exact Nat.pos_of_ne_zero (top alone)
    have other := held_padded_ne complete heavy some fits.1
    omega
  · cases read

/-- **Padding, integer by integer**: what is read back is what was written exactly when
nothing is padded or the value is at most the first part's maximum. -/
theorem readInteger_writeInteger_iff (width : n ≤ 8) (clear : pattern.toNat % 2 ^ n = 0)
    (word : v < 2 ^ 32) (admissible : (writeInteger v n pattern bloat).length ≤ 6) :
    readInteger (front ++ (writeInteger v n pattern bloat ++ rest)) front.length n =
        .ok (v, front.length + (writeInteger v n pattern bloat).length) ↔
      bloat = 0 ∨ v < 2 ^ n := by
  constructor
  · intro read
    by_contra neither
    obtain ⟨padded, large⟩ := not_or.mp neither
    exact readInteger_padded front rest width clear padded (by omega) read rfl
  · rintro (plain | inside)
    · exact readInteger_writeInteger front rest width clear word (.inl plain)
    · exact readInteger_writeInteger front rest width clear word (.inr ⟨inside, admissible⟩)

end Written

end Blasthttp.H2.Hpack
