/-
# Blasthttp.H2.HpackInteger -- which integers are read exactly

`IntegerAt` is the encoding of RFC 7541 §5.1 with its mathematical value.  The
reader adds up what 32-bit shifts keep of each group (`held`), which is the value
for the first four continuation bytes and loses bits of the fifth when its group is
16 or more; a sixth is refused.  `readInteger_exact_iff` says exactly which buffers
show the loss.
-/
import Blasthttp.Lib.Groups
import Blasthttp.H2.HpackDecode

namespace Blasthttp.H2.Hpack

open Blasthttp.Lib.Groups

set_option autoImplicit false

/-! ## Integers of the RFC -/

/-- The integer with an `n`-bit first part that stands at `pos`: its value and where
it ends. -/
inductive IntegerAt (buf : List UInt8) (pos n : Nat) : Nat → Nat → Prop
  | short {b : UInt8} {rest : List UInt8} (here : buf.drop pos = b :: rest)
      (small : b.toNat &&& (2 ^ n - 1) < 2 ^ n - 1) :
      IntegerAt buf pos n (b.toNat &&& (2 ^ n - 1)) (pos + 1)
  | long {b : UInt8} {bytes rest : List UInt8} (here : buf.drop pos = b :: (bytes ++ rest))
      (full : b.toNat &&& (2 ^ n - 1) = 2 ^ n - 1) (complete : Complete bytes) :
      IntegerAt buf pos n (2 ^ n - 1 + value bytes) (pos + 1 + bytes.length)

/-- One encoding stands at a position, if any does. -/
theorem IntegerAt.unique {buf : List UInt8} {pos n v v' p p' : Nat}
    (first : IntegerAt buf pos n v p) (second : IntegerAt buf pos n v' p') : v = v' ∧ p = p' := by
  cases first with
  | @short b rest here small =>
      cases second with
      | @short c rest' here' small' =>
          rw [here] at here'
          obtain ⟨rfl, -⟩ := List.cons_eq_cons.mp here'
          exact ⟨rfl, rfl⟩
      | @long c bytes rest' here' full complete =>
          rw [here] at here'
          obtain ⟨rfl, -⟩ := List.cons_eq_cons.mp here'
          omega
  | @long b bytes rest here full complete =>
      cases second with
      | @short c rest' here' small =>
          rw [here] at here'
          obtain ⟨rfl, -⟩ := List.cons_eq_cons.mp here'
          omega
      | @long c bytes' rest' here' full' complete' =>
          rw [here] at here'
          obtain ⟨-, behind⟩ := List.cons_eq_cons.mp here'
          rw [complete.cut_unique complete' behind]
          exact ⟨rfl, rfl⟩

/-- `read_integer` yields nothing but the value of the encoding, and refuses every
complete one of 2^32 or more. -/
def ReadExactly (buf : List UInt8) (pos n : Nat) : Prop :=
  (∀ v p, readInteger buf pos n = .ok (v, p) → IntegerAt buf pos n v p) ∧
    ∀ v p, IntegerAt buf pos n v p → 2 ^ 32 ≤ v → readInteger buf pos n = .error .integerOverflow

/-- Five continuation bytes, the last with a group of 16 or more, of which the bits
that fit are not too large. -/
def LosesBits (buf : List UInt8) (pos n : Nat) : Prop :=
  ∃ b four last rest, buf.drop pos = b :: ((four ++ [last]) ++ rest) ∧
    b.toNat &&& (2 ^ n - 1) = 2 ^ n - 1 ∧ four.length = 4 ∧ Complete (four ++ [last]) ∧
    16 ≤ payload last ∧ 2 ^ n - 1 + value four + payload last % 16 * 2 ^ 28 < 2 ^ 32

/-! ## What the shifts keep -/

/-- The sum of the groups as `checked_shl` leaves them. -/
def held : Nat → List UInt8 → Nat
  | _, [] => 0
  | shift, b :: rest => (payload b <<< shift) % 2 ^ 32 + held (shift + 7) rest

theorem held_append (shift : Nat) (xs ys : List UInt8) :
    held shift (xs ++ ys) = held shift xs + held (shift + 7 * xs.length) ys := by
  induction xs generalizing shift with
  | nil => simp [held]
  | cons b xs ih =>
      have next : shift + 7 + 7 * xs.length = shift + 7 * (b :: xs).length := by
        rw [List.length_cons]; omega
      rw [List.cons_append, held, held, ih, next, Nat.add_assoc]

/-- Groups that stay inside the word are kept whole. -/
theorem held_exact :
    ∀ (shift : Nat) (bytes : List UInt8), shift + 7 * bytes.length ≤ 32 →
      held shift bytes = value bytes * 2 ^ shift
  | _, [], _ => by simp [held]
  | shift, b :: rest, inside => by
      rw [List.length_cons] at inside
      have word : payload b * 2 ^ shift < 2 ^ 32 := by
        calc payload b * 2 ^ shift
            < 2 ^ 7 * 2 ^ shift := Nat.mul_lt_mul_of_pos_right (payload_lt b) (Nat.two_pow_pos _)
          _ = 2 ^ (7 + shift) := (Nat.pow_add 2 7 shift).symm
          _ ≤ 2 ^ 32 := Nat.pow_le_pow_right (by omega) (by omega)
      rw [held, Nat.shiftLeft_eq, Nat.mod_eq_of_lt word, held_exact (shift + 7) rest (by omega),
        value_cons, Nat.pow_add]
      ring

/-- Of the fifth group four bits are kept. -/
theorem held_fifth (b : UInt8) : held 28 [b] = payload b % 16 * 2 ^ 28 := by
  have split : (2 : Nat) ^ 32 = 16 * 2 ^ 28 := by norm_num
  rw [held, held, Nat.shiftLeft_eq, split, Nat.mul_mod_mul_right, Nat.add_zero]

/-- A list of five groups, taken apart. -/
theorem held_five {four : List UInt8} (last : UInt8) (length : four.length = 4) :
    held 0 (four ++ [last]) = value four + payload last % 16 * 2 ^ 28 := by
  rw [held_append, held_exact 0 four (by omega), length, ← held_fifth]
  simp

/-- Up to five groups are kept whole, unless the fifth is 16 or more. -/
theorem held_eq_value {bytes : List UInt8} (complete : Complete bytes)
    (few : bytes.length ≤ 5) :
    held 0 bytes = value bytes ∨
      ∃ four last, bytes = four ++ [last] ∧ four.length = 4 ∧ 16 ≤ payload last := by
  by_cases inside : bytes.length ≤ 4
  · exact .inl (by rw [held_exact 0 bytes (by omega)]; simp)
  · obtain ⟨four, last, rfl, -, -⟩ := complete.eq_concat
    have length : four.length = 4 := by
      rw [List.length_append, List.length_singleton] at few inside
      omega
    by_cases fits : payload last < 16
    · refine .inl ?_
      rw [held_five last length, Nat.mod_eq_of_lt fits, value_concat, length,
        Nat.mul_comm (128 ^ 4)]
      norm_num
    · exact .inr ⟨four, last, rfl, length, by omega⟩

/-! ## The continuation loop -/

theorem readContinuation_cons (acc shift p : Nat) (b : UInt8) (rest : List UInt8) :
    readContinuation acc shift p (b :: rest) =
      if 32 ≤ shift then .error .integerOverflow
      else if 2 ^ 32 ≤ acc + (payload b <<< shift) % 2 ^ 32 then .error .integerOverflow
      else if more b then
        readContinuation (acc + (payload b <<< shift) % 2 ^ 32) (shift + 7) (p + 1) rest
      else .ok (acc + (payload b <<< shift) % 2 ^ 32, p + 1) := by
  rw [readContinuation]
  by_cases flag : b &&& 0x80 = 0
  · simp [payload, more, flag]
  · simp [payload, more, flag]

/-- On a complete number the loop yields what its shifts keep, or overflows. -/
theorem readContinuation_complete {bytes : List UInt8} (complete : Complete bytes)
    (rest : List UInt8) :
    ∀ (acc shift p : Nat),
      readContinuation acc shift p (bytes ++ rest) =
        if shift + 7 * (bytes.length - 1) < 32 ∧ acc + held shift bytes < 2 ^ 32 then
          .ok (acc + held shift bytes, p + bytes.length)
        else .error .integerOverflow := by
  induction complete with
  | last b stops =>
      intro acc shift p
      have sum : acc + held shift [b] = acc + (payload b <<< shift) % 2 ^ 32 := rfl
      rw [List.singleton_append, readContinuation_cons, stops, sum]
      by_cases room : shift < 32
      · rw [if_neg (show ¬ 32 ≤ shift by omega)]
        by_cases fits : acc + (payload b <<< shift) % 2 ^ 32 < 2 ^ 32
        · rw [if_neg (by omega), if_neg (by simp), if_pos ⟨room, fits⟩]
          rfl
        · rw [if_pos (by omega), if_neg (fun both => fits both.2)]
      · rw [if_pos (by omega), if_neg (fun both => room both.1)]
  | next b tail goes complete ih =>
      intro acc shift p
      have pos := complete.length_pos
      have sum : acc + held shift (b :: tail) =
          acc + (payload b <<< shift) % 2 ^ 32 + held (shift + 7) tail := (Nat.add_assoc _ _ _).symm
      have last : shift + 7 * ((b :: tail).length - 1) = shift + 7 + 7 * (tail.length - 1) := by
        rw [List.length_cons]; omega
      have ends : p + (b :: tail).length = p + 1 + tail.length := by
        rw [List.length_cons]; omega
      rw [List.cons_append, readContinuation_cons, goes, sum, last, ends]
      by_cases room : shift < 32
      · rw [if_neg (by omega)]
        by_cases fits : acc + (payload b <<< shift) % 2 ^ 32 < 2 ^ 32
        · rw [if_neg (by omega), if_pos rfl, ih]
        · rw [if_pos (by omega), if_neg (fun both => by omega)]
      · rw [if_pos (by omega), if_neg (fun both => by omega)]

/-- A number that never ends is not read. -/
theorem readContinuation_open :
    ∀ {bytes : List UInt8}, (∀ b ∈ bytes, more b = true) → ∀ (acc shift p : Nat),
      ∃ e, readContinuation acc shift p bytes = .error e
  | [], _, _, _, p => ⟨.unexpectedEof p, rfl⟩
  | b :: rest, open', acc, shift, p => by
      have later := @readContinuation_open rest
        (fun c there => open' c (List.mem_cons_of_mem _ there))
      rw [readContinuation_cons, open' b List.mem_cons_self]
      split
      · exact ⟨_, rfl⟩
      · split
        · exact ⟨_, rfl⟩
        · exact later _ _ _

/-! ## The reader -/

theorem readInteger_short {buf : List UInt8} {pos n : Nat} {b : UInt8} {rest : List UInt8}
    (here : buf.drop pos = b :: rest) (small : b.toNat &&& (2 ^ n - 1) < 2 ^ n - 1) :
    readInteger buf pos n = .ok (b.toNat &&& (2 ^ n - 1), pos + 1) := by
  unfold readInteger
  rw [here]
  simp only [if_pos small]

/-- A complete encoding is read as what the shifts keep of it, or refused. -/
theorem readInteger_long {buf : List UInt8} {pos n : Nat} {b : UInt8} {bytes rest : List UInt8}
    (here : buf.drop pos = b :: (bytes ++ rest)) (full : b.toNat &&& (2 ^ n - 1) = 2 ^ n - 1)
    (complete : Complete bytes) :
    readInteger buf pos n =
      if bytes.length ≤ 5 ∧ 2 ^ n - 1 + held 0 bytes < 2 ^ 32 then
        .ok (2 ^ n - 1 + held 0 bytes, pos + 1 + bytes.length)
      else .error .integerOverflow := by
  have room : 0 + 7 * (bytes.length - 1) < 32 ↔ bytes.length ≤ 5 := by
    have pos := complete.length_pos
    omega
  unfold readInteger
  rw [here]
  simp only [full, lt_irrefl, if_false, readContinuation_complete complete rest, room]

/-- Where the reader succeeds there is an encoding. -/
theorem readInteger_ok {buf : List UInt8} {pos n v p : Nat}
    (read : readInteger buf pos n = .ok (v, p)) :
    (∃ b rest, buf.drop pos = b :: rest ∧ b.toNat &&& (2 ^ n - 1) < 2 ^ n - 1 ∧
      v = b.toNat &&& (2 ^ n - 1) ∧ p = pos + 1) ∨
    ∃ b bytes rest, buf.drop pos = b :: (bytes ++ rest) ∧ b.toNat &&& (2 ^ n - 1) = 2 ^ n - 1 ∧
      Complete bytes ∧ bytes.length ≤ 5 ∧ 2 ^ n - 1 + held 0 bytes < 2 ^ 32 ∧
      v = 2 ^ n - 1 + held 0 bytes ∧ p = pos + 1 + bytes.length := by
  cases here : buf.drop pos with
  | nil =>
      unfold readInteger at read
      rw [here] at read
      cases read
  | cons b rest =>
      by_cases small : b.toNat &&& (2 ^ n - 1) < 2 ^ n - 1
      · rw [readInteger_short here small] at read
        cases read
        exact .inl ⟨b, rest, rfl, small, rfl, rfl⟩
      · have full : b.toNat &&& (2 ^ n - 1) = 2 ^ n - 1 := by
          have bound : b.toNat &&& (2 ^ n - 1) ≤ 2 ^ n - 1 := Nat.and_le_right
          omega
        rcases complete_or_open rest with ⟨bytes, behind, rfl, complete⟩ | open'
        · rw [readInteger_long here full complete] at read
          split at read
          · rename_i fits
            cases read
            exact .inr ⟨b, bytes, behind, rfl, full, complete, fits.1, fits.2, rfl, rfl⟩
          · cases read
        · unfold readInteger at read
          rw [here] at read
          simp only [full, lt_irrefl, if_false] at read
          obtain ⟨e, failed⟩ := readContinuation_open open' (2 ^ n - 1) 0 (pos + 1)
          rw [failed] at read
          cases read

/-- What five groups come to when the last is too large for its place. -/
theorem value_five {four : List UInt8} {last : UInt8} (length : four.length = 4)
    (large : 16 ≤ payload last) : 2 ^ 32 ≤ value (four ++ [last]) := by
  rw [value_concat, length]
  norm_num
  omega

/-- **Integers are read exactly or refused, but for one kind.** -/
theorem readInteger_exact_iff (buf : List UInt8) (pos n : Nat) (width : 1 ≤ n ∧ n ≤ 8) :
    ReadExactly buf pos n ↔ ¬ LosesBits buf pos n := by
  constructor
  · rintro ⟨-, refused⟩ ⟨b, four, last, rest, here, full, length, complete, large, fits⟩
    have overflow := refused _ _ (.long here full complete)
      (le_trans (value_five length large) (Nat.le_add_left _ _))
    have five : (four ++ [last]).length ≤ 5 := by simp [length]
    rw [readInteger_long here full complete, held_five last length, if_pos ⟨five, by omega⟩] at overflow
    cases overflow
  · intro kept
    have exact' : ∀ {b : UInt8} {bytes rest : List UInt8}, buf.drop pos = b :: (bytes ++ rest) →
        b.toNat &&& (2 ^ n - 1) = 2 ^ n - 1 → Complete bytes → bytes.length ≤ 5 →
        2 ^ n - 1 + held 0 bytes < 2 ^ 32 → held 0 bytes = value bytes := by
      intro b bytes rest here full complete few fits
      rcases held_eq_value complete few with same | ⟨four, last, rfl, length, large⟩
      · exact same
      · rw [held_five last length] at fits
        exact absurd ⟨b, four, last, rest, here, full, length, complete, large, by omega⟩ kept
    constructor
    · intro v p read
      rcases readInteger_ok read with ⟨b, rest, here, small, rfl, rfl⟩ |
        ⟨b, bytes, rest, here, full, complete, few, fits, rfl, rfl⟩
      · exact .short here small
      · rw [exact' here full complete few fits]
        exact .long here full complete
    · intro v p there large
      cases there with
      | @short b rest here small =>
          have low : 2 ^ n ≤ 2 ^ 8 := Nat.pow_le_pow_right (by omega) width.2
          omega
      | @long b bytes rest here full complete =>
          rw [readInteger_long here full complete, if_neg]
          rintro ⟨few, fits⟩
          have same := exact' here full complete few fits
          omega

/-- 1337 of the RFC's examples. -/
theorem readInteger_exact_iff_1337 : ReadExactly [0x1F, 0x9A, 0x0A] 0 5 := by
  apply (readInteger_exact_iff [0x1F, 0x9A, 0x0A] 0 5 (by decide)).mpr
  rintro ⟨b, four, last, rest, here, -, length, -, -, -⟩
  have total := congrArg List.length here
  simp only [List.drop_zero, List.length_cons, List.length_append, List.length_nil, length] at total
  omega

/-- 31 and five groups of which the last, worth 16 in the fifth place, is shifted out:
2^32 + 31 is read as 31. -/
theorem readInteger_truncates :
    readInteger [0x1F, 0x80, 0x80, 0x80, 0x80, 0x10] 0 5 = .ok (31, 6) ∧
      ¬ ReadExactly [0x1F, 0x80, 0x80, 0x80, 0x80, 0x10] 0 5 := by
  have read : readInteger [0x1F, 0x80, 0x80, 0x80, 0x80, 0x10] 0 5 = .ok (31, 6) := rfl
  refine ⟨read, ?_⟩
  rintro ⟨sound, -⟩
  have complete : Complete [0x80, 0x80, 0x80, 0x80, 0x10] :=
    .next _ _ rfl (.next _ _ rfl (.next _ _ rfl (.next _ _ rfl (.last _ rfl))))
  have encoded : IntegerAt [0x1F, 0x80, 0x80, 0x80, 0x80, 0x10] 0 5 _ _ :=
    @IntegerAt.long _ _ _ 0x1F _ [] rfl (by decide) complete
  have same := (sound 31 6 read).unique encoded
  exact absurd same.1 (by decide)

end Blasthttp.H2.Hpack
