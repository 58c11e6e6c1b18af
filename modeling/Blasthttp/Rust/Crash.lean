/-
# Blasthttp.Rust.Crash -- the operations that panic

A slice off a character boundary, an index past the end, a subtraction below zero and an
`i64` out of range end the program.  Each of them is a computation that may end in a
`Crash`, with the lemma for the case in which it does not.  A sum of `usize` lengths is
not among them: what the lengths count is in memory.
-/
import Blasthttp.Rust.Result
import Blasthttp.Rust.Str

namespace Blasthttp.Rust

set_option autoImplicit false

inductive Crash where
  /-- `s[..stop]` -/
  | slice (s : Str) (stop : Nat)
  | index (length i : Nat)
  | overflow
  deriving DecidableEq

variable {α β ε : Type}

@[simp] theorem ok_bind (a : α) (f : α → Except ε β) : ((.ok a : Except ε α) >>= f) = f a := rfl

@[simp] theorem error_bind (e : ε) (f : α → Except ε β) :
    ((.error e : Except ε α) >>= f) = .error e := rfl

@[simp] theorem pure_eq_ok (a : α) : (pure a : Except ε α) = .ok a := rfl

/-! ## Text -/

/-- `s[..stop]`. -/
def sliceTo (s : Str) (stop : Nat) : Except Crash Str :=
  match takeBytes s stop with
  | some front => .ok front
  | none => .error (.slice s stop)

/-- `s.as_bytes()[i]`. -/
def asBytesAt (s : Str) (i : Nat) : Except Crash UInt8 :=
  match (utf8Bytes s)[i]? with
  | some b => .ok b
  | none => .error (.index (byteLen s) i)

/-- `str::rfind` on a character: the byte it begins at. -/
def rfind (c : Char) (s : Str) : Option Nat := (rsplitOnce c s).map fun parts => byteLen parts.1

theorem takeBytes_append (a b : Str) : takeBytes (a ++ b) (byteLen a) = some a := by
  induction a with
  | nil => cases b <;> rfl
  | cons c a ih =>
      obtain ⟨size, positive⟩ : ∃ size, c.utf8Size + byteLen a = size + 1 :=
        ⟨c.utf8Size + byteLen a - 1, by have some_byte := c.utf8Size_pos; omega⟩
      have fits : c.utf8Size ≤ size + 1 := by omega
      have left : size + 1 - c.utf8Size = byteLen a := by omega
      rw [byteLen, positive, List.cons_append, takeBytes, if_pos fits, left, ih]

theorem takeBytes_some {s a : Str} {n : Nat} (taken : takeBytes s n = some a) :
    ∃ b, s = a ++ b ∧ byteLen a = n := by
  fun_induction takeBytes s n generalizing a with
  | case1 s =>
      cases taken
      exact ⟨s, rfl, rfl⟩
  | case2 n => cases taken
  | case3 c rest n fits s found ih =>
      cases taken
      obtain ⟨b, whole, length⟩ := ih found
      refine ⟨b, by rw [List.cons_append, whole], ?_⟩
      rw [byteLen]
      omega
  | case4 c rest n fits found ih => cases taken
  | case5 c rest n wide => cases taken

/-- Byte `n` is inside a character. -/
def Inside (n : Nat) (s : Str) : Prop :=
  ∃ front c back, s = front ++ c :: back ∧ byteLen front < n ∧ n < byteLen (front ++ [c])

theorem Inside.lt {n : Nat} {s : Str} (inside : Inside n s) : n < byteLen s := by
  obtain ⟨front, c, back, rfl, -, high⟩ := inside
  rw [byteLen_append, byteLen]
  rw [byteLen_append, byteLen, byteLen] at high
  omega

/-- A slice ends past the text or inside a character, or it is taken. -/
theorem takeBytes_none_iff {s : Str} {n : Nat} :
    takeBytes s n = none ↔ byteLen s < n ∨ Inside n s := by
  constructor
  · intro refused
    fun_induction takeBytes s n with
    | case1 s => cases refused
    | case2 n => exact .inl (Nat.succ_pos n)
    | case3 c rest n fits s found ih => cases refused
    | case4 c rest n fits found ih =>
        rcases ih found with short | ⟨front, d, back, rfl, low, high⟩
        · refine .inl ?_
          rw [byteLen]
          omega
        · refine .inr ⟨c :: front, d, back, rfl, ?_, ?_⟩
          · rw [byteLen]
            omega
          · rw [List.cons_append, byteLen]
            omega
    | case5 c rest n wide =>
        refine .inr ⟨[], c, rest, rfl, Nat.succ_pos n, ?_⟩
        simp only [List.nil_append, byteLen]
        omega
  · intro off
    cases taken : takeBytes s n with
    | none => rfl
    | some a =>
        obtain ⟨b, rfl, length⟩ := takeBytes_some taken
        rcases off with short | ⟨front, c, back, whole, low, high⟩
        · rw [byteLen_append] at short
          omega
        · rcases List.append_eq_append_iff.mp whole with ⟨more, rfl, -⟩ | ⟨more, rfl, tail⟩
          · rw [byteLen_append] at low
            omega
          · cases more with
            | nil =>
                rw [List.append_nil] at length
                omega
            | cons d more =>
                cases tail
                rw [byteLen_append, byteLen] at length high
                simp only [byteLen] at high
                omega

theorem sliceTo_append (a b : Str) : sliceTo (a ++ b) (byteLen a) = .ok a := by
  simp [sliceTo, takeBytes_append]

/-- The byte of an ASCII character is in no other one. -/
theorem mem_utf8EncodeChar {a c : Char} (ascii : a.toNat < 128) {b : UInt8}
    (inside : b ∈ String.utf8EncodeChar c) : b = UInt8.ofNat a.toNat ↔ c = a := by
  by_cases narrow : c.toNat < 128
  · rw [utf8EncodeChar_ascii narrow, List.mem_singleton] at inside
    rw [inside]
    constructor
    · intro same
      have numbers := congrArg UInt8.toNat same
      rw [UInt8.toNat_ofNat', UInt8.toNat_ofNat', Nat.mod_eq_of_lt (by omega),
        Nat.mod_eq_of_lt (by omega)] at numbers
      exact Char.toNat_inj.mp numbers
    · rintro rfl
      rfl
  · have large := utf8EncodeChar_wide (Nat.le_of_not_lt narrow) b inside
    refine iff_of_false ?_ ?_
    · rintro rfl
      rw [UInt8.le_iff_toNat_le, UInt8.toNat_ofNat', Nat.mod_eq_of_lt (by omega)] at large
      exact absurd large (by show ¬ 128 ≤ a.toNat; omega)
    · rintro rfl
      exact narrow ascii

/-- The byte where a character begins. -/
theorem asBytesAt_first {a : Char} (ascii : a.toNat < 128) (front : Str) (c : Char) (back : Str) :
    ∃ b, asBytesAt (front ++ c :: back) (byteLen front) = .ok b ∧
      (b = UInt8.ofNat a.toNat ↔ c = a) := by
  obtain ⟨b, rest, bytes⟩ := List.exists_cons_of_ne_nil (utf8EncodeChar_ne_nil c)
  refine ⟨b, ?_, mem_utf8EncodeChar ascii (by rw [bytes]; exact List.mem_cons_self)⟩
  have place : (utf8Bytes (front ++ c :: back))[byteLen front]? = some b := by
    rw [utf8Bytes_append, ← length_utf8Bytes front, List.getElem?_append_right (Nat.le_refl _),
      Nat.sub_self]
    show (String.utf8EncodeChar c ++ utf8Bytes back)[0]? = some b
    rw [bytes]
    rfl
  simp [asBytesAt, place]

/-- The byte where a character ends. -/
theorem asBytesAt_last {a : Char} (ascii : a.toNat < 128) (front : Str) (c : Char) (back : Str) :
    ∃ b, asBytesAt (front ++ c :: back) (byteLen (front ++ [c]) - 1) = .ok b ∧
      (b = UInt8.ofNat a.toNat ↔ c = a) := by
  obtain ⟨start, b, bytes⟩ :=
    List.eq_nil_or_concat (String.utf8EncodeChar c) |>.resolve_left (utf8EncodeChar_ne_nil c)
  refine ⟨b, ?_, mem_utf8EncodeChar ascii (by rw [bytes]; simp)⟩
  have size : c.utf8Size = start.length + 1 := by
    rw [← String.length_utf8EncodeChar, bytes]
    simp
  have stop : byteLen (front ++ [c]) - 1 = (utf8Bytes front ++ start).length := by
    rw [byteLen_append, List.length_append, length_utf8Bytes, byteLen, size]
    simp [byteLen]
  have place : (utf8Bytes (front ++ c :: back))[byteLen (front ++ [c]) - 1]? = some b := by
    have split : utf8Bytes (front ++ c :: back) =
        (utf8Bytes front ++ start) ++ b :: utf8Bytes back := by
      rw [utf8Bytes_append]
      show utf8Bytes front ++ (String.utf8EncodeChar c ++ utf8Bytes back) = _
      rw [bytes]
      simp
    rw [split, stop]
    simp
  simp [asBytesAt, place]

/-! ## Lists and numbers -/

/-- `xs[i]`. -/
def entryAt (xs : List α) (i : Nat) : Except Crash α :=
  match xs[i]? with
  | some x => .ok x
  | none => .error (.index xs.length i)

/-- `xs.remove(i)`. -/
def removeAt (xs : List α) (i : Nat) : Except Crash (List α) :=
  if i < xs.length then .ok (xs.eraseIdx i) else .error (.index xs.length i)

/-- `a - b` at `usize`. -/
def subUsize (a b : Nat) : Except Crash Nat := if b ≤ a then .ok (a - b) else .error .overflow

/-- A result of `i64` arithmetic. -/
def i64 (n : Int) : Except Crash Int :=
  if -(2 ^ 63) ≤ n ∧ n < 2 ^ 63 then .ok n else .error .overflow

theorem entryAt_of_lt {xs : List α} {i : Nat} (inside : i < xs.length) :
    entryAt xs i = .ok xs[i] := by
  simp [entryAt, List.getElem?_eq_getElem inside]

theorem removeAt_of_lt {xs : List α} {i : Nat} (inside : i < xs.length) :
    removeAt xs i = .ok (xs.eraseIdx i) := if_pos inside

theorem subUsize_of_le {a b : Nat} (le : b ≤ a) : subUsize a b = .ok (a - b) := if_pos le

theorem i64_of_range {n : Int} (low : -(2 ^ 63) ≤ n) (high : n < 2 ^ 63) : i64 n = .ok n :=
  if_pos ⟨low, high⟩

end Blasthttp.Rust
