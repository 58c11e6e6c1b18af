/-
# Blasthttp.Rust.Str -- the string operations the source calls

A string is the list of its characters; `byteLen` counts the UTF-8 bytes where the
source takes a `len()`.  `split` on a character is `List.splitOn`, and the `trim`
family goes through `List.dropWhile` and `List.rdropWhile`.  `trim_append` says that
white space at either end never matters, which is what the cookie parsers agree on.
-/
import Mathlib

namespace Blasthttp.Rust

set_option autoImplicit false

abbrev Str := List Char

/-- `str::len`: the number of UTF-8 bytes. -/
def byteLen : Str → Nat
  | [] => 0
  | c :: rest => c.utf8Size + byteLen rest

/-- `str::as_bytes`. -/
def utf8Bytes (s : Str) : List UInt8 := s.flatMap String.utf8EncodeChar

/-- `char::is_whitespace`: the characters with the property `White_Space`. -/
def isWhitespace (c : Char) : Bool :=
  (9 ≤ c.toNat && c.toNat ≤ 13) || c.toNat = 0x20 || c.toNat = 0x85 || c.toNat = 0xA0 ||
    c.toNat = 0x1680 || (0x2000 ≤ c.toNat && c.toNat ≤ 0x200A) || c.toNat = 0x2028 ||
    c.toNat = 0x2029 || c.toNat = 0x202F || c.toNat = 0x205F || c.toNat = 0x3000

def trimStart (s : Str) : Str := s.dropWhile isWhitespace

def trimEnd (s : Str) : Str := s.rdropWhile isWhitespace

def trim (s : Str) : Str := trimEnd (trimStart s)

/-- `str::to_ascii_lowercase`. -/
def toAsciiLowercase (s : Str) : Str := s.map Char.toLower

def eqIgnoreAsciiCase (a b : Str) : Bool := toAsciiLowercase a = toAsciiLowercase b

/-- `str::split_once` on a character. -/
def splitOnce (sep : Char) : Str → Option (Str × Str)
  | [] => none
  | c :: rest =>
      if c = sep then some ([], rest)
      else
        match splitOnce sep rest with
        | some (before, after) => some (c :: before, after)
        | none => none

/-- `str::rsplit_once` on a character. -/
def rsplitOnce (sep : Char) (s : Str) : Option (Str × Str) :=
  (splitOnce sep s.reverse).map fun parts => (parts.2.reverse, parts.1.reverse)

/-- `str::split_once` on a string. -/
def splitOnceStr (pattern : Str) : Str → Option (Str × Str)
  | [] => if pattern.isEmpty then some ([], []) else none
  | c :: rest =>
      if pattern.isPrefixOf (c :: rest) then some ([], (c :: rest).drop pattern.length)
      else (splitOnceStr pattern rest).map fun parts => (c :: parts.1, parts.2)

/-- The decimal digits of a number. -/
def decimalText (n : Nat) : Str := (toString n).toList

/-- `str::split_whitespace`: the maximal runs of other characters. -/
def splitWhitespace (s : Str) : List Str :=
  (s.splitOnP isWhitespace).filter fun token => !token.isEmpty

/-- `s[..n]`, `none` when byte `n` is past the end or inside a character. -/
def takeBytes : Str → Nat → Option Str
  | _, 0 => some []
  | [], _ + 1 => none
  | c :: rest, n + 1 =>
      if c.utf8Size ≤ n + 1 then
        match takeBytes rest (n + 1 - c.utf8Size) with
        | some s => some (c :: s)
        | none => none
      else none

/-! ## Bytes -/

theorem utf8EncodeChar_ne_nil (c : Char) : String.utf8EncodeChar c ≠ [] := by
  rw [← List.length_pos_iff, String.length_utf8EncodeChar]
  exact c.utf8Size_pos

theorem utf8EncodeChar_ascii {c : Char} (ascii : c.toNat < 128) :
    String.utf8EncodeChar c = [UInt8.ofNat c.toNat] := by
  unfold String.utf8EncodeChar
  simp only
  rw [if_pos (by show c.toNat ≤ 0x7f; omega)]
  rfl

/-- No byte of any other character is that of an ASCII one. -/
theorem utf8EncodeChar_wide {c : Char} (wide : 128 ≤ c.toNat) :
    ∀ b ∈ String.utf8EncodeChar c, 128 ≤ b := by
  have large : ∀ n, 128 ≤ n → n < 256 → (128 : UInt8) ≤ UInt8.ofNat n := by
    intro n above below
    rw [UInt8.le_iff_toNat_le, UInt8.toNat_ofNat', Nat.mod_eq_of_lt below]
    exact above
  have listed : ∀ {bytes : List UInt8}, (∀ b ∈ bytes, 128 ≤ b) ↔
      bytes.Forall fun b => 128 ≤ b := List.forall_iff_forall_mem.symm
  unfold String.utf8EncodeChar
  simp only
  rw [if_neg (by show ¬ c.toNat ≤ 0x7f; omega), listed]
  split
  · exact ⟨large _ (by omega) (by omega), large _ (by omega) (by omega)⟩
  · split
    · exact ⟨large _ (by omega) (by omega), large _ (by omega) (by omega),
        large _ (by omega) (by omega)⟩
    · exact ⟨large _ (by omega) (by omega), large _ (by omega) (by omega),
        large _ (by omega) (by omega), large _ (by omega) (by omega)⟩

theorem utf8Bytes_append (a b : Str) : utf8Bytes (a ++ b) = utf8Bytes a ++ utf8Bytes b :=
  List.flatMap_append

theorem length_utf8Bytes (s : Str) : (utf8Bytes s).length = byteLen s := by
  induction s with
  | nil => rfl
  | cons c s ih =>
      rw [byteLen, ← ih, ← String.length_utf8EncodeChar, utf8Bytes, List.flatMap_cons,
        List.length_append]
      rfl

theorem byteLen_append (a b : Str) : byteLen (a ++ b) = byteLen a + byteLen b := by
  induction a with
  | nil => simp [byteLen]
  | cons c a ih => simp only [List.cons_append, byteLen, ih, Nat.add_assoc]

theorem utf8Size_toLower (c : Char) : c.toLower.utf8Size = c.utf8Size := by
  unfold Char.toLower
  split
  · rename_i upper
    obtain ⟨low, high⟩ := upper
    rw [UInt32.le_iff_toNat_le] at high
    have below : c.val.toNat ≤ 90 := high
    have before : c.utf8Size = 1 := by
      rw [Char.utf8Size_eq_one_iff, UInt32.le_iff_toNat_le]
      show c.val.toNat ≤ 127
      omega
    rw [before, Char.utf8Size_eq_one_iff, UInt32.le_iff_toNat_le]
    show (c.val.toNat + 32) % 2 ^ 32 ≤ 127
    omega
  · rfl

theorem byteLen_toAsciiLowercase (s : Str) : byteLen (toAsciiLowercase s) = byteLen s := by
  induction s with
  | nil => rfl
  | cons c s ih =>
      show c.toLower.utf8Size + byteLen (toAsciiLowercase s) = c.utf8Size + byteLen s
      rw [utf8Size_toLower, ih]

/-! ## Numbers -/

/-- The value of a character as a digit in `radix`, as `char::to_digit`. -/
def toDigit (radix : Nat) (c : Char) : Option Nat :=
  let value :=
    if '0' ≤ c ∧ c ≤ '9' then some (c.toNat - 48)
    else if 'a' ≤ c ∧ c ≤ 'z' then some (c.toNat - 87)
    else if 'A' ≤ c ∧ c ≤ 'Z' then some (c.toNat - 55)
    else none
  match value with
  | some v => if v < radix then some v else none
  | none => none

/-- The value of a non-empty string of decimal digits. -/
def decimal (s : Str) : Option Nat :=
  if s.isEmpty then none
  else s.foldlM (fun n c => (toDigit 10 c).map fun v => 10 * n + v) 0

/-- `parse::<i64>`: an optional sign, then digits, within the range. -/
def parseI64 : Str → Option Int
  | '-' :: digits =>
      match decimal digits with
      | some n => if n ≤ 2 ^ 63 then some (-(n : Int)) else none
      | none => none
  | '+' :: digits =>
      match decimal digits with
      | some n => if n < 2 ^ 63 then some n else none
      | none => none
  | digits =>
      match decimal digits with
      | some n => if n < 2 ^ 63 then some n else none
      | none => none

/-- `parse` at an unsigned type of `width` bits: an optional `+`, then digits. -/
def parseUnsigned (width : Nat) (s : Str) : Option Nat :=
  let digits :=
    match s with
    | '+' :: rest => rest
    | _ => s
  match decimal digits with
  | some n => if n < 2 ^ width then some n else none
  | none => none

theorem decimalText_eq (n : Nat) : decimalText n = Nat.toDigits 10 n := by
  simp [decimalText, Nat.repr]

theorem decimalText_digits {n : Nat} {c : Char} (there : c ∈ decimalText n) : c.isDigit = true := by
  rw [decimalText_eq] at there
  exact Nat.isDigit_of_mem_toDigits (by decide) (by decide) there

theorem not_mem_decimalText {c : Char} (other : c.isDigit = false) (n : Nat) :
    c ∉ decimalText n := by
  intro there
  rw [decimalText_digits there] at other
  cases other

theorem decimalText_inj {m n : Nat} (same : decimalText m = decimalText n) : m = n := by
  rw [decimalText_eq, decimalText_eq] at same
  rw [← Nat.ofDigitChars_ten_toDigits (n := m), same, Nat.ofDigitChars_ten_toDigits]

theorem toDigit_of_isDigit {c : Char} (digit : c.isDigit = true) :
    toDigit 10 c = some (c.toNat - 48) := by
  have range : '0' ≤ c ∧ c ≤ '9' := by
    simpa [Char.isDigit, Char.le_def] using digit
  have below : c.toNat ≤ 57 := range.2
  unfold toDigit
  simp only [range, and_self, if_true]
  rw [if_pos (by omega)]

/-- The digits of a number read back as that number. -/
theorem decimal_decimalText (n : Nat) : decimal (decimalText n) = some n := by
  have folds : ∀ {s : Str} (before : Nat), (∀ c ∈ s, c.isDigit = true) →
      s.foldlM (fun n c => (toDigit 10 c).map fun v => 10 * n + v) before =
        some (Nat.ofDigitChars 10 s before) := by
    intro s
    induction s with
    | nil =>
        intro before digits
        simp [Nat.ofDigitChars_nil]
    | cons c s ih =>
        intro before digits
        rw [List.foldlM_cons, toDigit_of_isDigit (digits c List.mem_cons_self),
          Nat.ofDigitChars_cons]
        exact ih _ fun d there => digits d (List.mem_cons_of_mem _ there)
  have written : (decimalText n).isEmpty = false := by
    simp [decimalText_eq, Nat.toDigits_ne_nil]
  rw [decimal, if_neg (by simp [written]), folds 0 fun c there => decimalText_digits there,
    decimalText_eq, Nat.ofDigitChars_ten_toDigits]

theorem parseUnsigned_decimalText {width n : Nat} (small : n < 2 ^ width) :
    parseUnsigned width (decimalText n) = some n := by
  have unsigned : ∀ rest, decimalText n ≠ '+' :: rest := by
    intro rest plus
    have digit := decimalText_digits (n := n) (plus ▸ List.mem_cons_self)
    cases digit
  unfold parseUnsigned
  split
  · rename_i rest plus
    exact absurd plus (unsigned _)
  · simp only [decimal_decimalText, small, if_true]

theorem toDigit_lt {radix v : Nat} {c : Char} (digit : toDigit radix c = some v) : v < radix := by
  unfold toDigit at digit
  dsimp only at digit
  split at digit
  · split at digit
    · cases digit
      assumption
    · cases digit
  · cases digit

/-- A number is below the power of ten of its digits. -/
theorem decimal_lt {s : Str} {n : Nat} (read : decimal s = some n) : n < 10 ^ s.length := by
  have grows : ∀ {s : Str} {before after : Nat},
      s.foldlM (fun n c => (toDigit 10 c).map fun v => 10 * n + v) before = some after →
        after < (before + 1) * 10 ^ s.length := by
    intro s
    induction s with
    | nil =>
        intro before after read
        cases read
        simp
    | cons c s ih =>
        intro before after read
        rw [List.foldlM_cons] at read
        obtain ⟨next, digit, read⟩ := Option.bind_eq_some_iff.mp read
        obtain ⟨v, found, rfl⟩ := Option.map_eq_some_iff.mp digit
        have small := toDigit_lt found
        calc after < (10 * before + v + 1) * 10 ^ s.length := ih read
          _ ≤ ((before + 1) * 10) * 10 ^ s.length := Nat.mul_le_mul_right _ (by omega)
          _ = (before + 1) * 10 ^ (c :: s).length := by
            rw [List.length_cons, Nat.pow_succ', Nat.mul_assoc]
  unfold decimal at read
  split at read
  · cases read
  · simpa using grows read

theorem length_le_byteLen (s : Str) : s.length ≤ byteLen s := by
  induction s with
  | nil => exact Nat.le_refl _
  | cons c s ih =>
      have some_byte := c.utf8Size_pos
      rw [List.length_cons, byteLen]
      omega

/-- A number of `length` bytes is that small. -/
theorem parseI64_lt {s : Str} {n : Int} {length : Nat} (read : parseI64 s = some n)
    (short : byteLen s ≤ length) : -(10 ^ length : Int) < n ∧ n < 10 ^ length := by
  have size := length_le_byteLen s
  have digits : ∀ {digits : Str} {m : Nat}, decimal digits = some m → digits.length ≤ s.length →
      (m : Int) < 10 ^ length := by
    intro digits m value fewer
    have small := decimal_lt value
    have le : 10 ^ digits.length ≤ 10 ^ length := Nat.pow_le_pow_right (by decide) (by omega)
    exact_mod_cast Nat.lt_of_lt_of_le small le
  unfold parseI64 at read
  split at read
  · split at read
    · rename_i m value
      split at read
      · cases read
        have small := digits value (Nat.le_succ _)
        omega
      · cases read
    · cases read
  · split at read
    · rename_i m value
      split at read
      · cases read
        have small := digits value (Nat.le_succ _)
        omega
      · cases read
    · cases read
  · split at read
    · rename_i m value
      split at read
      · cases read
        have small := digits value (Nat.le_refl _)
        omega
      · cases read
    · cases read
/-! ## Trimming -/

theorem trim_cons {c : Char} (blank : isWhitespace c = true) (s : Str) : trim (c :: s) = trim s := by
  unfold trim trimStart
  rw [List.dropWhile_cons_of_pos blank]

theorem trim_concat {c : Char} (blank : isWhitespace c = true) (s : Str) :
    trim (s ++ [c]) = trim s := by
  induction s with
  | nil => simp [trim, trimStart, trimEnd, blank]
  | cons b s ih =>
      by_cases first : isWhitespace b = true
      · rw [List.cons_append, trim_cons first, ih, trim_cons first]
      · unfold trim trimStart trimEnd
        rw [List.cons_append, List.dropWhile_cons_of_neg first, List.dropWhile_cons_of_neg first,
          ← List.cons_append, List.rdropWhile_concat_pos _ _ _ blank]

/-- White space at either end does not matter. -/
theorem trim_append {before after : Str} (front : ∀ c ∈ before, isWhitespace c = true)
    (back : ∀ c ∈ after, isWhitespace c = true) (s : Str) :
    trim (before ++ s ++ after) = trim s := by
  induction after using List.reverseRecOn with
  | nil =>
      rw [List.append_nil]
      induction before with
      | nil => rfl
      | cons c before ih =>
          rw [List.cons_append, trim_cons (front c List.mem_cons_self)]
          exact ih fun d there => front d (List.mem_cons_of_mem _ there)
  | append_singleton after c ih =>
      rw [← List.append_assoc, trim_concat (back c (by simp))]
      exact ih fun d there => back d (by simp [there])

/-- What `trim` drops is white space. -/
theorem trim_spec (s : Str) :
    ∃ before after, s = before ++ trim s ++ after ∧ (∀ c ∈ before, isWhitespace c = true) ∧
      ∀ c ∈ after, isWhitespace c = true := by
  refine ⟨s.takeWhile isWhitespace, (trimStart s).rtakeWhile isWhitespace, ?_, ?_, ?_⟩
  · rw [List.append_assoc, trim, trimEnd, List.rdropWhile_append_rtakeWhile, trimStart,
      List.takeWhile_append_dropWhile]
  · intro c there
    exact List.mem_takeWhile_imp there
  · intro c there
    exact List.mem_rtakeWhile_imp there

theorem trim_trim (s : Str) : trim (trim s) = trim s := by
  obtain ⟨before, after, split, front, back⟩ := trim_spec s
  conv_rhs => rw [split]
  exact (trim_append front back (trim s)).symm

theorem mem_of_mem_trim {c : Char} {s : Str} (there : c ∈ trim s) : c ∈ s := by
  obtain ⟨before, after, split, -, -⟩ := trim_spec s
  rw [split]
  simp [there]

/-! ## Splitting -/

/-- No part of a split contains the separator. -/
theorem not_mem_of_mem_splitOn {sep : Char} :
    ∀ {s part : Str}, part ∈ s.splitOn sep → sep ∉ part
  | [], part, piece => by
      rw [List.splitOn_nil, List.mem_singleton] at piece
      rw [piece]
      exact List.not_mem_nil
  | c :: s, part, piece => by
      obtain ⟨first, rest, split⟩ := List.exists_cons_of_ne_nil (List.splitOn_ne_nil sep s)
      rw [List.splitOn_cons_eq_if_modifyHead, split] at piece
      by_cases here : c = sep
      · rw [if_pos (by simpa using here), ← split] at piece
        rcases List.mem_cons.mp piece with rfl | later
        · exact List.not_mem_nil
        · exact not_mem_of_mem_splitOn later
      · rw [if_neg (by simpa using here), List.modifyHead_cons] at piece
        rcases List.mem_cons.mp piece with rfl | later
        · rintro (_ | ⟨_, there⟩)
          · exact here rfl
          · exact not_mem_of_mem_splitOn (by rw [split]; exact List.mem_cons_self) there
        · exact not_mem_of_mem_splitOn (by rw [split]; exact List.mem_cons_of_mem _ later)

/-- What is in a part was in the whole. -/
theorem mem_of_mem_splitOnP {p : Char → Bool} {c : Char} :
    ∀ {s part : Str}, part ∈ s.splitOnP p → c ∈ part → c ∈ s
  | [], part, piece, there => by
      rw [List.splitOnP_nil, List.mem_singleton] at piece
      rw [piece] at there
      cases there
  | d :: s, part, piece, there => by
      obtain ⟨first, rest, split⟩ := List.exists_cons_of_ne_nil (List.splitOnP_ne_nil p s)
      rw [List.splitOnP_cons_eq_if_modifyHead, split] at piece
      by_cases here : p d = true
      · rw [if_pos here, ← split] at piece
        rcases List.mem_cons.mp piece with rfl | later
        · cases there
        · exact List.mem_cons_of_mem _ (mem_of_mem_splitOnP later there)
      · rw [if_neg here, List.modifyHead_cons] at piece
        have pieces : ∀ {part}, part ∈ first :: rest → c ∈ part → c ∈ s := by
          intro part piece
          rw [← split] at piece
          exact mem_of_mem_splitOnP piece
        rcases List.mem_cons.mp piece with rfl | later
        · rcases List.mem_cons.mp there with rfl | inside
          · exact List.mem_cons_self
          · exact List.mem_cons_of_mem _ (pieces List.mem_cons_self inside)
        · exact List.mem_cons_of_mem _ (pieces (List.mem_cons_of_mem _ later) there)

theorem splitOnce_append {sep : Char} {before : Str} (absent : sep ∉ before) (after : Str) :
    splitOnce sep (before ++ sep :: after) = some (before, after) := by
  induction before with
  | nil => rw [List.nil_append, splitOnce, if_pos rfl]
  | cons c before ih =>
      have other : c ≠ sep := fun same => absent (by rw [same]; exact List.mem_cons_self)
      rw [List.cons_append, splitOnce, if_neg other,
        ih fun there => absent (List.mem_cons_of_mem _ there)]

theorem splitOnce_none {sep : Char} {s : Str} (absent : sep ∉ s) : splitOnce sep s = none := by
  induction s with
  | nil => rfl
  | cons c s ih =>
      have other : c ≠ sep := fun same => absent (by rw [same]; exact List.mem_cons_self)
      rw [splitOnce, if_neg other, ih fun there => absent (List.mem_cons_of_mem _ there)]

/-- The first occurrence of the separator is where the split is made. -/
theorem splitOnce_spec {sep : Char} {s before after : Str}
    (found : splitOnce sep s = some (before, after)) : s = before ++ sep :: after ∧ sep ∉ before := by
  by_cases there : sep ∈ s
  · obtain ⟨first, rest, split, absent⟩ := List.eq_append_cons_of_mem there
    rw [split, splitOnce_append absent, Option.some.injEq, Prod.mk.injEq] at found
    rw [split, found.1, found.2]
    exact ⟨rfl, by rw [← found.1]; exact absent⟩
  · rw [splitOnce_none there] at found
    cases found

/-- The last place of a character. -/
theorem exists_last {c : Char} {s : Str} (there : c ∈ s) :
    ∃ before after, s = before ++ c :: after ∧ c ∉ after := by
  obtain ⟨front, back, split, last⟩ := List.eq_append_cons_of_mem (List.mem_reverse.mpr there)
  refine ⟨back.reverse, front.reverse, ?_, fun again => last (List.mem_reverse.mp again)⟩
  rw [← List.reverse_reverse s, split]
  simp

/-- The last separator is where `rsplit_once` splits. -/
theorem rsplitOnce_append {sep : Char} {after : Str} (absent : sep ∉ after) (before : Str) :
    rsplitOnce sep (before ++ sep :: after) = some (before, after) := by
  have reversed : (before ++ sep :: after).reverse = after.reverse ++ sep :: before.reverse := by
    simp
  rw [rsplitOnce, reversed, splitOnce_append fun there => absent (List.mem_reverse.mp there)]
  simp

theorem rsplitOnce_spec {sep : Char} {s before after : Str}
    (found : rsplitOnce sep s = some (before, after)) : s = before ++ sep :: after ∧ sep ∉ after := by
  unfold rsplitOnce at found
  obtain ⟨⟨front, back⟩, split, parts⟩ := Option.map_eq_some_iff.mp found
  obtain ⟨whole, absent⟩ := splitOnce_spec split
  cases parts
  refine ⟨?_, fun there => absent (List.mem_reverse.mp there)⟩
  rw [← List.reverse_reverse s, whole]
  simp

/-- The first `pattern` is where `split_once` splits. -/
theorem splitOnceStr_append {c : Char} {pattern before : Str} (absent : c ∉ before) (after : Str) :
    splitOnceStr (c :: pattern) (before ++ (c :: pattern) ++ after) = some (before, after) := by
  induction before with
  | nil =>
      have here : (c :: pattern).isPrefixOf (c :: (pattern ++ after)) = true := by
        rw [List.isPrefixOf_iff_prefix]
        exact ⟨after, rfl⟩
      show splitOnceStr (c :: pattern) (c :: (pattern ++ after)) = some ([], after)
      rw [splitOnceStr, if_pos here]
      simp
  | cons b before ih =>
      have other : ¬ (c :: pattern).isPrefixOf (b :: (before ++ (c :: pattern) ++ after)) = true := by
        rw [List.isPrefixOf_iff_prefix, List.cons_prefix_cons]
        rintro ⟨same, -⟩
        exact absent (by rw [same]; exact List.mem_cons_self)
      show splitOnceStr (c :: pattern) (b :: (before ++ (c :: pattern) ++ after)) =
        some (b :: before, after)
      rw [splitOnceStr, if_neg other, ih fun there => absent (List.mem_cons_of_mem _ there)]
      rfl

end Blasthttp.Rust
