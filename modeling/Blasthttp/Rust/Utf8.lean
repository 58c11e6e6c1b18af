/-
# Blasthttp.Rust.Utf8 -- texts compared by their bytes

The bytes determine the text, an ASCII byte is the character it looks like
(`utf8Bytes_split`), and lowering ASCII letters is the same on both
(`utf8Bytes_toAsciiLowercase`).  So a comparison the source makes on bytes may be read
on characters.
-/
import Blasthttp.Rust.Crash

namespace Blasthttp.Rust

set_option autoImplicit false

/-- The bytes determine the text. -/
theorem utf8Bytes_injective {a b : Str} (same : utf8Bytes a = utf8Bytes b) : a = b := by
  have encoded : a.utf8Encode = b.utf8Encode := by
    rw [List.utf8Encode, List.utf8Encode, ← utf8Bytes, ← utf8Bytes, same]
  have decoded := List.utf8Decode?_utf8Encode (l := a)
  rw [encoded, List.utf8Decode?_utf8Encode] at decoded
  simpa using (Option.some.inj decoded).symm

@[simp] theorem utf8Bytes_nil : utf8Bytes [] = [] := rfl

theorem utf8Bytes_cons (c : Char) (s : Str) :
    utf8Bytes (c :: s) = String.utf8EncodeChar c ++ utf8Bytes s := rfl

/-- The byte of an ASCII character is nothing else. -/
theorem mem_utf8Bytes {a : Char} (ascii : a.toNat < 128) {s : Str} :
    UInt8.ofNat a.toNat ∈ utf8Bytes s ↔ a ∈ s := by
  induction s with
  | nil => simp
  | cons c s ih =>
      rw [utf8Bytes_cons, List.mem_append, ih, List.mem_cons]
      refine or_congr_left ?_
      constructor
      · intro here
        exact ((mem_utf8EncodeChar ascii here).mp rfl).symm
      · rintro rfl
        simp [utf8EncodeChar_ascii ascii]

/-- Where the byte of an ASCII character is, the text has that character. -/
theorem utf8Bytes_split {a : Char} (ascii : a.toNat < 128) :
    ∀ {s : Str} {front tail : List UInt8}, utf8Bytes s = front ++ UInt8.ofNat a.toNat :: tail →
      ∃ before after, s = before ++ a :: after ∧ utf8Bytes before = front ∧ utf8Bytes after = tail
  | [], front, tail, bytes => by simp at bytes
  | c :: s, front, tail, bytes => by
      rw [utf8Bytes_cons] at bytes
      rcases List.append_eq_append_iff.mp bytes with ⟨more, rfl, later⟩ | ⟨part, inside, later⟩
      · obtain ⟨before, after, rfl, rfl, rfl⟩ := utf8Bytes_split ascii later
        exact ⟨c :: before, after, rfl, utf8Bytes_cons c before, rfl⟩
      · cases part with
        | nil =>
            -- the character ends where the byte begins
            have first : utf8Bytes s = [] ++ UInt8.ofNat a.toNat :: tail := later.symm
            obtain ⟨before, after, rfl, empty, rfl⟩ := utf8Bytes_split ascii first
            refine ⟨c :: before, after, rfl, ?_, rfl⟩
            rw [utf8Bytes_cons, inside, empty]
            simp
        | cons b part =>
            cases later
            have here : UInt8.ofNat a.toNat ∈ String.utf8EncodeChar c := by rw [inside]; simp
            have same : c = a := (mem_utf8EncodeChar ascii here).mp rfl
            subst same
            rw [utf8EncodeChar_ascii ascii] at inside
            cases front with
            | nil =>
                cases inside
                exact ⟨[], s, rfl, rfl, rfl⟩
            | cons _ _ => simp at inside

/-! ## Letter case -/

/-- `u8::to_ascii_lowercase`. -/
def lowerByte (b : UInt8) : UInt8 := if 65 ≤ b ∧ b ≤ 90 then b + 32 else b

theorem map_lowerByte_encode (c : Char) :
    (String.utf8EncodeChar c).map lowerByte = String.utf8EncodeChar c.toLower := by
  by_cases ascii : c.toNat < 128
  · have small : ∀ n : Fin 128, (String.utf8EncodeChar (Char.ofNat n.val)).map lowerByte =
        String.utf8EncodeChar (Char.ofNat n.val).toLower := by decide +kernel
    have here := small ⟨c.toNat, ascii⟩
    rwa [Char.ofNat_toNat] at here
  · have wide := utf8EncodeChar_wide (Nat.le_of_not_lt ascii)
    have kept : c.toLower = c := by
      unfold Char.toLower
      rw [dif_neg]
      rintro ⟨-, high⟩
      have below : c.toNat ≤ 90 := high
      omega
    rw [kept]
    conv_rhs => rw [← List.map_id (String.utf8EncodeChar c)]
    apply List.map_congr_left
    intro b there
    have large := wide b there
    rw [UInt8.le_iff_toNat_le] at large
    have top : ¬ (65 ≤ b ∧ b ≤ 90) := by
      rintro ⟨-, high⟩
      rw [UInt8.le_iff_toNat_le] at high
      have limit : (90 : UInt8).toNat = 90 := rfl
      have bottom : (128 : UInt8).toNat = 128 := rfl
      omega
    rw [lowerByte, if_neg top]
    rfl

theorem utf8Bytes_toAsciiLowercase (s : Str) :
    utf8Bytes (toAsciiLowercase s) = (utf8Bytes s).map lowerByte := by
  induction s with
  | nil => rfl
  | cons c s ih =>
      show utf8Bytes (c.toLower :: toAsciiLowercase s) = _
      rw [utf8Bytes_cons, ih, utf8Bytes_cons, List.map_append, map_lowerByte_encode]

/-- `eq_ignore_ascii_case` on bytes is the one on characters. -/
theorem map_lowerByte_eq_iff {a b : Str} :
    (utf8Bytes a).map lowerByte = (utf8Bytes b).map lowerByte ↔
      toAsciiLowercase a = toAsciiLowercase b := by
  rw [← utf8Bytes_toAsciiLowercase, ← utf8Bytes_toAsciiLowercase]
  exact ⟨utf8Bytes_injective, fun same => by rw [same]⟩

end Blasthttp.Rust
