/-
# Blasthttp.Client.Sanitize -- what `sanitize_uri` changes

The loop writes one piece for each byte, the `%XX` it lets pass being bytes that pass
anyway (`sanitizeBytes_eq`).  Pieces of ASCII bytes are what they should be; any other
byte goes out as the two bytes of the character with its number (`utf8Bytes_encodeByte`),
so the result is right exactly for ASCII texts (`sanitizeUri_iff`).
-/
import Blasthttp.Client.Redirect

namespace Blasthttp.Client

open Blasthttp.Rust Blasthttp.Http

set_option autoImplicit false

/-! ## Bytes -/

/-- A byte as it should go out: `%` and two uppercase digits for one that must be
encoded, itself otherwise. -/
def percentEncoded (b : UInt8) : List UInt8 :=
  if mustEncode b then
    [0x25, UInt8.ofNat (upperHexDigit (b.toNat / 16)).toNat,
      UInt8.ofNat (upperHexDigit (b.toNat % 16)).toNat]
  else [b]

def isAscii (s : Str) : Bool := s.all fun c => c.toNat < 128

theorem forall_byte {motive : UInt8 → Prop} (all : ∀ n : Fin 256, motive (UInt8.ofNat n.val))
    (b : UInt8) : motive b := by
  have here := all ⟨b.toNat, b.toNat_lt⟩
  rwa [UInt8.ofNat_toNat] at here

/-- What goes out for a byte: the right bytes below 128, two bytes from there on. -/
theorem utf8Bytes_encodeByte (b : UInt8) :
    if b < 128 then utf8Bytes (encodeByte b) = percentEncoded b
    else (utf8Bytes (encodeByte b)).length = 2 ∧ percentEncoded b = [b] := by
  refine forall_byte (motive := fun b => if b < 128 then utf8Bytes (encodeByte b) = percentEncoded b
    else (utf8Bytes (encodeByte b)).length = 2 ∧ percentEncoded b = [b]) ?_ b
  decide +kernel

/-- What should go out needs no encoding, and is ASCII for an ASCII byte. -/
theorem percentEncoded_plain (b : UInt8) :
    ∀ c ∈ percentEncoded b, mustEncode c = false ∧ (b < 128 → c < 128) := by
  have all : (percentEncoded b).all (fun c => !mustEncode c && (128 ≤ b || c < 128)) = true := by
    refine forall_byte (motive := fun b =>
      (percentEncoded b).all (fun c => !mustEncode c && (128 ≤ b || c < 128)) = true) ?_ b
    decide +kernel
  intro c there
  have here := List.all_eq_true.mp all c there
  simp only [Bool.and_eq_true, Bool.not_eq_true', Bool.or_eq_true, decide_eq_true_eq] at here
  refine ⟨here.1, fun ascii => here.2.resolve_left ?_⟩
  exact UInt8.not_le.mpr ascii

theorem isAsciiHexdigit_plain (b : UInt8) :
    isAsciiHexdigit b = true → encodeByte b = [byteChar b] := by
  refine forall_byte (motive := fun b =>
    isAsciiHexdigit b = true → encodeByte b = [byteChar b]) ?_ b
  decide +kernel

/-- The loop writes one piece for each byte: those of a `%XX` pass by themselves. -/
theorem sanitizeBytes_eq (bytes : List UInt8) : sanitizeBytes bytes = bytes.flatMap encodeByte := by
  induction bytes using sanitizeBytes.induct with
  | case1 => rfl
  | case2 b h l rest escape ih =>
      have digits := escape
      simp only [Bool.and_eq_true, decide_eq_true_eq] at digits
      obtain ⟨⟨rfl, high⟩, low⟩ := digits
      have percent : encodeByte 0x25 = [byteChar 0x25] := by decide
      rw [sanitizeBytes, if_pos escape, ih]
      simp only [List.flatMap_cons, percent, isAsciiHexdigit_plain h high,
        isAsciiHexdigit_plain l low, List.cons_append, List.nil_append]
  | case3 b h l rest escape ih =>
      rw [sanitizeBytes, if_neg escape, ih]
      rfl
  | case4 b rest short ih =>
      rw [sanitizeBytes, ih, List.flatMap_cons]
      exact short

/-- Every byte that is not ASCII makes the result one byte longer. -/
theorem length_utf8Bytes_flatMap (bytes : List UInt8) :
    (utf8Bytes (bytes.flatMap encodeByte)).length =
      (bytes.flatMap percentEncoded).length + bytes.countP fun b => 128 ≤ b := by
  induction bytes with
  | nil => rfl
  | cons b bytes ih =>
      rw [List.flatMap_cons, utf8Bytes_append, List.length_append, ih, List.flatMap_cons,
        List.length_append, List.countP_cons]
      have piece := utf8Bytes_encodeByte b
      by_cases ascii : b < 128
      · have below : ¬ (128 : UInt8) ≤ b := UInt8.not_le.mpr ascii
        rw [if_pos ascii] at piece
        simp only [piece, below, decide_false, Bool.false_eq_true, if_false]
        omega
      · have above : (128 : UInt8) ≤ b := UInt8.not_lt.mp ascii
        rw [if_neg ascii] at piece
        simp only [piece, above, decide_true, if_true, List.length_singleton]
        omega

theorem utf8Bytes_flatMap {bytes : List UInt8} (ascii : ∀ b ∈ bytes, b < 128) :
    utf8Bytes (bytes.flatMap encodeByte) = bytes.flatMap percentEncoded := by
  induction bytes with
  | nil => rfl
  | cons b bytes ih =>
      have piece := utf8Bytes_encodeByte b
      rw [if_pos (ascii b List.mem_cons_self)] at piece
      rw [List.flatMap_cons, utf8Bytes_append, piece,
        ih fun c there => ascii c (List.mem_cons_of_mem _ there), List.flatMap_cons]

/-! ## Texts -/

/-- A text is ASCII when its bytes are. -/
theorem utf8Bytes_ascii_iff {s : Str} : (∀ b ∈ utf8Bytes s, b < 128) ↔ isAscii s = true := by
  unfold isAscii utf8Bytes
  rw [List.all_eq_true]
  constructor
  · intro bytes c there
    rw [decide_eq_true_eq]
    by_contra wide
    obtain ⟨b, rest, begins⟩ := List.exists_cons_of_ne_nil (utf8EncodeChar_ne_nil c)
    have inside : b ∈ String.utf8EncodeChar c := by
      rw [begins]
      exact List.mem_cons_self
    have large := utf8EncodeChar_wide (Nat.le_of_not_lt wide) b inside
    exact absurd (bytes b (List.mem_flatMap.mpr ⟨c, there, inside⟩)) (UInt8.not_lt.mpr large)
  · intro chars b there
    obtain ⟨c, inText, inside⟩ := List.mem_flatMap.mp there
    have ascii : c.toNat < 128 := of_decide_eq_true (chars c inText)
    rw [utf8EncodeChar_ascii ascii, List.mem_singleton] at inside
    rw [inside, UInt8.lt_iff_toNat_lt, UInt8.toNat_ofNat', Nat.mod_eq_of_lt (by omega)]
    exact ascii

theorem map_byteChar_utf8Bytes {s : Str} (ascii : isAscii s = true) :
    (utf8Bytes s).map byteChar = s := by
  induction s with
  | nil => rfl
  | cons c s ih =>
      unfold isAscii at ascii ih
      rw [List.all_cons, Bool.and_eq_true, decide_eq_true_eq] at ascii
      have head : utf8Bytes (c :: s) = UInt8.ofNat c.toNat :: utf8Bytes s := by
        unfold utf8Bytes
        rw [List.flatMap_cons, utf8EncodeChar_ascii ascii.1]
        rfl
      have back : byteChar (UInt8.ofNat c.toNat) = c := by
        unfold byteChar
        rw [UInt8.toNat_ofNat', Nat.mod_eq_of_lt (by omega), Char.ofNat_toNat]
      rw [head, List.map_cons, back, ih ascii.2]

/-! ## `sanitize_uri` -/

/-- Each byte that must be encoded is, every other byte stays, and doing it again changes
nothing. -/
def EncodesOnly (url : Str) : Prop :=
  utf8Bytes (sanitizeUri url) = (utf8Bytes url).flatMap percentEncoded ∧
    sanitizeUri (sanitizeUri url) = sanitizeUri url

/-- **When `sanitize_uri` changes only what must be encoded**: for ASCII texts, and for
no others. -/
theorem sanitizeUri_iff (url : Str) : EncodesOnly url ↔ isAscii url = true := by
  constructor
  · rintro ⟨bytes, -⟩
    have lengths := length_utf8Bytes_flatMap (utf8Bytes url)
    rw [← sanitizeBytes_eq] at lengths
    have same := congrArg List.length bytes
    unfold sanitizeUri at same
    have none : (utf8Bytes url).countP (fun b => 128 ≤ b) = 0 := by omega
    refine utf8Bytes_ascii_iff.mp fun b there => ?_
    have small := List.countP_eq_zero.mp none b there
    rw [decide_eq_true_eq] at small
    exact UInt8.not_le.mp small
  · intro ascii
    have bytes : utf8Bytes (sanitizeUri url) = (utf8Bytes url).flatMap percentEncoded := by
      unfold sanitizeUri
      rw [sanitizeBytes_eq, utf8Bytes_flatMap (utf8Bytes_ascii_iff.mpr ascii)]
    have pieces : ∀ c ∈ utf8Bytes (sanitizeUri url), mustEncode c = false ∧ c < 128 := by
      intro c there
      rw [bytes] at there
      obtain ⟨b, inText, inPiece⟩ := List.mem_flatMap.mp there
      obtain ⟨plain, small⟩ := percentEncoded_plain b c inPiece
      exact ⟨plain, small (utf8Bytes_ascii_iff.mpr ascii b inText)⟩
    have still := map_byteChar_utf8Bytes (utf8Bytes_ascii_iff.mp fun c there => (pieces c there).2)
    refine ⟨bytes, ?_⟩
    rw [sanitizeUri, sanitizeBytes_plain _ fun c there => (pieces c there).1]
    exact still

/-- `é` goes out as the four bytes of `Ã©`. -/
theorem sanitizeUri_widens :
    utf8Bytes "http://example.com/é".toList ≠
        utf8Bytes (sanitizeUri "http://example.com/é".toList) ∧
      ¬ EncodesOnly "http://example.com/é".toList := by
  refine ⟨by decide +kernel, ?_⟩
  rintro ⟨bytes, -⟩
  exact absurd bytes (by decide +kernel)

example : sanitizeUri "/a b%20<é>".toList = "/a%20b%20%3CÃ©%3E".toList := by decide +kernel

end Blasthttp.Client
