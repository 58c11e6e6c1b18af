/-
# Blasthttp.Client.Redirect -- `sanitize_uri` and `resolve_redirect`

The target of a redirect is the `Location` itself when it parses as a URI with a
scheme, and otherwise the current scheme and authority with the `Location` pasted
behind.
-/
import Blasthttp.Client.Request

namespace Blasthttp.Client

open Blasthttp.Rust Blasthttp.Http

set_option autoImplicit false

/-! ## `sanitize_uri` -/

/-- The bytes `http::Uri` rejects. -/
def mustEncode (b : UInt8) : Bool :=
  b = 0x20 || b = 0x22 || b = 0x3C || b = 0x3E || b = 0x7B || b = 0x7D || b ≤ 0x1F || b = 0x7F

def isAsciiHexdigit (b : UInt8) : Bool :=
  (0x30 ≤ b && b ≤ 0x39) || (0x41 ≤ b && b ≤ 0x46) || (0x61 ≤ b && b ≤ 0x66)

/-- `b as char`. -/
def byteChar (b : UInt8) : Char := Char.ofNat b.toNat

/-- One digit of `{:02X}`. -/
def upperHexDigit (n : Nat) : Char := if n < 10 then Char.ofNat (48 + n) else Char.ofNat (55 + n)

def encodeByte (b : UInt8) : Str :=
  if mustEncode b then ['%', upperHexDigit (b.toNat / 16), upperHexDigit (b.toNat % 16)]
  else [byteChar b]

/-- The loop of `sanitize_uri`: a `%XX` passes as it is. -/
def sanitizeBytes : List UInt8 → Str
  | [] => []
  | b :: h :: l :: rest =>
      if b = 0x25 && isAsciiHexdigit h && isAsciiHexdigit l then
        byteChar b :: byteChar h :: byteChar l :: sanitizeBytes rest
      else encodeByte b ++ sanitizeBytes (h :: l :: rest)
  | b :: rest => encodeByte b ++ sanitizeBytes rest

def sanitizeUri (url : Str) : Str := sanitizeBytes (utf8Bytes url)

/-! ## `resolve_redirect` -/

def invalidUrl (message : Str) : ClientError := ⟨message, .invalidUrl⟩

/-- `scheme://authority` of the current URI with the rest pasted behind. -/
def pasted (scheme : Str) (authority : Authority) (rest : Str) : Str :=
  scheme ++ "://".toList ++ authority.text ++ rest

def resolveRelative (parse : Parser) (current : Uri) (location sanitized : Str) :
    Except ClientError Uri :=
  match current.authority with
  | none =>
      .error (invalidUrl
        ("no authority in current URL to resolve relative redirect: ".toList ++ location))
  | some authority =>
      let absolute := pasted (current.scheme.getD "https".toList) authority sanitized
      match parse absolute with
      | .ok uri => .ok uri
      | .error e =>
          .error (invalidUrl
            ("invalid redirect URL '".toList ++ absolute ++ "': ".toList ++ e))

def resolveRedirect (parse : Parser) (current : Uri) (location : Str) : Except ClientError Uri :=
  let sanitized := sanitizeUri location
  match parse sanitized with
  | .ok uri =>
      if uri.scheme.isSome then .ok uri else resolveRelative parse current location sanitized
  | .error _ => resolveRelative parse current location sanitized

/-! ## URI characters -/

/-- Unreserved and reserved characters and `%`. -/
def isUriChar (c : Char) : Bool :=
  c.isAlphanum || "-._~:/?#[]@!$&'()*+,;=%".toList.contains c

theorem isUriChar_ascii {c : Char} (uri : isUriChar c = true) : c.toNat < 128 := by
  unfold isUriChar at uri
  rcases Bool.or_eq_true _ _ ▸ uri with letter | mark
  · simp only [Char.isAlphanum, Char.isAlpha, Char.isUpper, Char.isLower, Char.isDigit,
      Bool.or_eq_true, Bool.and_eq_true, decide_eq_true_eq, ge_iff_le, UInt32.le_iff_toNat_le]
      at letter
    change c.val.toNat < 128
    have bounds : ('Z'.val.toNat < 128 ∧ 'z'.val.toNat < 128) ∧ '9'.val.toNat < 128 := by decide
    omega
  · have ascii : ("-._~:/?#[]@!$&'()*+,;=%".toList.all fun d => d.toNat < 128) = true := by decide
    exact of_decide_eq_true (List.all_eq_true.mp ascii c (List.contains_iff_mem.mp mark))

/-- A URI character is one byte that is not encoded. -/
theorem isUriChar_byte {c : Char} (uri : isUriChar c = true) :
    ∃ b, String.utf8EncodeChar c = [b] ∧ mustEncode b = false ∧ byteChar b = c := by
  have all : ∀ n : Fin 128, isUriChar (Char.ofNat n.val) = true →
      String.utf8EncodeChar (Char.ofNat n.val) = [UInt8.ofNat n.val] ∧
        mustEncode (UInt8.ofNat n.val) = false ∧
          byteChar (UInt8.ofNat n.val) = Char.ofNat n.val := by decide +kernel
  have here := all ⟨c.toNat, isUriChar_ascii uri⟩
  simp only [Char.ofNat_toNat] at here
  exact ⟨UInt8.ofNat c.toNat, here uri⟩

theorem sanitizeBytes_plain (bytes : List UInt8) (plain : ∀ b ∈ bytes, mustEncode b = false) :
    sanitizeBytes bytes = bytes.map byteChar := by
  have one : ∀ b, mustEncode b = false → encodeByte b = [byteChar b] := by
    intro b clean
    rw [encodeByte, if_neg (by simp [clean])]
  induction bytes using sanitizeBytes.induct with
  | case1 => rfl
  | case2 b h l rest escape ih =>
      rw [sanitizeBytes, if_pos escape, ih fun c there => plain c (by simp [there])]
      rfl
  | case3 b h l rest escape ih =>
      rw [sanitizeBytes, if_neg escape, one b (plain b List.mem_cons_self),
        ih fun c there => plain c (List.mem_cons_of_mem _ there)]
      rfl
  | case4 b rest short ih =>
      rw [sanitizeBytes, one b (plain b List.mem_cons_self),
        ih fun c there => plain c (List.mem_cons_of_mem _ there)]
      · rfl
      · exact short

/-- `sanitize_uri` leaves URI characters alone. -/
theorem sanitizeUri_uriChars {s : Str} (uri : ∀ c ∈ s, isUriChar c = true) : sanitizeUri s = s := by
  have bytes : (∀ b ∈ utf8Bytes s, mustEncode b = false) ∧ (utf8Bytes s).map byteChar = s := by
    induction s with
    | nil => exact ⟨by simp [utf8Bytes], rfl⟩
    | cons c s ih =>
        obtain ⟨b, encoded, clean, same⟩ := isUriChar_byte (uri c List.mem_cons_self)
        obtain ⟨plain, rest⟩ := ih fun d there => uri d (List.mem_cons_of_mem _ there)
        have head : utf8Bytes (c :: s) = b :: utf8Bytes s := by
          unfold utf8Bytes
          rw [List.flatMap_cons, encoded]
          rfl
        rw [head]
        refine ⟨?_, by rw [List.map_cons, same, rest]⟩
        intro d there
        rcases List.mem_cons.mp there with rfl | later
        · exact clean
        · exact plain d later
  rw [sanitizeUri, sanitizeBytes_plain _ bytes.1, bytes.2]

end Blasthttp.Client
