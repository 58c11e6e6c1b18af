/-
# Blasthttp.Rust.Bytes -- bytes as text

`from_utf8`, `from_utf8_lossy` and the formats that error texts use.
-/
import Blasthttp.Rust.Str

namespace Blasthttp.Rust

set_option autoImplicit false

/-! ## UTF-8 -/

/-- The length of the sequence a byte begins, 0 when it begins none. -/
def utf8Width (first : UInt8) : Nat :=
  if first < 0x80 then 1
  else if first < 0xC2 then 0
  else if first < 0xE0 then 2
  else if first < 0xF0 then 3
  else if first < 0xF5 then 4
  else 0

/-- The second byte of a sequence: with no overlong form, surrogate or value past
`char::MAX` in front of it. -/
def secondFits (first second : UInt8) : Bool :=
  if first = 0xE0 then 0xA0 ≤ second && second < 0xC0
  else if first = 0xED then 0x80 ≤ second && second < 0xA0
  else if first = 0xF0 then 0x90 ≤ second && second < 0xC0
  else if first = 0xF4 then 0x80 ≤ second && second < 0x90
  else 0x80 ≤ second && second < 0xC0

/-- The bytes behind the second one, and what follows. -/
def continuations : Nat → Nat → List UInt8 → Option Char × List UInt8
  | 0, value, rest => (some (Char.ofNat value), rest)
  | _ + 1, _, [] => (none, [])
  | n + 1, value, b :: rest =>
      if 0x80 ≤ b ∧ b < 0xC0 then continuations n (64 * value + (b.toNat - 0x80)) rest
      else (none, b :: rest)

/-- One character, or `none` for the longest start of one that breaks off. -/
def utf8Char (first : UInt8) (rest : List UInt8) : Option Char × List UInt8 :=
  match utf8Width first, rest with
  | 0, rest => (none, rest)
  | 1, rest => (some (Char.ofNat first.toNat), rest)
  | _, [] => (none, [])
  | width, second :: behind =>
      if secondFits first second then
        continuations (width - 2)
          (64 * (first.toNat % 2 ^ (7 - width)) + (second.toNat - 0x80)) behind
      else (none, rest)

def utf8Loop : Nat → List UInt8 → List (Option Char)
  | 0, _ => []
  | _ + 1, [] => []
  | fuel + 1, first :: rest =>
      let (c, rest) := utf8Char first rest
      c :: utf8Loop fuel rest

def utf8Chunks (bytes : List UInt8) : List (Option Char) := utf8Loop bytes.length bytes

/-- `str::from_utf8`, `none` for the error. -/
def fromUtf8 (bytes : List UInt8) : Option Str := (utf8Chunks bytes).mapM id

/-- `String::from_utf8_lossy`. -/
def fromUtf8Lossy (bytes : List UInt8) : Str :=
  (utf8Chunks bytes).map fun c => c.getD (Char.ofNat 0xFFFD)

example : fromUtf8Lossy [0x41, 0xE2, 0x82, 0xAC, 0xE2, 0x82, 0xFF, 0x42] =
    ['A', Char.ofNat 0x20AC, Char.ofNat 0xFFFD, Char.ofNat 0xFFFD, 'B'] := by decide

/-! ## Formats -/

/-- A character in `{:?}`; `plain` is the Unicode table of those that stand for themselves. -/
def escapeDebug (plain : Char → Bool) (c : Char) : Str :=
  if c = Char.ofNat 0 then "\\0".toList
  else if c = '\t' then "\\t".toList
  else if c = '\r' then "\\r".toList
  else if c = '\n' then "\\n".toList
  else if c = '\\' ∨ c = '"' then ['\\', c]
  else if plain c then [c]
  else "\\u\x7b".toList ++ Nat.toDigits 16 c.toNat ++ "\x7d".toList

/-- `{:?}` of a text. -/
def debugText (plain : Char → Bool) (s : Str) : Str :=
  '"' :: s.flatMap (escapeDebug plain) ++ ['"']

/-- `0x{:02x}`. -/
def hexByte (b : UInt8) : Str :=
  ['0', 'x', Nat.digitChar (b.toNat / 16), Nat.digitChar (b.toNat % 16)]

/-! ## Slices -/

/-- `slice::splitn` at every `sep`, into at most `n` parts. -/
def splitN (sep : UInt8) : Nat → List UInt8 → List (List UInt8)
  | 0, _ => []
  | 1, s => [s]
  | n + 2, s =>
      let head := s.takeWhile (· ≠ sep)
      match s.drop head.length with
      | [] => [head]
      | _ :: rest => head :: splitN sep (n + 1) rest

end Blasthttp.Rust
