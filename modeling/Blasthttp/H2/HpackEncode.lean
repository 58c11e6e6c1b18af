/-
# Blasthttp.H2.HpackEncode -- the stateless HPACK encoder of `h2/hpack.rs`

Every header becomes one literal representation: a first byte with the pattern of
the chosen indexing mode and the start of the name index, the name string when
the index is 0, the value string.  The output vector the source threads through
is the concatenation of what each call appends.
-/
import Blasthttp.H2.Huffman

namespace Blasthttp.H2.Hpack

set_option autoImplicit false

/-- Which literal representation to use (RFC 7541 §6.2). -/
inductive Indexing where
  | with
  | without
  | never
  deriving DecidableEq, Repr

/-- One (name, value) pair plus encoding knobs. -/
structure Header where
  name : List UInt8
  value : List UInt8
  indexing : Indexing
  huffmanName : Option Bool
  huffmanValue : Option Bool
  allowInvalidValue : Bool
  allowInvalidName : Bool
  lengthBloatName : UInt8
  lengthBloatValue : UInt8
  forceStaticIndex : Option UInt8

/-- `Header::new`: every knob at its safe default. -/
def Header.new (name value : List UInt8) : Header where
  name := name
  value := value
  indexing := .with
  huffmanName := none
  huffmanValue := none
  allowInvalidValue := false
  allowInvalidName := false
  lengthBloatName := 0
  lengthBloatValue := 0
  forceStaticIndex := none

inductive EncodeError where
  | emptyName
  | invalidValue
  | invalidName
  | bloatOutOfRange (bloat : UInt8)
  | staticIndexOutOfRange (idx : UInt8)
  deriving DecidableEq, Repr

/-- The bytes of an ASCII literal. -/
def ascii (s : String) : List UInt8 := s.toList.map fun c => UInt8.ofNat c.toNat

/-! ## Validity -/

/-- RFC 7230 token characters, lowercase only. -/
def isLowercaseTokenChar (b : UInt8) : Bool :=
  (97 ≤ b && b ≤ 122) || (48 ≤ b && b ≤ 57) || (ascii "!#$%&'*+-.^_`|~").contains b

/-- Non-empty, at most one leading `:` with something after it, and lowercase
token characters otherwise. -/
def isNameValid : List UInt8 → Bool
  | [] => false
  | first :: rest =>
      if first = 58 then !rest.isEmpty && rest.all isLowercaseTokenChar
      else isLowercaseTokenChar first && rest.all isLowercaseTokenChar

/-- No NUL, LF or CR. -/
def isValueValid (value : List UInt8) : Bool :=
  !value.any fun b => b = 0x00 || b = 0x0A || b = 0x0D

/-! ## Integers and strings -/

/-- `while remaining >= 128`, then the terminating byte.  The fuel is never
reached: `remaining` itself bounds the number of seven-bit groups. -/
def writeTail : Nat → Nat → List UInt8
  | 0, remaining => [UInt8.ofNat remaining]
  | fuel + 1, remaining =>
      if 128 ≤ remaining then
        (UInt8.ofNat (remaining &&& 0x7F) ||| 0x80) :: writeTail fuel (remaining >>> 7)
      else [UInt8.ofNat remaining]

/-- `for _ in 0..bloat`: a zero continuation byte in front of the last byte. -/
def writeBloat : Nat → List UInt8 → List UInt8
  | 0, out => out
  | bloat + 1, out =>
      match out.getLast? with
      | some last => writeBloat bloat (out.dropLast ++ [0x80, last])
      | none => out

/-- An HPACK integer (RFC 7541 §5.1) behind `pattern`, with an `n`-bit first part. -/
def writeInteger (value n : Nat) (pattern : UInt8) (bloat : UInt8) : List UInt8 :=
  let maxPrefix := 2 ^ n - 1
  if value < maxPrefix then [pattern ||| UInt8.ofNat value]
  else
    (pattern ||| UInt8.ofNat maxPrefix) ::
      writeBloat bloat.toNat (writeTail (value - maxPrefix) (value - maxPrefix))

/-- Whether `write_string` takes the Huffman form. -/
def useHuffman (data : List UInt8) : Option Bool → Bool
  | some choice => choice
  | none => Huffman.encodedLen data < data.length

/-- The payload of a string literal. -/
def stringPayload (data : List UInt8) (huffman : Option Bool) : List UInt8 :=
  if useHuffman data huffman then Huffman.encode data else data

/-- An HPACK string literal (RFC 7541 §5.2): the `as u32` length, then the payload. -/
def writeString (data : List UInt8) (huffman : Option Bool) (lengthBloat : UInt8) : List UInt8 :=
  let hFlag : UInt8 := if useHuffman data huffman then 0x80 else 0x00
  let encoded := stringPayload data huffman
  writeInteger (encoded.length % 2 ^ 32) 7 hFlag lengthBloat ++ encoded

/-! ## Headers -/

/-- The `prefix_pattern` of the first byte, by indexing mode. -/
def Indexing.pattern : Indexing → UInt8
  | .with => 0x40
  | .without => 0x00
  | .never => 0x10

/-- The `prefix_bits` that pattern leaves for the name index. -/
def Indexing.prefixBits : Indexing → Nat
  | .with => 6
  | .without => 4
  | .never => 4

def encodeOne (h : Header) : Except EncodeError (List UInt8) :=
  if h.name.isEmpty ∧ h.forceStaticIndex.isNone then .error .emptyName
  else if 3 < h.lengthBloatName then .error (.bloatOutOfRange h.lengthBloatName)
  else if 3 < h.lengthBloatValue then .error (.bloatOutOfRange h.lengthBloatValue)
  else if !h.allowInvalidName ∧ h.forceStaticIndex.isNone ∧ !isNameValid h.name then
    .error .invalidName
  else if !h.allowInvalidValue ∧ !isValueValid h.value then .error .invalidValue
  else
    let pattern := h.indexing.pattern
    let width := h.indexing.prefixBits
    match h.forceStaticIndex with
    | some idx =>
        if 1 ≤ idx ∧ idx ≤ 61 then
          .ok (writeInteger idx.toNat width pattern 0 ++
            writeString h.value h.huffmanValue h.lengthBloatValue)
        else .error (.staticIndexOutOfRange idx)
    | none =>
        .ok (writeInteger 0 width pattern 0 ++
          (writeString h.name h.huffmanName h.lengthBloatName ++
            writeString h.value h.huffmanValue h.lengthBloatValue))

/-- Encode a list of headers into a header block. -/
def encodeHeaders : List Header → Except EncodeError (List UInt8)
  | [] => .ok []
  | h :: headers =>
      match encodeOne h with
      | .error e => .error e
      | .ok bytes =>
          match encodeHeaders headers with
          | .error e => .error e
          | .ok rest => .ok (bytes ++ rest)

end Blasthttp.H2.Hpack
