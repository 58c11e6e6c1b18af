/-
# Blasthttp.H2.HpackDecode -- the stateful HPACK decoder of `h2/hpack.rs`

`Decoder` carries the dynamic table front first (index 62 is its head), its cached
size and the current maximum, the two sizes being `u32`s: every sum and difference
is reduced modulo 2^32 as the release build does.  One pass of the loop of
`decode_headers` is `readStep`, which reads an instruction and touches nothing,
followed by `apply`, which changes the table and cannot fail.
-/
import Blasthttp.H2.HpackEncode

namespace Blasthttp.H2.Hpack

set_option autoImplicit false

inductive DecodeError where
  | unexpectedEof (pos : Nat)
  | integerOverflow
  | invalidIndex (idx : Nat)
  | tableSizeTooLarge (requested max : Nat)
  | huffman (e : Huffman.HuffmanError)
  deriving DecidableEq, Repr

/-- One decoded (name, value) pair. -/
abbrev DecodedHeader := List UInt8 × List UInt8

/-- `STATIC_TABLE`, entries 1 to 61. -/
def staticTable : List DecodedHeader := ([
  (":authority", ""), (":method", "GET"), (":method", "POST"), (":path", "/"),
  (":path", "/index.html"), (":scheme", "http"), (":scheme", "https"), (":status", "200"),
  (":status", "204"), (":status", "206"), (":status", "304"), (":status", "400"),
  (":status", "404"), (":status", "500"), ("accept-charset", ""),
  ("accept-encoding", "gzip, deflate"), ("accept-language", ""), ("accept-ranges", ""),
  ("accept", ""), ("access-control-allow-origin", ""), ("age", ""), ("allow", ""),
  ("authorization", ""), ("cache-control", ""), ("content-disposition", ""),
  ("content-encoding", ""), ("content-language", ""), ("content-length", ""),
  ("content-location", ""), ("content-range", ""), ("content-type", ""), ("cookie", ""),
  ("date", ""), ("etag", ""), ("expect", ""), ("expires", ""), ("from", ""), ("host", ""),
  ("if-match", ""), ("if-modified-since", ""), ("if-none-match", ""), ("if-range", ""),
  ("if-unmodified-since", ""), ("last-modified", ""), ("link", ""), ("location", ""),
  ("max-forwards", ""), ("proxy-authenticate", ""), ("proxy-authorization", ""), ("range", ""),
  ("referer", ""), ("refresh", ""), ("retry-after", ""), ("server", ""), ("set-cookie", ""),
  ("strict-transport-security", ""), ("transfer-encoding", ""), ("user-agent", ""), ("vary", ""),
  ("via", ""), ("www-authenticate", "")] : List (String × String)).map fun entry => (ascii entry.1, ascii entry.2)

/-! ## Integers and strings -/

/-- The continuation loop of `read_integer` over the bytes from position `p` on.
`checked_shl` refuses a shift of 32 or more and drops the bits it pushes out. -/
def readContinuation : Nat → Nat → Nat → List UInt8 → Except DecodeError (Nat × Nat)
  | _, _, p, [] => .error (.unexpectedEof p)
  | value, shift, p, b :: rest =>
      if 32 ≤ shift then .error .integerOverflow
      else
        let contribution := ((b &&& 0x7F).toNat <<< shift) % 2 ^ 32
        if 2 ^ 32 ≤ value + contribution then .error .integerOverflow
        else if b &&& 0x80 = 0 then .ok (value + contribution, p + 1)
        else readContinuation (value + contribution) (shift + 7) (p + 1) rest

/-- Read an integer with an `n`-bit first part at `pos`: value and new position. -/
def readInteger (buf : List UInt8) (pos n : Nat) : Except DecodeError (Nat × Nat) :=
  match buf.drop pos with
  | [] => .error (.unexpectedEof pos)
  | b :: rest =>
      let maxPrefix := 2 ^ n - 1
      let first := b.toNat &&& maxPrefix
      if first < maxPrefix then .ok (first, pos + 1)
      else readContinuation maxPrefix 0 (pos + 1) rest

/-- Read a string literal at `pos`: the decoded bytes and the new position. -/
def readString (buf : List UInt8) (pos : Nat) : Except DecodeError (List UInt8 × Nat) :=
  match buf.drop pos with
  | [] => .error (.unexpectedEof pos)
  | b :: _ =>
      match readInteger buf pos 7 with
      | .error e => .error e
      | .ok (length, newPos) =>
          if buf.length < newPos + length then .error (.unexpectedEof (newPos + length))
          else
            let raw := (buf.drop newPos).take length
            if b &&& 0x80 ≠ 0 then
              match Huffman.decode raw with
              | .error e => .error (.huffman e)
              | .ok bytes => .ok (bytes, newPos + length)
            else .ok (raw, newPos + length)

/-- A string that is read: its length, and the bytes it names inside the buffer. -/
theorem readString_ok {buf bytes : List UInt8} {pos p : Nat}
    (read : readString buf pos = .ok (bytes, p)) :
    ∃ b tail length newPos, buf.drop pos = b :: tail ∧ readInteger buf pos 7 = .ok (length, newPos) ∧
      newPos + length ≤ buf.length ∧ p = newPos + length ∧
      ((b &&& 0x80 ≠ 0 ∧ Huffman.decode ((buf.drop newPos).take length) = .ok bytes) ∨
        (b &&& 0x80 = 0 ∧ bytes = (buf.drop newPos).take length)) := by
  unfold readString at read
  split at read
  · cases read
  · rename_i b tail here
    split at read
    · cases read
    · rename_i length newPos integer
      split at read
      · cases read
      · rename_i inside
        refine ⟨b, tail, length, newPos, here, integer, by omega, ?_⟩
        simp only at read
        split at read
        · rename_i coded
          split at read
          · cases read
          · rename_i decoded
            cases read
            exact ⟨rfl, .inl ⟨coded, decoded⟩⟩
        · rename_i plain
          cases read
          exact ⟨rfl, .inr ⟨by simpa using plain, rfl⟩⟩

/-! ## The decoder -/

structure Decoder where
  dynamicTable : List DecodedHeader
  dynamicTableSize : Nat
  maxTableSize : Nat
  deriving DecidableEq

/-- `Decoder::with_max_table_size`. -/
def Decoder.withMaxTableSize (max : Nat) : Decoder where
  dynamicTable := []
  dynamicTableSize := 0
  maxTableSize := max

/-- `(name.len() + value.len() + 32) as u32`. -/
def entrySize (h : DecodedHeader) : Nat := (h.1.length + h.2.length + 32) % 2 ^ 32

def Decoder.lookupIndex (d : Decoder) (idx : Nat) : Except DecodeError DecodedHeader :=
  if idx = 0 then .error (.invalidIndex 0)
  else if idx ≤ staticTable.length then .ok (staticTable.getD (idx - 1) ([], []))
  else
    match d.dynamicTable[idx - 1 - staticTable.length]? with
    | some h => .ok h
    | none => .error (.invalidIndex idx)

/-- The eviction loop of both table operations: `pop_back` while `exceeds` holds of
the size and there is something to pop.  The list runs oldest first. -/
def evictOldest (exceeds : Nat → Bool) : List DecodedHeader → Nat → List DecodedHeader × Nat
  | [], size => ([], size)
  | h :: newer, size =>
      if exceeds size then evictOldest exceeds newer ((size + (2 ^ 32 - entrySize h)) % 2 ^ 32)
      else (h :: newer, size)

def evict (exceeds : Nat → Bool) (table : List DecodedHeader) (size : Nat) :
    List DecodedHeader × Nat :=
  let (kept, size) := evictOldest exceeds table.reverse size
  (kept.reverse, size)

def Decoder.addToDynamicTable (d : Decoder) (h : DecodedHeader) : Decoder :=
  if d.maxTableSize < entrySize h then { d with dynamicTable := [], dynamicTableSize := 0 }
  else
    let (kept, size) :=
      evict (fun size => d.maxTableSize < (size + entrySize h) % 2 ^ 32) d.dynamicTable
        d.dynamicTableSize
    { d with dynamicTable := h :: kept, dynamicTableSize := (size + entrySize h) % 2 ^ 32 }

def Decoder.resizeTable (d : Decoder) (newSize : Nat) : Decoder :=
  let (kept, size) := evict (fun size => newSize < size) d.dynamicTable d.dynamicTableSize
  { dynamicTable := kept, dynamicTableSize := size, maxTableSize := newSize }

/-- What one instruction of a block does once it has been read. -/
inductive Step where
  /-- A field for the output: indexed, or literal without indexing. -/
  | emit (h : DecodedHeader)
  /-- A literal with incremental indexing. -/
  | insert (h : DecodedHeader)
  /-- A dynamic table size update. -/
  | resize (size : Nat)
  deriving DecidableEq

/-- A literal's name: spelled out at `pos`, or that of entry `idx`. -/
def Decoder.readName (d : Decoder) (block : List UInt8) (idx pos : Nat) :
    Except DecodeError (List UInt8 × Nat) :=
  if idx = 0 then readString block pos
  else do
    let h ← d.lookupIndex idx
    pure (h.1, pos)

/-- A literal's name and value, at `pos`. -/
def Decoder.readLiteral (d : Decoder) (block : List UInt8) (pos n : Nat) :
    Except DecodeError (DecodedHeader × Nat) := do
  let (idx, pos) ← readInteger block pos n
  let (name, pos) ← d.readName block idx pos
  let (value, pos) ← readString block pos
  pure ((name, value), pos)

/-- Read the instruction starting with byte `b` at `pos`. -/
def Decoder.readStep (d : Decoder) (block : List UInt8) (pos : Nat) (b : UInt8) :
    Except DecodeError (Step × Nat) :=
  if b &&& 0x80 ≠ 0 then do
    let (idx, pos) ← readInteger block pos 7
    let h ← d.lookupIndex idx
    pure (.emit h, pos)
  else if b &&& 0xC0 = 0x40 then do
    let (h, pos) ← d.readLiteral block pos 6
    pure (.insert h, pos)
  else if b &&& 0xE0 = 0x20 then do
    let (newSize, pos) ← readInteger block pos 5
    if d.maxTableSize < newSize then throw (.tableSizeTooLarge newSize d.maxTableSize)
    else pure (.resize newSize, pos)
  else do
    let (h, pos) ← d.readLiteral block pos 4
    pure (.emit h, pos)

def Decoder.apply (d : Decoder) : Step → Decoder
  | .emit _ => d
  | .insert h => d.addToDynamicTable h
  | .resize size => d.resizeTable size

def Step.output : Step → List DecodedHeader
  | .emit h => [h]
  | .insert h => [h]
  | .resize _ => []

/-- `while pos < block.len()`.  Every instruction is at least one byte long, so
fuel for each byte left is enough (`decodeLoop_done`). -/
def decodeLoop (block : List UInt8) :
    Nat → Decoder → Nat → List DecodedHeader → Decoder × Except DecodeError (List DecodedHeader)
  | 0, d, _, out => (d, .ok out)
  | fuel + 1, d, pos, out =>
      match block.drop pos with
      | [] => (d, .ok out)
      | b :: _ =>
          match d.readStep block pos b with
          | .error e => (d, .error e)
          | .ok (step, pos) => decodeLoop block fuel (d.apply step) pos (out ++ step.output)

/-- `decode_headers`: the decoder afterwards and the result.  A failing block
keeps the table changes of the instructions before the failure. -/
def Decoder.decodeHeaders (d : Decoder) (block : List UInt8) :
    Decoder × Except DecodeError (List DecodedHeader) :=
  decodeLoop block block.length d 0 []

end Blasthttp.H2.Hpack
