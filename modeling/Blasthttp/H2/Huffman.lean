/-
# Blasthttp.H2.Huffman -- the HPACK Huffman coder of `h2/huffman.rs`

The encoder shifts codewords through a 64-bit buffer; the decoder walks a binary
tree kept in a vector of nodes, node 0 being the root and child index 0 meaning
"no child yet".  Both are embedded as they compute: the `u64` buffer is a `Nat`
truncated at every shift, the vector is a list whose indices never move.
-/
import Blasthttp.Lib.Bits

namespace Blasthttp.H2.Huffman

open Blasthttp.Lib.Bits (bits)

set_option autoImplicit false

/-- `HUFFMAN_TABLE`: code and code length of each byte value, right-justified. -/
def huffmanTable : List (Nat × Nat) := [
  (0x1ff8, 13), (0x7fffd8, 23), (0xfffffe2, 28), (0xfffffe3, 28),
  (0xfffffe4, 28), (0xfffffe5, 28), (0xfffffe6, 28), (0xfffffe7, 28),
  (0xfffffe8, 28), (0xffffea, 24), (0x3ffffffc, 30), (0xfffffe9, 28),
  (0xfffffea, 28), (0x3ffffffd, 30), (0xfffffeb, 28), (0xfffffec, 28),
  (0xfffffed, 28), (0xfffffee, 28), (0xfffffef, 28), (0xffffff0, 28),
  (0xffffff1, 28), (0xffffff2, 28), (0x3ffffffe, 30), (0xffffff3, 28),
  (0xffffff4, 28), (0xffffff5, 28), (0xffffff6, 28), (0xffffff7, 28),
  (0xffffff8, 28), (0xffffff9, 28), (0xffffffa, 28), (0xffffffb, 28),
  (0x14, 6), (0x3f8, 10), (0x3f9, 10), (0xffa, 12),
  (0x1ff9, 13), (0x15, 6), (0xf8, 8), (0x7fa, 11),
  (0x3fa, 10), (0x3fb, 10), (0xf9, 8), (0x7fb, 11),
  (0xfa, 8), (0x16, 6), (0x17, 6), (0x18, 6),
  (0x0, 5), (0x1, 5), (0x2, 5), (0x19, 6),
  (0x1a, 6), (0x1b, 6), (0x1c, 6), (0x1d, 6),
  (0x1e, 6), (0x1f, 6), (0x5c, 7), (0xfb, 8),
  (0x7ffc, 15), (0x20, 6), (0xffb, 12), (0x3fc, 10),
  (0x1ffa, 13), (0x21, 6), (0x5d, 7), (0x5e, 7),
  (0x5f, 7), (0x60, 7), (0x61, 7), (0x62, 7),
  (0x63, 7), (0x64, 7), (0x65, 7), (0x66, 7),
  (0x67, 7), (0x68, 7), (0x69, 7), (0x6a, 7),
  (0x6b, 7), (0x6c, 7), (0x6d, 7), (0x6e, 7),
  (0x6f, 7), (0x70, 7), (0x71, 7), (0x72, 7),
  (0xfc, 8), (0x73, 7), (0xfd, 8), (0x1ffb, 13),
  (0x7fff0, 19), (0x1ffc, 13), (0x3ffc, 14), (0x22, 6),
  (0x7ffd, 15), (0x3, 5), (0x23, 6), (0x4, 5),
  (0x24, 6), (0x5, 5), (0x25, 6), (0x26, 6),
  (0x27, 6), (0x6, 5), (0x74, 7), (0x75, 7),
  (0x28, 6), (0x29, 6), (0x2a, 6), (0x7, 5),
  (0x2b, 6), (0x76, 7), (0x2c, 6), (0x8, 5),
  (0x9, 5), (0x2d, 6), (0x77, 7), (0x78, 7),
  (0x79, 7), (0x7a, 7), (0x7b, 7), (0x7ffe, 15),
  (0x7fc, 11), (0x3ffd, 14), (0x1ffd, 13), (0xffffffc, 28),
  (0xfffe6, 20), (0x3fffd2, 22), (0xfffe7, 20), (0xfffe8, 20),
  (0x3fffd3, 22), (0x3fffd4, 22), (0x3fffd5, 22), (0x7fffd9, 23),
  (0x3fffd6, 22), (0x7fffda, 23), (0x7fffdb, 23), (0x7fffdc, 23),
  (0x7fffdd, 23), (0x7fffde, 23), (0xffffeb, 24), (0x7fffdf, 23),
  (0xffffec, 24), (0xffffed, 24), (0x3fffd7, 22), (0x7fffe0, 23),
  (0xffffee, 24), (0x7fffe1, 23), (0x7fffe2, 23), (0x7fffe3, 23),
  (0x7fffe4, 23), (0x1fffdc, 21), (0x3fffd8, 22), (0x7fffe5, 23),
  (0x3fffd9, 22), (0x7fffe6, 23), (0x7fffe7, 23), (0xffffef, 24),
  (0x3fffda, 22), (0x1fffdd, 21), (0xfffe9, 20), (0x3fffdb, 22),
  (0x3fffdc, 22), (0x7fffe8, 23), (0x7fffe9, 23), (0x1fffde, 21),
  (0x7fffea, 23), (0x3fffdd, 22), (0x3fffde, 22), (0xfffff0, 24),
  (0x1fffdf, 21), (0x3fffdf, 22), (0x7fffeb, 23), (0x7fffec, 23),
  (0x1fffe0, 21), (0x1fffe1, 21), (0x3fffe0, 22), (0x1fffe2, 21),
  (0x7fffed, 23), (0x3fffe1, 22), (0x7fffee, 23), (0x7fffef, 23),
  (0xfffea, 20), (0x3fffe2, 22), (0x3fffe3, 22), (0x3fffe4, 22),
  (0x7ffff0, 23), (0x3fffe5, 22), (0x3fffe6, 22), (0x7ffff1, 23),
  (0x3ffffe0, 26), (0x3ffffe1, 26), (0xfffeb, 20), (0x7fff1, 19),
  (0x3fffe7, 22), (0x7ffff2, 23), (0x3fffe8, 22), (0x1ffffec, 25),
  (0x3ffffe2, 26), (0x3ffffe3, 26), (0x3ffffe4, 26), (0x7ffffde, 27),
  (0x7ffffdf, 27), (0x3ffffe5, 26), (0xfffff1, 24), (0x1ffffed, 25),
  (0x7fff2, 19), (0x1fffe3, 21), (0x3ffffe6, 26), (0x7ffffe0, 27),
  (0x7ffffe1, 27), (0x3ffffe7, 26), (0x7ffffe2, 27), (0xfffff2, 24),
  (0x1fffe4, 21), (0x1fffe5, 21), (0x3ffffe8, 26), (0x3ffffe9, 26),
  (0xffffffd, 28), (0x7ffffe3, 27), (0x7ffffe4, 27), (0x7ffffe5, 27),
  (0xfffec, 20), (0xfffff3, 24), (0xfffed, 20), (0x1fffe6, 21),
  (0x3fffe9, 22), (0x1fffe7, 21), (0x1fffe8, 21), (0x7ffff3, 23),
  (0x3fffea, 22), (0x3fffeb, 22), (0x1ffffee, 25), (0x1ffffef, 25),
  (0xfffff4, 24), (0xfffff5, 24), (0x3ffffea, 26), (0x7ffff4, 23),
  (0x3ffffeb, 26), (0x7ffffe6, 27), (0x3ffffec, 26), (0x3ffffed, 26),
  (0x7ffffe7, 27), (0x7ffffe8, 27), (0x7ffffe9, 27), (0x7ffffea, 27),
  (0x7ffffeb, 27), (0xffffffe, 28), (0x7ffffec, 27), (0x7ffffed, 27),
  (0x7ffffee, 27), (0x7ffffef, 27), (0x7fffff0, 27), (0x3ffffee, 26)]

/-- `HUFFMAN_TABLE[b as usize]`. -/
def tableEntry (b : UInt8) : Nat × Nat := huffmanTable.getD b.toNat (0, 0)

/-! ## Encoder -/

/-- The locals of `encode`: the output, the `u64` bit buffer and its fill. -/
structure EncodeState where
  out : List UInt8
  bitBuf : Nat
  bitsInBuf : Nat

/-- `while bits_in_buf >= 8`: hand out whole bytes from the top of the buffer.
The fuel is the fill itself, eight more than any pass needs. -/
def drain : Nat → EncodeState → EncodeState
  | 0, s => s
  | fuel + 1, s =>
      if 8 ≤ s.bitsInBuf then
        drain fuel { s with
          bitsInBuf := s.bitsInBuf - 8
          out := s.out ++ [UInt8.ofNat ((s.bitBuf >>> (s.bitsInBuf - 8)) &&& 0xFF)] }
      else s

/-- One iteration of the loop over the input. -/
def encodeByte (s : EncodeState) (b : UInt8) : EncodeState :=
  let (code, codeLen) := tableEntry b
  let filled := { s with
    bitBuf := (s.bitBuf <<< codeLen) % 2 ^ 64 ||| code
    bitsInBuf := s.bitsInBuf + codeLen }
  drain filled.bitsInBuf filled

/-- Huffman-encode, padding the last byte with 1-bits. -/
def encode (input : List UInt8) : List UInt8 :=
  let s := input.foldl encodeByte { out := [], bitBuf := 0, bitsInBuf := 0 }
  if 0 < s.bitsInBuf then
    let pad := 8 - s.bitsInBuf
    let bitBuf := (s.bitBuf <<< pad) % 2 ^ 64 ||| (2 ^ pad - 1)
    s.out ++ [UInt8.ofNat (bitBuf &&& 0xFF)]
  else s.out

/-- Length of the encoding in bytes, without encoding. -/
def encodedLen (input : List UInt8) : Nat :=
  ((input.map fun b => (tableEntry b).2).sum + 7) / 8

/-! ## Decoding tree -/

structure HuffNode where
  left : Nat
  right : Nat
  symbol : Option Nat
  allOnesDepth : Nat
  prefixOfEos : Bool
  deriving DecidableEq, Inhabited, Repr

/-- `tree[idx]`. -/
def nodeAt (tree : List HuffNode) (idx : Nat) : HuffNode := tree.getD idx default

/-- The loop body of `insert_symbol`: step to the child for `bit`, creating it
when it is missing.  Returns the tree and the child's index. -/
def insertBit (tree : List HuffNode) (idx : Nat) (bit : Bool) : List HuffNode × Nat :=
  let parent := nodeAt tree idx
  if bit = false then
    if parent.left ≠ 0 then (tree, parent.left)
    else
      let newIdx := tree.length
      let node : HuffNode :=
        { left := 0, right := 0, symbol := none, allOnesDepth := 0, prefixOfEos := false }
      let tree := tree ++ [node]
      (tree.modify idx fun node => { node with left := newIdx }, newIdx)
  else if parent.right ≠ 0 then (tree, parent.right)
  else
    let newIdx := tree.length
    let node : HuffNode :=
      { left := 0
        right := 0
        symbol := none
        allOnesDepth := parent.allOnesDepth + 1
        prefixOfEos := parent.prefixOfEos }
    let tree := tree ++ [node]
    (tree.modify idx fun node => { node with right := newIdx }, newIdx)

/-- `for i in (0..code_len).rev()`: the bits of `code`, most significant first. -/
def insertBits (code : Nat) : Nat → List HuffNode → Nat → List HuffNode × Nat
  | 0, tree, idx => (tree, idx)
  | i + 1, tree, idx =>
      let (tree, next) := insertBit tree idx (code.testBit i)
      insertBits code i tree next

def insertSymbol (tree : List HuffNode) (code codeLen symbol : Nat) : List HuffNode :=
  let (tree, idx) := insertBits code codeLen tree 0
  tree.modify idx fun node => { node with symbol := some symbol }

/-- The EOS symbol and its code: 30 one-bits. -/
def eos : Nat := 256

/-- Every code with its length and symbol, in insertion order: the 256 byte
values, then EOS. -/
def symbols : List (Nat × Nat × Nat) :=
  huffmanTable.zipIdx.map (fun entry => (entry.1.1, entry.1.2, entry.2)) ++ [(0x3fffffff, 30, eos)]

def rootNode : HuffNode :=
  { left := 0, right := 0, symbol := none, allOnesDepth := 0, prefixOfEos := true }

/-- `huffman_tree()`. -/
def huffmanTree : List HuffNode :=
  symbols.foldl (fun tree entry => insertSymbol tree entry.1 entry.2.1 entry.2.2) [rootNode]

/-! ## Decoder -/

inductive HuffmanError where
  | eosInStream
  | badPadding
  deriving DecidableEq, Repr

/-- The `while` loop of `decode`.  `byte_pos` and `bits_consumed_in_byte` walk the
input bit by bit, most significant first, which is recursion on its bits. -/
def decodeBits (tree : List HuffNode) :
    List Bool → Nat → List UInt8 → Except HuffmanError (Nat × List UInt8)
  | [], nodeIdx, out => .ok (nodeIdx, out)
  | bit :: rest, nodeIdx, out =>
      let nodeIdx := if bit = false then (nodeAt tree nodeIdx).left else (nodeAt tree nodeIdx).right
      match (nodeAt tree nodeIdx).symbol with
      | some sym =>
          if sym = eos then .error .eosInStream
          else decodeBits tree rest 0 (out ++ [UInt8.ofNat sym])
      | none => decodeBits tree rest nodeIdx out

/-- Decode, accepting up to seven 1-bits of padding. -/
def decode (input : List UInt8) : Except HuffmanError (List UInt8) :=
  match decodeBits huffmanTree (bits input) 0 [] with
  | .error e => .error e
  | .ok (nodeIdx, out) =>
      let node := nodeAt huffmanTree nodeIdx
      if nodeIdx ≠ 0 ∧ (node.allOnesDepth > 7 ∨ node.prefixOfEos = false) then .error .badPadding
      else .ok out

end Blasthttp.H2.Huffman
