/-
# Blasthttp.Lib.Deflate -- the deflate and zlib formats

RFC 1951 and RFC 1950 as a reading of bytes: a string is read up to the end of the stream
in it, until the bytes run out, or until they break the format, and what was decompressed
up to there is kept.  A stream is complete if it ends with the string.
-/
import Mathlib.Data.List.Basic
import Mathlib.Tactic.Common
import Mathlib.Tactic.Ring

namespace Blasthttp.Lib.Deflate

set_option autoImplicit false

/-! ## Bits -/

/-- Why a reading does not get to the end. -/
inductive Stop where
  | short
  | broken

/-- The bits to read and the bytes decompressed, which an error keeps. -/
structure Inflater where
  bits : List Bool
  out : List UInt8

abbrev Inflate (α : Type) := EStateM Stop Inflater α

/-- Least significant bit first. -/
def bitsOf (data : List UInt8) : List Bool :=
  data.flatMap fun byte => (List.range 8).map byte.toNat.testBit

def bit : Inflate Bool := fun s =>
  match s.bits with
  | [] => .error .short s
  | b :: rest => .ok b { s with bits := rest }

/-- A number of `n` bits, least significant bit first. -/
def number : Nat → Inflate Nat
  | 0 => pure 0
  | n + 1 => do
      let low ← bit
      let high ← number n
      pure (low.toNat + 2 * high)

/-- What is left of the byte is passed by. -/
def align : Inflate Unit :=
  modify fun s => { s with bits := s.bits.drop (s.bits.length % 8) }

def emit (byte : Nat) : Inflate Unit :=
  modify fun s => { s with out := s.out ++ [UInt8.ofNat byte] }

/-! ## Canonical codes

A code is given by the length of each symbol's code word, zero for a symbol without one. -/

/-- The numerically first code word of a length. -/
def firstCode (lengths : List Nat) : Nat → Nat
  | 0 => 0
  | n + 1 => 2 * (firstCode lengths n + if n = 0 then 0 else lengths.count n)

/-- The symbols of a length, in order. -/
def symbolsOf (lengths : List Nat) (length : Nat) : List Nat :=
  (List.range lengths.length).filter fun symbol => lengths[symbol]? = some length

def symbolAt (lengths : List Nat) (length code : Nat) : Option Nat :=
  if firstCode lengths length ≤ code then
    (symbolsOf lengths length)[code - firstCode lengths length]?
  else none

/-- One symbol, from the bits of its code word; no word is longer than 15. -/
def symbolFrom (lengths : List Nat) : Nat → Nat → Nat → Inflate Nat
  | 0, _, _ => throw .broken
  | more + 1, length, code => do
      let b ← bit
      let code := 2 * code + b.toNat
      match symbolAt lengths (length + 1) code with
      | some symbol => pure symbol
      | none => symbolFrom lengths more (length + 1) code

def symbol (lengths : List Nat) : Inflate Nat := symbolFrom lengths 15 0 0

/-- What the code words take of all the words of 15 bits. -/
def taken (lengths : List Nat) : Nat :=
  ((lengths.filter (· ≠ 0)).map fun length => 2 ^ (15 - length)).sum

/-- Every word of bits starts with one code word. -/
def Full (lengths : List Nat) : Prop := taken lengths = 2 ^ 15

/-- A code of a single word need not be full. -/
def Usable (lengths : List Nat) : Prop :=
  Full lengths ∨ (lengths.filter (· ≠ 0)).length ≤ 1

instance (lengths : List Nat) : Decidable (Full lengths) := inferInstanceAs (Decidable (_ = _))

instance (lengths : List Nat) : Decidable (Usable lengths) := inferInstanceAs (Decidable (_ ∨ _))

def require (p : Prop) [Decidable p] : Inflate Unit :=
  if p then pure () else throw .broken

/-! ## Blocks -/

/-- `LEN` bytes, as they stand. -/
def storedBytes : Nat → Inflate Unit
  | 0 => pure ()
  | n + 1 => do
      let byte ← number 8
      emit byte
      storedBytes n

def stored : Inflate Unit := do
  align
  let len ← number 16
  let nlen ← number 16
  require (len + nlen = 0xffff)
  storedBytes len

/-- The base and the number of extra bits of the length symbols from 257. -/
def lengthTable : List (Nat × Nat) :=
  [(3, 0), (4, 0), (5, 0), (6, 0), (7, 0), (8, 0), (9, 0), (10, 0), (11, 1), (13, 1), (15, 1),
    (17, 1), (19, 2), (23, 2), (27, 2), (31, 2), (35, 3), (43, 3), (51, 3), (59, 3), (67, 4),
    (83, 4), (99, 4), (115, 4), (131, 5), (163, 5), (195, 5), (227, 5), (258, 0)]

/-- The same for the distance symbols. -/
def distanceTable : List (Nat × Nat) :=
  [(1, 0), (2, 0), (3, 0), (4, 0), (5, 1), (7, 1), (9, 2), (13, 2), (17, 3), (25, 3), (33, 4),
    (49, 4), (65, 5), (97, 5), (129, 6), (193, 6), (257, 7), (385, 7), (513, 8), (769, 8),
    (1025, 9), (1537, 9), (2049, 10), (3073, 10), (4097, 11), (6145, 11), (8193, 12),
    (12289, 12), (16385, 13), (24577, 13)]

/-- A base and its extra bits; a symbol behind the table is no length or distance. -/
def extended (table : List (Nat × Nat)) (symbol : Nat) : Inflate Nat :=
  match table[symbol]? with
  | none => throw .broken
  | some (base, extra) => do
      let more ← number extra
      pure (base + more)

/-- The bytes `distance` back, which may be ones just copied. -/
def copy (distance : Nat) : Nat → Inflate Unit
  | 0 => pure ()
  | n + 1 => do
      let s ← get
      match s.out[s.out.length - distance]? with
      | none => throw .broken
      | some byte => emit byte.toNat
      copy distance n

/-- The symbols of a block up to the end-of-block symbol.  Each takes at least one of the
bits, so the bits that are left bound their number. -/
def symbols (literals distances : List Nat) : Nat → Inflate Unit
  | 0 => throw .short
  | more + 1 => do
      let found ← symbol literals
      if found < 256 then
        emit found
        symbols literals distances more
      else if found = 256 then pure ()
      else
        let length ← extended lengthTable (found - 257)
        let distance ← symbol distances >>= extended distanceTable
        let s ← get
        require (distance ≤ s.out.length)
        copy distance length
        symbols literals distances more

def compressed (literals distances : List Nat) : Inflate Unit := do
  let s ← get
  symbols literals distances (s.bits.length + 1)

def fixedLiterals : List Nat :=
  List.replicate 144 8 ++ List.replicate 112 9 ++ List.replicate 24 7 ++ List.replicate 8 8

def fixedDistances : List Nat := List.replicate 32 5

/-- The code lengths in the order in which the lengths of their code stand. -/
def lengthOrder : List Nat :=
  [16, 17, 18, 0, 8, 7, 9, 6, 10, 5, 11, 4, 12, 3, 13, 2, 14, 1, 15]

/-- `count` code lengths behind those already read, runs written as one symbol. -/
def codeLengths (code : List Nat) (count : Nat) : Nat → List Nat → Inflate (List Nat)
  | 0, _ => throw .short
  | more + 1, read =>
      if read.length = count then pure read
      else do
        let found ← symbol code
        if found < 16 then codeLengths code count more (read ++ [found])
        else
          let (repeated, bits, least) ←
            if found = 16 then
              match read.getLast? with
              | none => throw .broken
              | some last => pure (last, 2, 3)
            else if found = 17 then pure (0, 3, 3)
            else pure (0, 7, 11)
          let extra ← number bits
          require (read.length + least + extra ≤ count)
          codeLengths code count more (read ++ List.replicate (least + extra) repeated)

/-- `count` numbers of `bits` bits. -/
def numbers (bits : Nat) : Nat → Inflate (List Nat)
  | 0 => pure []
  | count + 1 => do
      let first ← number bits
      let rest ← numbers bits count
      pure (first :: rest)

def dynamic : Inflate Unit := do
  let hlit ← number 5
  let hdist ← number 5
  let hclen ← number 4
  require (hlit + 257 ≤ 286 ∧ hdist + 1 ≤ 30)
  let read ← numbers 3 (hclen + 4)
  let code := (List.range 19).map fun length =>
    ((lengthOrder.zip read).lookup length).getD 0
  require (Full code)
  let lengths ← codeLengths code (hlit + 257 + (hdist + 1)) (hlit + 257 + (hdist + 1) + 1) []
  let literals := lengths.take (hlit + 257)
  let distances := lengths.drop (hlit + 257)
  require (Usable literals ∧ Usable distances)
  compressed literals distances

/-- One block; whether it is the final one. -/
def block : Inflate Bool := do
  let final ← bit
  let type ← number 2
  if type = 0 then stored
  else if type = 1 then compressed fixedLiterals fixedDistances
  else if type = 2 then dynamic
  else throw .broken
  pure final

/-- Each block takes bits, so the bits that are left bound their number. -/
def blocks : Nat → Inflate Unit
  | 0 => throw .short
  | more + 1 => do
      let final ← block
      if final then align else blocks more

/-! ## Streams -/

/-- How a string of bytes reads. -/
inductive Reading where
  /-- The stream ends, and `rest` is behind it. -/
  | ended (out rest : List UInt8)
  | short (out : List UInt8)
  | broken (out : List UInt8)
  deriving DecidableEq

/-- RFC 1951. -/
def inflate (data : List UInt8) : Reading :=
  match blocks (8 * data.length + 1) ⟨bitsOf data, []⟩ with
  | .ok _ s => .ended s.out (data.drop (data.length - s.bits.length / 8))
  | .error .short s => .short s.out
  | .error .broken s => .broken s.out

/-- The checksum of RFC 1950. -/
def adler32 (data : List UInt8) : Nat :=
  let (a, b) := data.foldl (fun (a, b) byte =>
    ((a + byte.toNat) % 65521, (b + (a + byte.toNat) % 65521) % 65521)) (1, 0)
  65536 * b + a

/-- Method 8, a window of at most 32 KiB, a check value and no preset dictionary. -/
def Header (cmf flg : UInt8) : Prop :=
  cmf &&& 0x0f = 8 ∧ cmf >>> 4 ≤ 7 ∧ (256 * cmf.toNat + flg.toNat) % 31 = 0 ∧ flg &&& 0x20 = 0

instance (cmf flg : UInt8) : Decidable (Header cmf flg) := inferInstanceAs (Decidable (_ ∧ _))

/-- RFC 1950.  The window that the header announces does not bound the distances. -/
def zlib : List UInt8 → Reading
  | cmf :: flg :: data =>
      if Header cmf flg then
        match inflate data with
        | .ended out (a :: b :: c :: d :: rest) =>
            if adler32 out = 16777216 * a.toNat + 65536 * b.toNat + 256 * c.toNat + d.toNat then
              .ended out rest
            else .broken out
        | .ended out _ => .short out
        | stopped => stopped
      else .broken []
  | _ => .short []

/-! ## Whole bytes -/

theorem bitsOf_cons (byte : UInt8) (data : List UInt8) :
    bitsOf (byte :: data) = (List.range 8).map byte.toNat.testBit ++ bitsOf data := rfl

theorem bitsOf_length (data : List UInt8) : (bitsOf data).length = 8 * data.length := by
  induction data with
  | nil => rfl
  | cons byte data ih =>
      rw [bitsOf_cons, List.length_append, ih, List.length_cons, List.length_map, List.length_range]
      omega

theorem number_testBits (n x : Nat) (rest : List Bool) (out : List UInt8) :
    number n ⟨(List.range n).map x.testBit ++ rest, out⟩ = .ok (x % 2 ^ n) ⟨rest, out⟩ := by
  induction n generalizing x with
  | zero => simp [number, pure, EStateM.pure, Nat.mod_one]
  | succ n ih =>
      have later : (x.testBit ∘ Nat.succ) = (x / 2).testBit := by
        funext i
        exact Nat.testBit_succ x i
      have low : (x.testBit 0).toNat = x % 2 := by
        rw [Nat.toNat_testBit, Nat.pow_zero, Nat.div_one]
      rw [List.range_succ_eq_map, List.map_cons, List.map_map, later, List.cons_append]
      simp only [number, bind, EStateM.bind, bit, ih (x / 2), pure, EStateM.pure]
      rw [low, Nat.pow_succ', Nat.mod_mul]

theorem number_byte (byte : UInt8) (data out : List UInt8) :
    number 8 ⟨bitsOf (byte :: data), out⟩ = .ok byte.toNat ⟨bitsOf data, out⟩ := by
  rw [bitsOf_cons, number_testBits, Nat.mod_eq_of_lt byte.toNat_lt]

theorem number_add (n m : Nat) :
    number (n + m) =
      (number n >>= fun low => number m >>= fun high => pure (low + 2 ^ n * high)) := by
  induction n with
  | zero =>
      have same : (HAdd.hAdd 0 : Nat → Nat) = id := funext Nat.zero_add
      simp [number, same]
  | succ n ih =>
      rw [Nat.succ_add, number, ih]
      simp only [number, bind_assoc, pure_bind]
      refine congrArg _ (funext fun low => congrArg _ (funext fun high =>
        congrArg _ (funext fun top => ?_)))
      rw [Nat.pow_succ']
      congr 1
      ring

/-- A little-endian pair. -/
theorem number_pair {data out : List UInt8} {value : Nat} {t : Inflater}
    (read : number 16 ⟨bitsOf data, out⟩ = .ok value t) :
    ∃ low high rest, data = low :: high :: rest ∧ value = low.toNat + 256 * high.toNat ∧
      t = ⟨bitsOf rest, out⟩ := by
  have halves := number_add 8 8
  match data, read with
  | [], read => cases read
  | [low], read =>
      rw [show 16 = 8 + 8 from rfl, halves] at read
      simp only [bind, EStateM.bind, number_byte] at read
      cases read
  | low :: high :: rest, read =>
      rw [show 16 = 8 + 8 from rfl, halves] at read
      simp only [bind, EStateM.bind, number_byte] at read
      cases read
      exact ⟨low, high, rest, rfl, rfl, rfl⟩

/-! ## A stored block in front -/

theorem bind_ok {α β : Type} {x : Inflate α} {f : α → Inflate β} {s t : Inflater} {b : β}
    (ran : (x >>= f) s = .ok b t) : ∃ a u, x s = .ok a u ∧ f a u = .ok b t := by
  simp only [bind, EStateM.bind] at ran
  cases first : x s with
  | ok a u =>
      rw [first] at ran
      exact ⟨a, u, rfl, ran⟩
  | error e u =>
      rw [first] at ran
      cases ran

theorem require_ok {p : Prop} [Decidable p] {s t : Inflater} (ran : require p s = .ok () t) :
    p := by
  by_contra unmet
  rw [require, if_neg unmet] at ran
  cases ran

/-- What is left of a byte is no more than seven bits. -/
theorem align_bits {pad : List Bool} (few : pad.length < 8) (data out : List UInt8) :
    align ⟨pad ++ bitsOf data, out⟩ = .ok () ⟨bitsOf data, out⟩ := by
  have passed : (pad ++ bitsOf data).length % 8 = pad.length := by
    rw [List.length_append, bitsOf_length]
    omega
  show EStateM.Result.ok () (Inflater.mk _ out) = _
  rw [passed, List.drop_left]

theorem stored_ok {pad : List Bool} (few : pad.length < 8) {data out : List UInt8} {t : Inflater}
    (ran : stored ⟨pad ++ bitsOf data, out⟩ = .ok () t) :
    ∃ len hi nlen nhi tail, data = len :: hi :: nlen :: nhi :: tail ∧
      len.toNat + nlen.toNat = 255 ∧ hi.toNat + nhi.toNat = 255 := by
  obtain ⟨_, aligned, skip, ran⟩ := bind_ok ran
  rw [align_bits few] at skip
  cases skip
  obtain ⟨length, afterLen, readLen, ran⟩ := bind_ok ran
  obtain ⟨len, hi, rest, rfl, rfl, rfl⟩ := number_pair readLen
  obtain ⟨complement, afterNlen, readNlen, ran⟩ := bind_ok ran
  obtain ⟨nlen, nhi, tail, rfl, rfl, rfl⟩ := number_pair readNlen
  obtain ⟨_, checked, check, -⟩ := bind_ok ran
  have sum := require_ok check
  have := len.toNat_lt
  have := hi.toNat_lt
  have := nlen.toNat_lt
  have := nhi.toNat_lt
  exact ⟨len, hi, nlen, nhi, tail, rfl, by omega, by omega⟩

/-- Three low bits of zero start a stored block that is not final. -/
theorem inflate_stored {first : UInt8} {data out rest : List UInt8} (zeros : first.toNat % 8 = 0)
    (ends : inflate (first :: data) = .ended out rest) :
    ∃ len hi nlen nhi tail, data = len :: hi :: nlen :: nhi :: tail ∧
      len.toNat + nlen.toNat = 255 ∧ hi.toNat + nhi.toNat = 255 := by
  rw [inflate] at ends
  split at ends
  · rename_i s ran
    obtain ⟨final, u, ranBlock, -⟩ := bind_ok ran
    let pad := (List.range 5).map fun i => first.toNat.testBit (i + 3)
    have five : pad.length = 5 := by simp [pad]
    obtain ⟨top, afterTop, readTop, ranBlock⟩ := bind_ok ranBlock
    have shape : bitsOf (first :: data) = first.toNat.testBit 0 ::
        ((List.range 2).map (first.toNat / 2).testBit ++ (pad ++ bitsOf data)) := rfl
    rw [shape] at readTop
    cases readTop
    obtain ⟨type, afterType, readType, ranBlock⟩ := bind_ok ranBlock
    rw [number_testBits] at readType
    cases readType
    have zero : first.toNat / 2 % 2 ^ 2 = 0 := by omega
    rw [if_pos zero] at ranBlock
    obtain ⟨_, v, ranStored, -⟩ := bind_ok ranBlock
    exact stored_ok (by omega) ranStored
  · cases ends
  · cases ends

end Blasthttp.Lib.Deflate
