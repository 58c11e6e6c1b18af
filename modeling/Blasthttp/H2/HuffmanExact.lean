/-
# Blasthttp.H2.HuffmanExact -- decoding accepts nothing but encodings

`decode_encode` is one half of a bijection.  The other half is that an accepted
input is the encoding of what it decodes to: the walk cuts the input into codewords
and a remainder, an accepted remainder is fewer than eight ones, and that is what
the encoder pads with.  What is refused is named by the same cut.
-/
import Blasthttp.H2.HuffmanRoundTrip

namespace Blasthttp.H2.Huffman

open Blasthttp.Lib.Bits Blasthttp.Lib.CodeTrie

set_option autoImplicit false

/-! ## Codewords and symbols -/

/-- A symbol that stands in the table for a byte stands there with the byte's code. -/
theorem mem_codeTable {code : List Bool} {s : Nat} (there : (code, s) ∈ codeTable)
    (byte : s ≠ eos) : s < 256 ∧ code = codeBits (UInt8.ofNat s) := by
  have small : ∀ e ∈ codeTable, e.2 ≠ eos → e.2 < 256 ∧ e.1 = codeBits (UInt8.ofNat e.2) := by
    decide +kernel
  exact small _ there byte

/-- The codewords of a walk without EOS are those of the bytes it emits. -/
theorem flatten_codes {codes : List (List Bool)} {symbols : List Nat}
    (emitted : codes.map (fun c => (codeTrie.sub c).sym) = symbols.map some)
    (bytes : eos ∉ symbols) :
    codes.flatten = (symbols.map UInt8.ofNat).flatMap codeBits := by
  induction codes generalizing symbols with
  | nil =>
      cases symbols with
      | nil => rfl
      | cons s symbols => cases emitted
  | cons code codes ih =>
      cases symbols with
      | nil => cases emitted
      | cons s symbols =>
          obtain ⟨first, rest⟩ := List.cons_eq_cons.mp emitted
          have other : s ≠ eos := fun same => bytes (same ▸ List.mem_cons_self)
          obtain ⟨-, same⟩ := mem_codeTable (codeTrie_sym.mp first) other
          rw [List.flatten_cons, ih rest (fun there => bytes (List.mem_cons_of_mem _ there)),
            List.map_cons, List.flatMap_cons, same]

/-! ## What is accepted -/

/-- A path of ones is as deep as it is long. -/
theorem onesDepth_ones {path : List Bool} (ones : false ∉ path) :
    path = List.replicate path.length true ∧ onesDepth path = path.length := by
  have run : path = List.replicate path.length true := by
    apply List.eq_replicate_iff.mpr
    refine ⟨rfl, fun bit there => ?_⟩
    cases bit with
    | true => rfl
    | false => exact absurd there ones
  refine ⟨run, ?_⟩
  generalize path.length = k at run
  subst run
  simp [onesDepth]

/-- An accepted input is the codewords of its bytes and fewer than eight ones. -/
theorem bits_of_decode {b x : List UInt8} (accepted : decode b = .ok x) :
    ∃ pad, pad < 8 ∧ bits b = x.flatMap codeBits ++ List.replicate pad true := by
  rw [decode_eq_walk] at accepted
  obtain ⟨codes, consumed, emitted, -, -⟩ :=
    Trie.walk_sound codeTrie_complete codeTrie_root (bits b) [] codeTrie_complete codeTrie_root
  rw [List.nil_append] at consumed
  generalize codeTrie.walk (bits b) [] = walked at accepted consumed emitted
  obtain ⟨symbols, path⟩ := walked
  split at accepted
  · cases accepted
  · rename_i noEos
    split at accepted
    · cases accepted
    · rename_i padding
      cases accepted
      rw [flatten_codes emitted noEos] at consumed
      have ones : false ∉ path := by
        intro mixed
        refine padding ⟨List.ne_nil_of_mem mixed, .inr ?_⟩
        exact List.all_eq_false.mpr ⟨false, mixed, by simp⟩
      obtain ⟨run, depth⟩ := onesDepth_ones ones
      refine ⟨path.length, ?_, by rw [consumed, ← run]⟩
      by_contra long
      have deep : 7 < path.length := by omega
      have stopped : path ≠ [] := List.ne_nil_of_length_pos (by omega)
      exact padding ⟨stopped, .inl (by simpa [depth] using deep)⟩

/-- The encoder is the only way to write what the decoder reads. -/
theorem encode_of_decode {b x : List UInt8} (accepted : decode b = .ok x) : encode x = b := by
  obtain ⟨pad, short, read⟩ := bits_of_decode accepted
  obtain ⟨pad', short', written⟩ := bits_encode x
  have same : pad' = pad := by
    have readLength := congrArg List.length read
    have writtenLength := congrArg List.length written
    simp only [bits_length, List.length_append, List.length_replicate] at readLength writtenLength
    omega
  apply bits_injective
  rw [written, read, same]

/-! ## What is refused -/

/-- The EOS symbol anywhere among the codewords is refused. -/
theorem decode_eos {b x : List UInt8} {rest : List Bool}
    (contains : bits b = x.flatMap codeBits ++ (List.replicate 30 true ++ rest)) :
    decode b = .error .eosInStream := by
  have walked := walk_codeBits x (List.replicate 30 true ++ rest)
  rw [Trie.walk_code codeTrie_complete rest (List.replicate 30 true) [] (by simp)
    (codeTrie_sym.mpr eos_mem)] at walked
  rw [decode_eq_walk, contains, walked, if_pos]
  simp

/-- A remainder with no codeword in front is where the walk stops. -/
theorem walk_remainder {pad : List Bool}
    (cut : ∀ code s, (code, s) ∈ codeTable → ¬ code <+: pad) :
    codeTrie.walk pad [] = ([], pad) := by
  obtain ⟨codes, consumed, emitted, -, -⟩ :=
    Trie.walk_sound codeTrie_complete codeTrie_root pad [] codeTrie_complete codeTrie_root
  rw [List.nil_append] at consumed
  have none : codes = [] := by
    cases codes with
    | nil => rfl
    | cons code codes =>
        exfalso
        have symbol : (codeTrie.sub code).sym ∈ (codeTrie.walk pad []).1.map some := by
          rw [← emitted]
          exact List.mem_cons_self
        obtain ⟨s, -, found⟩ := List.mem_map.mp symbol
        refine cut code s (codeTrie_sym.mp found.symm) ?_
        rw [consumed, List.flatten_cons, List.append_assoc]
        exact List.prefix_append _ _
  subst none
  have silent : (codeTrie.walk pad []).1 = [] := by simpa using emitted.symm
  exact Prod.ext silent consumed.symm

/-- A remainder that is no run of fewer than eight ones is refused. -/
theorem decode_badPadding {b x : List UInt8} {pad : List Bool}
    (whole : bits b = x.flatMap codeBits ++ pad)
    (cut : ∀ code s, (code, s) ∈ codeTable → ¬ code <+: pad)
    (bad : 7 < pad.length ∨ false ∈ pad) : decode b = .error .badPadding := by
  have walked := walk_codeBits x pad
  rw [walk_remainder cut, List.append_nil] at walked
  have noEos : eos ∉ x.map UInt8.toNat := by
    intro there
    obtain ⟨byte, -, same⟩ := List.mem_map.mp there
    have bound := byte.toNat_lt
    simp only [eos] at same
    omega
  rw [decode_eq_walk, whole, walked, if_neg noEos, if_pos]
  by_cases mixed : false ∈ pad
  · refine ⟨List.ne_nil_of_mem mixed, .inr ?_⟩
    exact List.all_eq_false.mpr ⟨false, mixed, by simp⟩
  · obtain ⟨-, depth⟩ := onesDepth_ones mixed
    have long : 7 < pad.length := bad.resolve_right mixed
    have stopped : pad ≠ [] := List.ne_nil_of_length_pos (by omega)
    exact ⟨stopped, .inl (by simpa [depth] using long)⟩

/-! ## Walks in the tree -/

/-- The node the loop of `decode` stands at after some bits, every symbol sending it
back to the root. -/
def nodeAfter (tree : List HuffNode) : List Bool → Nat → Nat
  | [], nodeIdx => nodeIdx
  | bit :: rest, nodeIdx =>
      let next := follow tree nodeIdx bit
      nodeAfter tree rest (if (nodeAt tree next).symbol.isSome then 0 else next)

/-- `nodeAfter` is the node index that the loop ends with. -/
theorem decodeBits_nodeAfter {tree : List HuffNode} :
    ∀ {input : List Bool} {nodeIdx stop : Nat} {out bytes : List UInt8},
      decodeBits tree input nodeIdx out = .ok (stop, bytes) → nodeAfter tree input nodeIdx = stop
  | [], nodeIdx, stop, out, bytes, ended => by
      cases ended
      rfl
  | bit :: rest, nodeIdx, stop, out, bytes, ended => by
      unfold decodeBits at ended
      unfold nodeAfter follow
      simp only at ended ⊢
      split at ended
      · rename_i sym found
        split at ended
        · cases ended
        · rw [found]
          exact decodeBits_nodeAfter ended
      · rename_i found
        rw [found]
        exact decodeBits_nodeAfter ended

/-- The walk in the vector stands where the walk in the trie does. -/
theorem nodeAfter_walk {tree : List HuffNode} {trie : Trie Nat} {paths : List (List Bool)}
    (layout : Layout tree paths fun p => (trie.sub p).sym)
    (mem : ∀ p, p ∈ paths ↔ (trie.sub p).present = true)
    (full : trie.complete = true) (inner : trie.sym = none) :
    ∀ (input path : List Bool), (trie.sub path).complete = true → (trie.sub path).sym = none →
      nodeAfter tree input (paths.idxOf path) = paths.idxOf (trie.walk input path).2
  | [], path, _, _ => rfl
  | b :: rest, path, pfull, pinner => by
      have below := Trie.complete_concat pfull pinner b
      obtain ⟨next, -, label⟩ := layout.follow_inner mem pfull pinner b
      unfold nodeAfter
      rcases Option.eq_none_or_eq_some (trie.sub (path ++ [b])).sym with found | ⟨s, found⟩
      · simp only [next, label, Trie.walk, found]
        exact nodeAfter_walk layout mem full inner rest (path ++ [b]) below found
      · have restart := nodeAfter_walk layout mem full inner rest [] full inner
        rw [layout.idxOf_nil] at restart
        simp only [next, label, Trie.walk, found]
        exact restart

/-- No step of any walk from the root misses its child. -/
theorem follow_nodeAfter (walked : List Bool) (bit : Bool) :
    follow huffmanTree (nodeAfter huffmanTree walked 0) bit ≠ 0 := by
  obtain ⟨paths, layout, mem⟩ := huffmanTree_stores
  obtain ⟨codes, -, -, full, inner⟩ :=
    Trie.walk_sound codeTrie_complete codeTrie_root walked [] codeTrie_complete codeTrie_root
  have stands := nodeAfter_walk layout mem codeTrie_complete codeTrie_root walked []
    codeTrie_complete codeTrie_root
  rw [layout.idxOf_nil] at stands
  rw [stands]
  exact (layout.follow_inner mem full inner bit).2.1

/-- **Huffman coding is exact.** Decoding inverts encoding, and what decodes was
encoded; EOS and any padding but fewer than eight ones are refused, and every step
in the tree finds its child. -/
theorem huffman_exact :
    (∀ x : List UInt8, decode (encode x) = .ok x) ∧
    (∀ b x : List UInt8, decode b = .ok x → encode x = b) ∧
    (∀ (b x : List UInt8) (rest : List Bool), bits b = x.flatMap codeBits ++ (List.replicate 30 true ++ rest) →
      decode b = .error .eosInStream) ∧
    (∀ (b x : List UInt8) (pad : List Bool), bits b = x.flatMap codeBits ++ pad →
      (∀ code s, (code, s) ∈ codeTable → ¬ code <+: pad) →
      7 < pad.length ∨ false ∈ pad → decode b = .error .badPadding) ∧
    (∀ (walked : List Bool) (bit : Bool), follow huffmanTree (nodeAfter huffmanTree walked 0) bit ≠ 0) :=
  ⟨decode_encode, fun _ _ => encode_of_decode, fun _ _ _ => decode_eos,
    fun _ _ _ => decode_badPadding, follow_nodeAfter⟩

end Blasthttp.H2.Huffman
