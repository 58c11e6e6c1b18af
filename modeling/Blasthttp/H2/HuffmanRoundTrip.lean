/-
# Blasthttp.H2.HuffmanRoundTrip -- decoding inverts encoding

`bits_encode` says what the encoder emits: the codewords of the input, then fewer
than eight one-bits.  `decode_eq_walk` says what the decoder computes: the walk
through the code trie, with EOS refused and the stopping path judged as padding.
Together they give `decode_encode`, and `decode_length_le`, the bound on how much
a string can grow when it is decoded.
-/
import Blasthttp.H2.HuffmanTree
import Mathlib.Algebra.Order.BigOperators.Group.List
import Mathlib.Algebra.Order.Group.Nat
import Mathlib.Algebra.Group.Action.Defs

namespace Blasthttp.H2.Huffman

open Blasthttp.Lib.Bits Blasthttp.Lib.CodeTrie

set_option autoImplicit false

/-! ## What the encoder emits -/

/-- The codeword of a byte. -/
def codeBits (b : UInt8) : List Bool := msb (tableEntry b).2 (tableEntry b).1

/-- The bits an encoder state has committed to: those written out and those still
in the buffer. -/
def EncodeState.pending (s : EncodeState) : List Bool := bits s.out ++ msb s.bitsInBuf s.bitBuf

theorem huffmanTable_fits :
    huffmanTable.length = 256 ∧ ∀ e ∈ huffmanTable, e.1 < 2 ^ e.2 ∧ 5 ≤ e.2 ∧ e.2 ≤ 30 := by
  decide +kernel

theorem tableEntry_mem (b : UInt8) : tableEntry b ∈ huffmanTable := by
  have bound : b.toNat < huffmanTable.length := by rw [huffmanTable_fits.1]; exact b.toNat_lt
  rw [tableEntry, List.getD_eq_getElem _ _ bound]
  exact List.getElem_mem bound

theorem tableEntry_fits (b : UInt8) :
    (tableEntry b).1 < 2 ^ (tableEntry b).2 ∧ 5 ≤ (tableEntry b).2 ∧ (tableEntry b).2 ≤ 30 :=
  huffmanTable_fits.2 _ (tableEntry_mem b)

/-- Draining moves whole bytes from the buffer to the output and nothing else. -/
theorem drain_pending :
    ∀ (fuel : Nat) (s : EncodeState), s.bitsInBuf ≤ fuel →
      (drain fuel s).pending = s.pending ∧ (drain fuel s).bitsInBuf < 8
  | 0, s, hs => ⟨rfl, by simp only [drain]; omega⟩
  | fuel + 1, s, hs => by
      unfold drain
      split
      · rename_i full
        obtain ⟨same, small⟩ := drain_pending fuel
          { s with
            bitsInBuf := s.bitsInBuf - 8
            out := s.out ++ [UInt8.ofNat ((s.bitBuf >>> (s.bitsInBuf - 8)) &&& 0xFF)] }
          (by simp only; omega)
        refine ⟨same.trans ?_, small⟩
        have split : s.bitsInBuf = 8 + (s.bitsInBuf - 8) := by omega
        simp only [EncodeState.pending, bits_append, bits_cons, bits_nil, List.append_nil,
          byteBits_low, List.append_assoc]
        rw [← msb_add, ← split]
      · rename_i few
        exact ⟨rfl, by omega⟩

theorem encodeByte_pending (s : EncodeState) (b : UInt8) (small : s.bitsInBuf < 8) :
    (encodeByte s b).pending = s.pending ++ codeBits b ∧ (encodeByte s b).bitsInBuf < 8 := by
  obtain ⟨fits, -, short⟩ := tableEntry_fits b
  obtain ⟨same, few⟩ := drain_pending (s.bitsInBuf + (tableEntry b).2)
    { s with
      bitBuf := (s.bitBuf <<< (tableEntry b).2) % 2 ^ 64 ||| (tableEntry b).1
      bitsInBuf := s.bitsInBuf + (tableEntry b).2 } le_rfl
  refine ⟨same.trans ?_, few⟩
  simp only [EncodeState.pending, codeBits, List.append_assoc]
  rw [msb_push s.bitBuf (by omega) fits]

theorem encodeLoop_pending (input : List UInt8) :
    ∀ s : EncodeState, s.bitsInBuf < 8 →
      (input.foldl encodeByte s).pending = s.pending ++ input.flatMap codeBits ∧
      (input.foldl encodeByte s).bitsInBuf < 8 := by
  induction input with
  | nil => intro s small; exact ⟨by simp, small⟩
  | cons b input ih =>
      intro s small
      obtain ⟨step, few⟩ := encodeByte_pending s b small
      obtain ⟨rest, last⟩ := ih (encodeByte s b) few
      exact ⟨by rw [List.foldl_cons, rest, step]; simp, last⟩

/-- The encoding is the codewords followed by less than a byte of ones. -/
theorem bits_encode (input : List UInt8) :
    ∃ pad, pad < 8 ∧
      bits (encode input) = input.flatMap codeBits ++ List.replicate pad true := by
  obtain ⟨total, few⟩ := encodeLoop_pending input { out := [], bitBuf := 0, bitsInBuf := 0 }
    (by simp)
  generalize hs : input.foldl encodeByte { out := [], bitBuf := 0, bitsInBuf := 0 } = s at total few
  have empty : EncodeState.pending { out := [], bitBuf := 0, bitsInBuf := 0 } = [] := rfl
  rw [empty, List.nil_append] at total
  by_cases more : 0 < s.bitsInBuf
  · refine ⟨8 - s.bitsInBuf, by omega, ?_⟩
    have ones : 2 ^ (8 - s.bitsInBuf) - 1 < 2 ^ (8 - s.bitsInBuf) :=
      Nat.sub_one_lt (Nat.two_pow_pos _).ne'
    have lastByte : msb 8 ((s.bitBuf <<< (8 - s.bitsInBuf)) % 2 ^ 64 ||| (2 ^ (8 - s.bitsInBuf) - 1)) =
        msb s.bitsInBuf s.bitBuf ++ List.replicate (8 - s.bitsInBuf) true := by
      have push := msb_push (n := s.bitsInBuf) (k := 64) s.bitBuf (by omega) ones
      rw [msb_ones, show s.bitsInBuf + (8 - s.bitsInBuf) = 8 by omega] at push
      exact push
    simp only [encode, hs, if_pos more, bits_append, bits_cons, bits_nil, List.append_nil,
      byteBits_low]
    rw [lastByte, ← List.append_assoc, ← total]
    rfl
  · refine ⟨0, by omega, ?_⟩
    have drained : s.bitsInBuf = 0 := by omega
    simp only [encode, hs, if_neg more, List.replicate_zero, List.append_nil]
    rw [← total, EncodeState.pending, drained]
    simp [msb]

/-! ## What the decoder computes -/

/-- The child that `decode` steps to for a bit. -/
def follow (tree : List HuffNode) (nodeIdx : Nat) (bit : Bool) : Nat :=
  if bit = false then (nodeAt tree nodeIdx).left else (nodeAt tree nodeIdx).right

section Walk

variable {tree : List HuffNode} {trie : Trie Nat} {paths : List (List Bool)}

/-- Below an inner path of a complete trie both children are there, one bit further. -/
theorem Layout.follow_inner (layout : Layout tree paths fun p => (trie.sub p).sym)
    (mem : ∀ p, p ∈ paths ↔ (trie.sub p).present = true) {path : List Bool}
    (full : (trie.sub path).complete = true) (inner : (trie.sub path).sym = none) (b : Bool) :
    follow tree (paths.idxOf path) b = paths.idxOf (path ++ [b]) ∧
      follow tree (paths.idxOf path) b ≠ 0 ∧
      (nodeAt tree (paths.idxOf (path ++ [b]))).symbol = (trie.sub (path ++ [b])).sym := by
  have here : path ∈ paths := (mem _).mpr (Trie.complete_present full)
  have there : path ++ [b] ∈ paths :=
    (mem _).mpr (Trie.complete_present (Trie.complete_concat full inner b))
  have linked : follow tree (paths.idxOf path) b = slot paths (path ++ [b]) := by
    rw [follow, layout.nodeAt_idxOf here]
    cases b <;> rfl
  refine ⟨linked.trans (if_pos there), ?_, ?_⟩
  · rw [linked]
    exact layout.slot_concat_ne_zero.mpr there
  · rw [layout.nodeAt_idxOf there]
    rfl

/-- Walking the node vector of a complete trie is walking the trie. -/
theorem decodeBits_walk (layout : Layout tree paths fun p => (trie.sub p).sym)
    (mem : ∀ p, p ∈ paths ↔ (trie.sub p).present = true)
    (full : trie.complete = true) (inner : trie.sym = none) :
    ∀ (input path : List Bool) (out : List UInt8),
      (trie.sub path).complete = true → (trie.sub path).sym = none →
      decodeBits tree input (paths.idxOf path) out =
        if eos ∈ (trie.walk input path).1 then .error .eosInStream
        else .ok (paths.idxOf (trie.walk input path).2,
          out ++ (trie.walk input path).1.map UInt8.ofNat)
  | [], path, out, _, _ => by simp [decodeBits, Trie.walk]
  | b :: rest, path, out, pfull, pinner => by
      have below := Trie.complete_concat pfull pinner b
      obtain ⟨next, -, label⟩ := layout.follow_inner mem pfull pinner b
      unfold follow at next
      rcases Option.eq_none_or_eq_some (trie.sub (path ++ [b])).sym with found | ⟨s, found⟩
      · simp only [decodeBits, next, label, Trie.walk, found]
        exact decodeBits_walk layout mem full inner rest (path ++ [b]) out below found
      · simp only [decodeBits, next, label, Trie.walk, found]
        by_cases last : s = eos
        · simp [last]
        · have restart := decodeBits_walk layout mem full inner rest [] (out ++ [UInt8.ofNat s])
            full inner
          rw [layout.idxOf_nil] at restart
          simp only [if_neg last, restart, List.mem_cons, Ne.symm last, false_or, List.map_cons,
            List.append_assoc, List.singleton_append]

end Walk

/-- The decoder is the walk through the code trie. -/
theorem decode_eq_walk (input : List UInt8) :
    decode input =
      if eos ∈ (codeTrie.walk (bits input) []).1 then .error .eosInStream
      else if (codeTrie.walk (bits input) []).2 ≠ [] ∧
          (onesDepth (codeTrie.walk (bits input) []).2 > 7 ∨
            (codeTrie.walk (bits input) []).2.all id = false) then .error .badPadding
      else .ok ((codeTrie.walk (bits input) []).1.map UInt8.ofNat) := by
  obtain ⟨paths, layout, mem⟩ := huffmanTree_stores
  have loop := decodeBits_walk layout mem codeTrie_complete codeTrie_root (bits input) [] []
    codeTrie_complete codeTrie_root
  obtain ⟨codes, -, -, full, -⟩ :=
    Trie.walk_sound codeTrie_complete codeTrie_root (bits input) [] codeTrie_complete codeTrie_root
  rw [layout.idxOf_nil, List.nil_append] at loop
  simp only [decode, loop]
  by_cases last : eos ∈ (codeTrie.walk (bits input) []).1
  · simp [last]
  · have there : (codeTrie.walk (bits input) []).2 ∈ paths :=
      (mem _).mpr (Trie.complete_present full)
    have atRoot : paths.idxOf (codeTrie.walk (bits input) []).2 ≠ 0 ↔
        (codeTrie.walk (bits input) []).2 ≠ [] := by
      rw [not_iff_not, ← layout.idxOf_nil]
      exact List.idxOf_inj there
    simp only [if_neg last, layout.nodeAt_idxOf there, atRoot, nodeOf]

/-! ## Round trip -/

theorem codeBits_mem (b : UInt8) : (codeBits b, b.toNat) ∈ codeTable := by
  have bound : b.toNat < huffmanTable.length := by rw [huffmanTable_fits.1]; exact b.toNat_lt
  refine List.mem_map.mpr ⟨((tableEntry b).1, (tableEntry b).2, b.toNat), ?_, rfl⟩
  refine List.mem_append_left _ (List.mem_map.mpr ⟨(tableEntry b, b.toNat), ?_, rfl⟩)
  rw [List.mem_zipIdx_iff_getElem?, tableEntry, List.getD_eq_getElem _ _ bound]
  exact List.getElem?_eq_getElem bound

theorem codeBits_length (b : UInt8) : (codeBits b).length = (tableEntry b).2 := by
  simp [codeBits]

theorem walk_codeBits (input : List UInt8) (rest : List Bool) :
    codeTrie.walk (input.flatMap codeBits ++ rest) [] =
      (input.map UInt8.toNat ++ (codeTrie.walk rest []).1, (codeTrie.walk rest []).2) := by
  induction input with
  | nil => simp
  | cons b input ih =>
      have nonempty : codeBits b ≠ [] := by
        have long := (tableEntry_fits b).2.1
        intro h
        have := codeBits_length b
        rw [h, List.length_nil] at this
        omega
      rw [List.flatMap_cons, List.append_assoc,
        Trie.walk_code codeTrie_complete _ (codeBits b) [] nonempty
          (codeTrie_sym.mpr (codeBits_mem b)), ih]
      rfl

theorem eos_mem : (List.replicate 30 true, eos) ∈ codeTable := by
  refine List.mem_map.mpr ⟨(0x3fffffff, 30, eos), ?_, ?_⟩
  · exact List.mem_append_right _ List.mem_cons_self
  · exact congrArg (·, eos) (msb_ones 30)

/-- A run of ones shorter than EOS stays on the path to EOS. -/
theorem walk_ones : ∀ k n, n + k < 30 →
    codeTrie.walk (List.replicate k true) (List.replicate n true) =
      ([], List.replicate (n + k) true)
  | 0, n, _ => rfl
  | k + 1, n, short => by
      have longer : List.replicate n true ++ [true] = List.replicate (n + 1) true :=
        List.replicate_succ'.symm
      have inner : (codeTrie.sub (List.replicate (n + 1) true)).sym = none := by
        have split : List.replicate 30 true =
            List.replicate (n + 1) true ++ true :: List.replicate (28 - n) true := by
          rw [← List.replicate_succ, List.replicate_append_replicate]
          congr 1
          omega
        have last := Trie.present_of_sym (codeTrie_sym.mpr eos_mem)
        rw [split] at last
        exact Trie.sym_above codeTrie_complete last
      rw [List.replicate_succ, Trie.walk, longer, inner]
      have rest := walk_ones k (n + 1) (by omega)
      rw [show n + (k + 1) = n + 1 + k by omega]
      exact rest

theorem decode_encode (input : List UInt8) : decode (encode input) = .ok input := by
  obtain ⟨pad, short, emitted⟩ := bits_encode input
  have padding := walk_ones pad 0 (by omega)
  rw [List.replicate_zero, Nat.zero_add] at padding
  have walked := walk_codeBits input (List.replicate pad true)
  rw [padding, List.append_nil] at walked
  rw [decode_eq_walk, emitted, walked]
  have noEos : eos ∉ input.map UInt8.toNat := by
    intro h
    obtain ⟨b, -, hb⟩ := List.mem_map.mp h
    have := b.toNat_lt
    simp only [eos] at hb
    omega
  have depth : onesDepth (List.replicate pad true) = pad := by simp [onesDepth]
  have accepted : ¬(List.replicate pad true ≠ [] ∧
      (onesDepth (List.replicate pad true) > 7 ∨ (List.replicate pad true).all id = false)) := by
    rintro ⟨-, deep | mixed⟩
    · omega
    · simp at mixed
  have bytes : (input.map UInt8.toNat).map UInt8.ofNat = input := by simp [Function.comp_def]
  rw [if_neg noEos, if_neg accepted, bytes]

/-! ## Growth -/

theorem codeTable_long : ∀ e ∈ codeTable, 5 ≤ e.1.length := by decide +kernel

/-- Every symbol took at least five bits. -/
theorem decode_length_le {input out : List UInt8} (h : decode input = .ok out) :
    5 * out.length ≤ 8 * input.length := by
  rw [decode_eq_walk] at h
  split at h
  · cases h
  · split at h
    · cases h
    · obtain ⟨codes, consumed, emitted, -⟩ := Trie.walk_sound codeTrie_complete codeTrie_root
        (bits input) [] codeTrie_complete codeTrie_root
      have same : codes.length = out.length := by
        have := congrArg List.length emitted
        rw [List.length_map, List.length_map] at this
        rw [this, ← Except.ok.inj h, List.length_map]
      have long : ∀ c ∈ codes, 5 ≤ c.length := by
        intro c hc
        have found : (codeTrie.sub c).sym ∈ codes.map fun c => (codeTrie.sub c).sym :=
          List.mem_map_of_mem hc
        rw [emitted] at found
        obtain ⟨s, -, hs⟩ := List.mem_map.mp found
        exact codeTable_long _ (codeTrie_sym.mp hs.symm)
      have total := List.card_nsmul_le_sum (codes.map List.length) 5 (by simpa using long)
      have spent := congrArg List.length consumed
      simp only [List.nil_append, List.length_append, List.length_flatten, bits_length] at spent
      rw [List.length_map, same, smul_eq_mul] at total
      omega

end Blasthttp.H2.Huffman
