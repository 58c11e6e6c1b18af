/-
# Blasthttp.H2.HpackBloat -- which padded blocks still decode

A padded length of 128 or more is read back as another length (`readInteger_padded`),
so the string behind it is not the one written: a raw string of another length, or a
Huffman string that would have to be the same encoding.  The first such string spoils
its block, and a block without one decodes as its unpadded form does.
-/
import Blasthttp.H2.HpackRoundTrip
import Blasthttp.H2.HpackTable
import Blasthttp.H2.HuffmanExact

namespace Blasthttp.H2.Hpack

open Blasthttp.Rust

set_option autoImplicit false

/-! ## Strings -/

/-- A string whose length moved is not read as itself. -/
theorem readString_harmful {data bytes : List UInt8} {huffman : Option Bool} {bloat : UInt8}
    {p : Nat} (front rest : List UInt8) (short : (stringPayload data huffman).length < 2 ^ 32)
    (harmful : ¬ HarmlessBloat (stringPayload data huffman) bloat)
    (read : readString (front ++ (writeString data huffman bloat ++ rest)) front.length =
      .ok (bytes, p)) : bytes ≠ data := by
  obtain ⟨padded, large⟩ := not_or.mp harmful
  rw [writeString_eq bloat short, List.append_assoc] at read
  obtain ⟨b, tail, length, newPos, here, integer, inside, -, raw⟩ := readString_ok read
  have other : length ≠ (stringPayload data huffman).length :=
    readInteger_padded front (stringPayload data huffman ++ rest) (by omega)
      (codingFlag_clear (useHuffman data huffman)) padded (by omega) integer
  obtain ⟨x, more, small, head⟩ := writeInteger_head (stringPayload data huffman).length 7
    (codingFlag (useHuffman data huffman)) bloat
  have flag := flag_byte (useHuffman data huffman) ⟨x, small⟩
  have first : b = codingFlag (useHuffman data huffman) ||| UInt8.ofNat x := by
    rw [List.drop_left, head, List.cons_append] at here
    exact (List.cons_eq_cons.mp here).1.symm
  have taken : ((((front ++ (writeInteger (stringPayload data huffman).length 7
      (codingFlag (useHuffman data huffman)) bloat ++ (stringPayload data huffman ++ rest))).drop
        newPos).take length)).length = length := by
    rw [List.length_take, List.length_drop]
    omega
  rintro rfl
  rcases raw with ⟨coded, decoded⟩ | ⟨plain, same⟩
  · -- the encoding of the string is the payload, and no other bytes decode to it
    rw [first, flag] at coded
    have encoded : stringPayload bytes huffman = Huffman.encode bytes := by
      simp [stringPayload, coded]
    rw [← Huffman.encode_of_decode decoded, ← encoded] at taken
    exact other taken.symm
  · have uncoded : useHuffman bytes huffman = false := by
      rw [first] at plain
      by_contra coded
      exact (flag.mpr (by simpa using coded)) plain
    have itself : stringPayload bytes huffman = bytes := by simp [stringPayload, uncoded]
    rw [← same] at taken
    rw [itself] at other
    exact other taken.symm

/-! ## Headers -/

/-- A name whose length moved is not read as itself. -/
theorem readName_harmful {h : Header} (harmful : ¬ h.NameHarmless) (short : h.Short) (d : Decoder)
    (front rest : List UInt8) {name : List UInt8} {p : Nat}
    (read : d.readName (front ++ (h.nameBytes ++ rest)) h.nameIndex front.length = .ok (name, p)) :
    name ≠ (decodedPair h).1 := by
  obtain ⟨forced, moves⟩ := Classical.not_imp.mp harmful
  have literal : h.nameIndex = 0 := by simp [Header.nameIndex, forced]
  have spelled : h.nameBytes = writeString h.name h.huffmanName h.lengthBloatName := by
    simp [Header.nameBytes, forced]
  have pair : (decodedPair h).1 = h.name := by simp [decodedPair, forced]
  unfold Decoder.readName at read
  rw [if_pos literal, spelled] at read
  rw [pair]
  exact readString_harmful front rest (short.1 forced) moves read

/-- A header with a length that moved is not read as its pair. -/
theorem readLiteral_harmful {h : Header} {bytes : List UInt8} (accepted : encodeOne h = .ok bytes)
    (harmful : ¬ h.Harmless) (short : h.Short) (d : Decoder) (front rest : List UInt8)
    {pair : DecodedHeader} {p : Nat}
    (read : d.readLiteral (front ++ (bytes ++ rest)) front.length h.indexing.prefixBits =
      .ok (pair, p)) : pair ≠ decodedPair h := by
  have index := readIndex_encodeOne accepted front rest
  unfold Decoder.readLiteral at read
  obtain ⟨⟨idx, q⟩, integer, read⟩ := bind_ok.mp read
  obtain ⟨⟨name, r⟩, named, read⟩ := bind_ok.mp read
  obtain ⟨⟨value, t⟩, valued, read⟩ := bind_ok.mp read
  cases read
  cases index.symm.trans integer
  have shape := (encodeOne_iff.mp accepted).2
  unfold Header.emitted at shape
  generalize writeInteger h.nameIndex h.indexing.prefixBits h.indexing.pattern 0 = first at *
  subst shape
  have regroup : front ++ (first ++ (h.nameBytes ++ writeString h.value h.huffmanValue
      h.lengthBloatValue) ++ rest) = (front ++ first) ++ (h.nameBytes ++
        (writeString h.value h.huffmanValue h.lengthBloatValue ++ rest)) := by simp
  rw [regroup, ← List.length_append] at named
  rw [regroup] at valued
  by_cases nameFine : h.NameHarmless
  · have valueHarmful : ¬ HarmlessBloat (stringPayload h.value h.huffmanValue) h.lengthBloatValue :=
      fun fine => harmful ⟨nameFine, fine⟩
    rw [readName_encodeOne accepted nameFine short d (front ++ first)] at named
    cases named
    rw [← List.append_assoc, ← List.length_append] at valued
    have other := readString_harmful _ rest short.2 valueHarmful valued
    exact fun same => other (congrArg Prod.snd same)
  · have other := readName_harmful nameFine short d (front ++ first) _ named
    exact fun same => other (congrArg Prod.fst same)

/-! ## Blocks -/

/-- What a run of the loop yields starts with what it had. -/
theorem decodeLoop_starts {block : List UInt8} {fuel : Nat} {d : Decoder} {pos : Nat}
    {out pairs : List DecodedHeader} (ended : (decodeLoop block fuel d pos out).2 = .ok pairs) :
    out <+: pairs := by
  rw [decodeLoop_out] at ended
  cases rest : (decodeLoop block fuel d pos []).2 with
  | error e =>
      rw [rest] at ended
      cases ended
  | ok later =>
      rw [rest] at ended
      cases ended
      exact List.prefix_append _ _

/-- The accepted headers of a list, one and the others. -/
theorem encodeHeaders_cons {h : Header} {headers : List Header} {bytes : List UInt8}
    (accepted : encodeHeaders (h :: headers) = .ok bytes) :
    ∃ head rest, encodeOne h = .ok head ∧ encodeHeaders headers = .ok rest ∧
      bytes = head ++ rest := by
  unfold encodeHeaders at accepted
  split at accepted
  · cases accepted
  · rename_i head first
    split at accepted
    · cases accepted
    · rename_i rest others
      cases accepted
      exact ⟨head, rest, first, others, rfl⟩

/-- The first header with a moved length spoils the block. -/
theorem decodeLoop_harmful :
    ∀ (headers : List Header) (bytes front : List UInt8) (fuel : Nat) (d : Decoder)
      (out : List DecodedHeader),
      encodeHeaders headers = .ok bytes → ¬ (∀ h ∈ headers, h.Harmless) →
      (∀ h ∈ headers, h.Short) → bytes.length ≤ fuel →
      (decodeLoop (front ++ bytes) fuel d front.length out).2 ≠ .ok (out ++ headers.map decodedPair)
  | [], _, _, _, _, _, _, harmful, _, _ => absurd (fun _ there => by cases there) harmful
  | h :: headers, bytes, front, fuel, d, out, accepted, harmful, short, enough => by
      obtain ⟨head, rest, first, others, rfl⟩ := encodeHeaders_cons accepted
      obtain ⟨x, tail, small, shape⟩ := encodeOne_head first
      have shortHere := short h List.mem_cons_self
      have shortLater : ∀ h ∈ headers, h.Short := fun h there => short h (List.mem_cons_of_mem _ there)
      rw [List.length_append, shape, List.length_cons] at enough
      obtain ⟨fuel, rfl⟩ : ∃ k, fuel = k + 1 := ⟨fuel - 1, by omega⟩
      have here : (front ++ (head ++ rest)).drop front.length =
          (h.indexing.pattern ||| UInt8.ofNat x) :: (tail ++ rest) := by
        rw [List.drop_left, shape, List.cons_append]
      rw [decodeLoop, here]
      simp only
      by_cases fine : h.Harmless
      · have later : ¬ ∀ h ∈ headers, h.Harmless := by
          intro all
          exact harmful (List.forall_mem_cons.mpr ⟨fine, all⟩)
        obtain ⟨b, more, again, step⟩ := readStep_encodeOne first fine shortHere d front rest
        obtain ⟨rfl, -⟩ := List.cons_eq_cons.mp (shape.symm.trans again)
        have next := decodeLoop_harmful headers rest (front ++ head) fuel
          (d.apply (h.indexing.step (decodedPair h))) (out ++ [decodedPair h]) others later shortLater
          (by omega)
        rw [List.length_append, List.append_assoc] at next
        simp only [step, Indexing.output_step]
        simpa using next
      · have read := readStep_pattern d (front ++ (head ++ rest)) front.length h.indexing small
        cases literal : d.readLiteral (front ++ (head ++ rest)) front.length
            h.indexing.prefixBits with
        | error e =>
            rw [literal] at read
            simp only [read, Except.map]
            intro ended
            cases ended
        | ok r =>
            rw [literal] at read
            simp only [read, Except.map, Indexing.output_step]
            intro ended
            have other : r.1 ≠ decodedPair h :=
              readLiteral_harmful first fine shortHere d front rest literal
            obtain ⟨later, whole⟩ := decodeLoop_starts ended
            rw [List.append_assoc, List.map_cons] at whole
            exact other (List.cons_eq_cons.mp (List.append_cancel_left whole)).1

/-! ## Padded and plain blocks -/

/-- A header with both knobs at 0. -/
def Header.plain (h : Header) : Header := { h with lengthBloatName := 0, lengthBloatValue := 0 }

theorem writeString_length_bloat (data : List UInt8) (huffman : Option Bool) (bloat : UInt8) :
    (writeString data huffman 0).length ≤ (writeString data huffman bloat).length := by
  rw [writeString_length, writeString_length]
  exact Nat.add_le_add_right (writeInteger_length_bloat _ _ _ bloat) _

theorem Header.nameBytes_plain (h : Header) : h.plain.nameBytes.length ≤ h.nameBytes.length := by
  cases forced : h.forceStaticIndex with
  | none =>
      have plain : h.plain.nameBytes = writeString h.name h.huffmanName 0 := by
        simp [Header.nameBytes, Header.plain, forced]
      have padded : h.nameBytes = writeString h.name h.huffmanName h.lengthBloatName := by
        simp [Header.nameBytes, forced]
      rw [plain, padded]
      exact writeString_length_bloat h.name h.huffmanName h.lengthBloatName
  | some idx => simp [Header.nameBytes, Header.plain, forced]

/-- A header that is accepted padded is accepted plain, and no longer. -/
theorem encodeOne_plain {h : Header} {bytes : List UInt8} (accepted : encodeOne h = .ok bytes) :
    ∃ plain, encodeOne h.plain = .ok plain ∧ plain.length ≤ bytes.length := by
  obtain ⟨checked, rfl⟩ := encodeOne_iff.mp accepted
  have plain : h.plain.Accepted :=
    { named := checked.named
      bloatName := show (0 : UInt8) ≤ 3 by decide
      bloatValue := show (0 : UInt8) ≤ 3 by decide
      validName := checked.validName
      validValue := checked.validValue
      range := checked.range }
  refine ⟨h.plain.emitted, encodeOne_iff.mpr ⟨plain, rfl⟩, ?_⟩
  have name := h.nameBytes_plain
  have value := writeString_length_bloat h.value h.huffmanValue h.lengthBloatValue
  change (writeInteger h.nameIndex h.indexing.prefixBits h.indexing.pattern 0 ++
    (h.plain.nameBytes ++ writeString h.value h.huffmanValue 0)).length ≤ _
  rw [Header.emitted]
  simp only [List.length_append]
  omega

theorem encodeHeaders_plain :
    ∀ (headers : List Header) {block : List UInt8}, encodeHeaders headers = .ok block →
      ∃ plain, encodeHeaders (headers.map Header.plain) = .ok plain ∧ plain.length ≤ block.length
  | [], block, accepted => ⟨[], rfl, Nat.zero_le _⟩
  | h :: headers, block, accepted => by
      obtain ⟨head, rest, first, others, rfl⟩ := encodeHeaders_cons accepted
      obtain ⟨head', first', shorter⟩ := encodeOne_plain first
      obtain ⟨rest', others', shorter'⟩ := encodeHeaders_plain headers others
      refine ⟨head' ++ rest', ?_, ?_⟩
      · simp only [List.map_cons, encodeHeaders, first', others']
      · rw [List.length_append, List.length_append]
        omega

/-- A plain list decodes to the pairs of the padded one. -/
theorem decodeHeaders_plain {headers : List Header} {plain : List UInt8}
    (accepted : encodeHeaders (headers.map Header.plain) = .ok plain)
    (short : ∀ h ∈ headers, h.Short) (d : Decoder) :
    (d.decodeHeaders plain).2 = .ok (headers.map decodedPair) := by
  have same : (headers.map Header.plain).map decodedPair = headers.map decodedPair := by
    rw [List.map_map]
    rfl
  rw [← same]
  apply decodeHeaders_harmless accepted
  · intro h there
    obtain ⟨padded, -, rfl⟩ := List.mem_map.mp there
    exact Header.harmless_of_plain ⟨rfl, rfl⟩
  · intro h there
    obtain ⟨padded, held, rfl⟩ := List.mem_map.mp there
    exact short padded held

/-- Block by block: the padded form decodes as the plain one exactly when no padding
moves a length. -/
theorem decodeHeaders_bloat_iff {headers : List Header} {block plain : List UInt8}
    (accepted : encodeHeaders headers = .ok block)
    (acceptedPlain : encodeHeaders (headers.map Header.plain) = .ok plain)
    (short : ∀ h ∈ headers, h.Short) (d : Decoder) :
    (∃ pairs, (d.decodeHeaders block).2 = .ok pairs ∧ (d.decodeHeaders plain).2 = .ok pairs) ↔
      ∀ h ∈ headers, h.Harmless := by
  rw [decodeHeaders_plain acceptedPlain short d]
  constructor
  · rintro ⟨pairs, decoded, same⟩
    cases same
    by_contra harmful
    have spoiled := decodeLoop_harmful headers block [] block.length d [] accepted harmful short
      le_rfl
    rw [List.nil_append, List.nil_append, List.length_nil] at spoiled
    exact spoiled decoded
  · intro harmless
    exact ⟨_, decodeHeaders_harmless accepted harmless short d, rfl⟩

/-- **Where padding changes nothing.** A padded block is no shorter than the plain one,
and decodes to the same pairs exactly when every string that is padded has at most 127
bytes.  An integer is read back as written exactly when it is not padded or at most the
maximum of its first part. -/
theorem lengthBloat_iff (headers : List Header) (block : List UInt8) (d : Decoder)
    (accepted : encodeHeaders headers = .ok block) (short : ∀ h ∈ headers, h.Short) :
    (∃ plain, encodeHeaders (headers.map Header.plain) = .ok plain ∧ plain.length ≤ block.length ∧
      ((∃ pairs, (d.decodeHeaders block).2 = .ok pairs ∧ (d.decodeHeaders plain).2 = .ok pairs) ↔
        ∀ h ∈ headers, h.Harmless)) ∧
    (∀ (v n : Nat) (pattern bloat : UInt8) (front rest : List UInt8), v < 2 ^ 32 → n ≤ 8 →
      pattern.toNat % 2 ^ n = 0 → (writeInteger v n pattern bloat).length ≤ 6 →
      (readInteger (front ++ (writeInteger v n pattern bloat ++ rest)) front.length n =
          .ok (v, front.length + (writeInteger v n pattern bloat).length) ↔
        bloat = 0 ∨ v ≤ 2 ^ n - 1)) := by
  constructor
  · obtain ⟨plain, acceptedPlain, shorter⟩ := encodeHeaders_plain headers accepted
    exact ⟨plain, acceptedPlain, shorter, decodeHeaders_bloat_iff accepted acceptedPlain short d⟩
  · intro v n pattern bloat front rest word width clear admissible
    rw [readInteger_writeInteger_iff front rest width clear word admissible]
    have pos : 0 < 2 ^ n := Nat.two_pow_pos n
    exact or_congr_right (by omega)

/-- A value of `length` bytes, padded by one byte. -/
def paddedHeader (length : Nat) : Header :=
  { Header.new [120] (List.replicate length 97) with
    huffmanName := some false
    huffmanValue := some false
    lengthBloatValue := 1 }

theorem paddedHeader_payload (length : Nat) :
    (stringPayload (paddedHeader length).value (paddedHeader length).huffmanValue).length =
      length := by
  simp [paddedHeader, Header.new, stringPayload, useHuffman]

/-- 127 bytes are the longest value that may be padded. -/
theorem lengthBloat_iff_127 :
    ∃ block plain pairs, encodeHeaders [paddedHeader 127] = .ok block ∧
      encodeHeaders [(paddedHeader 127).plain] = .ok plain ∧
      ((Decoder.withMaxTableSize 4096).decodeHeaders block).2 = .ok pairs ∧
      ((Decoder.withMaxTableSize 4096).decodeHeaders plain).2 = .ok pairs := by
  have payload := paddedHeader_payload 127
  have short : (paddedHeader 127).Short := ⟨fun _ => by decide, by omega⟩
  have harmless : (paddedHeader 127).Harmless := ⟨fun _ => .inl rfl, .inr (by omega)⟩
  obtain ⟨plain, accepted, -, same⟩ := (lengthBloat_iff [paddedHeader 127] _
    (.withMaxTableSize 4096) rfl (List.forall_mem_singleton.mpr short)).1
  obtain ⟨pairs, both⟩ := same.mpr (List.forall_mem_singleton.mpr harmless)
  exact ⟨_, plain, pairs, rfl, accepted, both⟩

/-- The length of one byte more is read as 255, which is more than there is. -/
theorem paddedHeader_spoiled :
    readInteger (writeInteger 128 7 0x00 1) 0 7 = .ok (255, 3) ∧
      ∃ block plain, encodeHeaders [paddedHeader 128] = .ok block ∧
        encodeHeaders [(paddedHeader 128).plain] = .ok plain ∧
        ((Decoder.withMaxTableSize 4096).decodeHeaders block).2 = .error (.unexpectedEof 261) ∧
        ((Decoder.withMaxTableSize 4096).decodeHeaders plain).2 =
          .ok [([120], List.replicate 128 97)] := by
  refine ⟨rfl, _, _, rfl, rfl, ?_, ?_⟩
  · decide +kernel
  · decide +kernel

end Blasthttp.H2.Hpack
