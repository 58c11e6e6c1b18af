/-
# Blasthttp.H2.HpackRoundTrip -- decoding an encoded header list gives it back

Bottom up: the string literal, one header, the whole block.  Each lemma reads a piece
where it was written, in front of anything and behind anything, so the next one only
has to concatenate.  The decoder's table plays no part: the encoder refers to the
static table only.  Padding is let through where it leaves the lengths as they are
(`Header.Harmless`).
-/
import Blasthttp.H2.HpackLength
import Blasthttp.H2.HpackPadding

namespace Blasthttp.H2.Hpack

set_option autoImplicit false

/-! ## Strings -/

/-- The first byte's flag, by coding. -/
def codingFlag (coded : Bool) : UInt8 := if coded then 0x80 else 0x00

/-- The Huffman flag survives the length in the same byte. -/
theorem flag_byte : ∀ (coded : Bool) (x : Fin 128),
    ((codingFlag coded ||| UInt8.ofNat x.val) &&& 0x80 ≠ 0) = (coded = true) := by
  decide +kernel

theorem codingFlag_clear (coded : Bool) : (codingFlag coded).toNat % 2 ^ 7 = 0 := by
  cases coded <;> rfl

/-- Padding that a string's length survives: none, or on a length of at most 127. -/
def HarmlessBloat (payload : List UInt8) (bloat : UInt8) : Prop :=
  bloat = 0 ∨ payload.length < 2 ^ 7

theorem readInteger_harmless {payload : List UInt8} {bloat : UInt8} (front rest : List UInt8)
    (coded : Bool) (short : payload.length < 2 ^ 32) (allowed : bloat ≤ 3)
    (harmless : HarmlessBloat payload bloat) :
    readInteger (front ++ (writeInteger payload.length 7 (codingFlag coded) bloat ++ rest))
        front.length 7 =
      .ok (payload.length,
        front.length + (writeInteger payload.length 7 (codingFlag coded) bloat).length) := by
  apply readInteger_writeInteger front rest (by omega) (codingFlag_clear coded) short
  refine harmless.imp_right fun small => ⟨small, ?_⟩
  have few : bloat.toNat ≤ 3 := allowed
  rw [writeInteger_length]
  split
  · omega
  · have one : payload.length - (2 ^ 7 - 1) = 0 := by omega
    rw [one, writeTail, List.length_singleton]
    omega

/-- Reading a string literal whose payload stands behind its length. -/
theorem readString_payload (front payload rest : List UInt8) (coded : Bool) {bloat : UInt8}
    (short : payload.length < 2 ^ 32) (allowed : bloat ≤ 3)
    (harmless : HarmlessBloat payload bloat) :
    readString
        (front ++ (writeInteger payload.length 7 (codingFlag coded) bloat ++ (payload ++ rest)))
        front.length =
      if coded then
        match Huffman.decode payload with
        | .error e => .error (.huffman e)
        | .ok bytes =>
            .ok (bytes, front.length +
              (writeInteger payload.length 7 (codingFlag coded) bloat ++ payload).length)
      else
        .ok (payload, front.length +
          (writeInteger payload.length 7 (codingFlag coded) bloat ++ payload).length) := by
  have length := readInteger_harmless front (payload ++ rest) coded short allowed harmless
  obtain ⟨x, tail, small, head⟩ := writeInteger_head payload.length 7 (codingFlag coded) bloat
  have flag := flag_byte coded ⟨x, small⟩
  have raw : ((front ++ (writeInteger payload.length 7 (codingFlag coded) bloat ++
      (payload ++ rest))).drop (front.length +
        (writeInteger payload.length 7 (codingFlag coded) bloat).length)).take payload.length =
      payload := by
    rw [← List.append_assoc, ← List.length_append, List.drop_left, List.take_left]
  rw [head] at length raw ⊢
  rw [List.cons_append] at length raw ⊢
  simp only [readString, List.drop_left, length, raw, flag]
  rw [if_neg (by simp; omega)]
  cases coded with
  | true => cases Huffman.decode payload <;> simp [Nat.add_assoc, Nat.add_comm, Nat.add_left_comm]
  | false => simp [Nat.add_assoc, Nat.add_comm, Nat.add_left_comm]

theorem writeString_eq {data : List UInt8} {huffman : Option Bool} (bloat : UInt8)
    (short : (stringPayload data huffman).length < 2 ^ 32) :
    writeString data huffman bloat =
      writeInteger (stringPayload data huffman).length 7 (codingFlag (useHuffman data huffman))
        bloat ++ stringPayload data huffman := by
  rw [writeString, Nat.mod_eq_of_lt short]
  rfl

theorem readString_writeString {data : List UInt8} {huffman : Option Bool} {bloat : UInt8}
    (front rest : List UInt8) (short : (stringPayload data huffman).length < 2 ^ 32)
    (allowed : bloat ≤ 3) (harmless : HarmlessBloat (stringPayload data huffman) bloat) :
    readString (front ++ (writeString data huffman bloat ++ rest)) front.length =
      .ok (data, front.length + (writeString data huffman bloat).length) := by
  have read := readString_payload front (stringPayload data huffman) rest
    (useHuffman data huffman) short allowed harmless
  rw [writeString_eq bloat short, List.append_assoc, read]
  cases coded : useHuffman data huffman with
  | true =>
      have payload : stringPayload data huffman = Huffman.encode data := by
        simp [stringPayload, coded]
      rw [payload, Huffman.decode_encode]
      rfl
  | false =>
      have payload : stringPayload data huffman = data := by simp [stringPayload, coded]
      rw [payload]
      rfl

/-! ## Headers -/

/-- The pair a header stands for: its own name unless a static name was forced. -/
def decodedPair (h : Header) : DecodedHeader :=
  (match h.forceStaticIndex with
    | some idx => (staticTable.getD (idx.toNat - 1) ([], [])).1
    | none => h.name, h.value)

/-- The strings a header emits are short enough for a 32-bit length. -/
def Header.Short (h : Header) : Prop :=
  (h.forceStaticIndex = none → (stringPayload h.name h.huffmanName).length < 2 ^ 32) ∧
    (stringPayload h.value h.huffmanValue).length < 2 ^ 32

/-- The padding of a name that is spelled out. -/
def Header.NameHarmless (h : Header) : Prop :=
  h.forceStaticIndex = none → HarmlessBloat (stringPayload h.name h.huffmanName) h.lengthBloatName

/-- No padding of a header changes a length. -/
def Header.Harmless (h : Header) : Prop :=
  h.NameHarmless ∧ HarmlessBloat (stringPayload h.value h.huffmanValue) h.lengthBloatValue

theorem Header.harmless_of_plain {h : Header}
    (plain : h.lengthBloatName = 0 ∧ h.lengthBloatValue = 0) : h.Harmless :=
  ⟨fun _ => .inl plain.1, .inl plain.2⟩

/-- The instruction a literal in each indexing mode decodes to. -/
def Indexing.step : Indexing → DecodedHeader → Step
  | .with, h => .insert h
  | .without, h => .emit h
  | .never, h => .emit h

theorem Indexing.output_step (mode : Indexing) (h : DecodedHeader) : (mode.step h).output = [h] := by
  cases mode <;> rfl

theorem pattern_clear (mode : Indexing) :
    mode.prefixBits ≤ 8 ∧ mode.pattern.toNat % 2 ^ mode.prefixBits = 0 := by
  cases mode <;> decide

/-- The first byte of a literal selects the branch of its indexing mode. -/
theorem readStep_pattern (d : Decoder) (block : List UInt8) (pos : Nat) (mode : Indexing) {x : Nat}
    (small : x < 2 ^ mode.prefixBits) :
    d.readStep block pos (mode.pattern ||| UInt8.ofNat x) =
      (d.readLiteral block pos mode.prefixBits).map fun r => (mode.step r.1, r.2) := by
  have wide : ∀ x : Fin 64, (0x40 ||| UInt8.ofNat x.val) &&& 0x80 = 0 ∧
      (0x40 ||| UInt8.ofNat x.val) &&& 0xC0 = 0x40 := by decide +kernel
  have without : ∀ x : Fin 16, (0x00 ||| UInt8.ofNat x.val) &&& 0x80 = 0 ∧
      (0x00 ||| UInt8.ofNat x.val) &&& 0xC0 ≠ 0x40 ∧
      (0x00 ||| UInt8.ofNat x.val) &&& 0xE0 ≠ 0x20 := by decide +kernel
  have never : ∀ x : Fin 16, (0x10 ||| UInt8.ofNat x.val) &&& 0x80 = 0 ∧
      (0x10 ||| UInt8.ofNat x.val) &&& 0xC0 ≠ 0x40 ∧
      (0x10 ||| UInt8.ofNat x.val) &&& 0xE0 ≠ 0x20 := by decide +kernel
  cases mode with
  | «with» =>
      obtain ⟨top, sel⟩ := wide ⟨x, small⟩
      simp only at top sel
      simp only [Decoder.readStep, Indexing.pattern, Indexing.prefixBits, top, sel, ne_eq, not_true_eq_false, if_false,
        if_true]
      cases d.readLiteral block pos 6 <;> rfl
  | without =>
      obtain ⟨top, sel, upd⟩ := without ⟨x, small⟩
      simp only at top sel upd
      simp only [Decoder.readStep, Indexing.pattern, Indexing.prefixBits, top, sel, upd, ne_eq, not_true_eq_false,
        if_false]
      cases d.readLiteral block pos 4 <;> rfl
  | never =>
      obtain ⟨top, sel, upd⟩ := never ⟨x, small⟩
      simp only at top sel upd
      simp only [Decoder.readStep, Indexing.pattern, Indexing.prefixBits, top, sel, upd, ne_eq, not_true_eq_false,
        if_false]
      cases d.readLiteral block pos 4 <;> rfl

/-- The name index that a header is written with, 0 for a name spelled out. -/
def Header.nameIndex (h : Header) : Nat :=
  match h.forceStaticIndex with
  | some idx => idx.toNat
  | none => 0

/-- The bytes between the index and the value. -/
def Header.nameBytes (h : Header) : List UInt8 :=
  match h.forceStaticIndex with
  | some _ => []
  | none => writeString h.name h.huffmanName h.lengthBloatName

/-- What a header emits, once it is accepted. -/
def Header.emitted (h : Header) : List UInt8 :=
  writeInteger h.nameIndex h.indexing.prefixBits h.indexing.pattern 0 ++
    (h.nameBytes ++ writeString h.value h.huffmanValue h.lengthBloatValue)

theorem Header.emitted_forced {h : Header} {idx : UInt8} (forced : h.forceStaticIndex = some idx) :
    h.emitted = writeInteger idx.toNat h.indexing.prefixBits h.indexing.pattern 0 ++
      writeString h.value h.huffmanValue h.lengthBloatValue := by
  simp [Header.emitted, Header.nameIndex, Header.nameBytes, forced]

theorem Header.emitted_literal {h : Header} (forced : h.forceStaticIndex = none) :
    h.emitted = writeInteger 0 h.indexing.prefixBits h.indexing.pattern 0 ++
      (writeString h.name h.huffmanName h.lengthBloatName ++
        writeString h.value h.huffmanValue h.lengthBloatValue) := by
  simp [Header.emitted, Header.nameIndex, Header.nameBytes, forced]

/-- The checks of `encode_one`. -/
structure Header.Accepted (h : Header) : Prop where
  named : ¬(h.name.isEmpty ∧ h.forceStaticIndex.isNone)
  bloatName : h.lengthBloatName ≤ 3
  bloatValue : h.lengthBloatValue ≤ 3
  validName : ¬(!h.allowInvalidName ∧ h.forceStaticIndex.isNone ∧ !isNameValid h.name)
  validValue : ¬(!h.allowInvalidValue ∧ !isValueValid h.value)
  range : ∀ idx, h.forceStaticIndex = some idx → 1 ≤ idx ∧ idx ≤ 61

theorem encodeOne_iff {h : Header} {bytes : List UInt8} :
    encodeOne h = .ok bytes ↔ h.Accepted ∧ bytes = h.emitted := by
  constructor
  · intro encoded
    -- the five checks in the order of the source
    unfold encodeOne at encoded
    split at encoded
    · cases encoded
    rename_i named
    split at encoded
    · cases encoded
    rename_i bloatName
    split at encoded
    · cases encoded
    rename_i bloatValue
    split at encoded
    · cases encoded
    rename_i validName
    split at encoded
    · cases encoded
    rename_i validValue
    have low := UInt8.not_lt.mp bloatName
    have low' := UInt8.not_lt.mp bloatValue
    simp only at encoded
    split at encoded
    · rename_i idx forced
      split at encoded
      · rename_i range
        cases encoded
        refine ⟨⟨named, low, low', validName, validValue, ?_⟩, (Header.emitted_forced forced).symm⟩
        intro other same
        rw [forced] at same
        cases same
        exact range
      · cases encoded
    · rename_i forced
      cases encoded
      refine ⟨⟨named, low, low', validName, validValue, ?_⟩, (Header.emitted_literal forced).symm⟩
      intro idx some
      rw [forced] at some
      cases some
  · rintro ⟨⟨named, bloatName, bloatValue, validName, validValue, range⟩, rfl⟩
    unfold encodeOne
    rw [if_neg named, if_neg (UInt8.not_lt.mpr bloatName), if_neg (UInt8.not_lt.mpr bloatValue),
      if_neg validName, if_neg validValue]
    cases forced : h.forceStaticIndex with
    | none => exact congrArg Except.ok (Header.emitted_literal forced).symm
    | some idx =>
        simp only [if_pos (range idx forced)]
        exact congrArg Except.ok (Header.emitted_forced forced).symm

theorem Header.Accepted.index {h : Header} (accepted : h.Accepted) :
    (h.forceStaticIndex ≠ none → 1 ≤ h.nameIndex) ∧ h.nameIndex ≤ 61 := by
  unfold Header.nameIndex
  cases forced : h.forceStaticIndex with
  | none => exact ⟨fun some => absurd rfl some, Nat.zero_le 61⟩
  | some idx => exact ⟨fun _ => (accepted.range idx forced).1, (accepted.range idx forced).2⟩

/-- The index of a header is read where it was written. -/
theorem readIndex_encodeOne {h : Header} {bytes : List UInt8} (accepted : encodeOne h = .ok bytes)
    (front rest : List UInt8) :
    readInteger (front ++ (bytes ++ rest)) front.length h.indexing.prefixBits =
      .ok (h.nameIndex, front.length +
        (writeInteger h.nameIndex h.indexing.prefixBits h.indexing.pattern 0).length) := by
  obtain ⟨width, clear⟩ := pattern_clear h.indexing
  obtain ⟨checked, rfl⟩ := encodeOne_iff.mp accepted
  have small := checked.index.2
  rw [Header.emitted, List.append_assoc]
  exact readInteger_writeInteger front _ width clear (by omega) (.inl rfl)

/-- The name of a header is read where it was written. -/
theorem readName_encodeOne {h : Header} {bytes : List UInt8} (accepted : encodeOne h = .ok bytes)
    (harmless : h.NameHarmless) (short : h.Short) (d : Decoder) (front rest : List UInt8) :
    d.readName (front ++ (h.nameBytes ++ rest)) h.nameIndex front.length =
      .ok ((decodedPair h).1, front.length + h.nameBytes.length) := by
  obtain ⟨checked, -⟩ := encodeOne_iff.mp accepted
  obtain ⟨positive, small⟩ := checked.index
  unfold Decoder.readName
  cases forced : h.forceStaticIndex with
  | none =>
      have literal : h.nameIndex = 0 := by simp [Header.nameIndex, forced]
      have spelled : h.nameBytes = writeString h.name h.huffmanName h.lengthBloatName := by
        simp [Header.nameBytes, forced]
      rw [if_pos literal, spelled, readString_writeString front rest (short.1 forced)
        checked.bloatName (harmless forced)]
      simp [decodedPair, forced]
  | some idx =>
      have named : h.nameIndex = idx.toNat := by simp [Header.nameIndex, forced]
      have nothing : h.nameBytes = [] := by simp [Header.nameBytes, forced]
      have index := positive (by simp [forced])
      have found : d.lookupIndex h.nameIndex = .ok (staticTable.getD (h.nameIndex - 1) ([], [])) := by
        rw [Decoder.lookupIndex, if_neg (by omega),
          if_pos (show h.nameIndex ≤ staticTable.length from small)]
      rw [if_neg (by omega), found, nothing, named]
      simp [decodedPair, forced, bind, Except.bind, pure, Except.pure]

theorem readLiteral_encodeOne {h : Header} {bytes : List UInt8} (accepted : encodeOne h = .ok bytes)
    (harmless : h.Harmless) (short : h.Short) (d : Decoder) (front rest : List UInt8) :
    d.readLiteral (front ++ (bytes ++ rest)) front.length h.indexing.prefixBits =
      .ok (decodedPair h, front.length + bytes.length) := by
  have index := readIndex_encodeOne accepted front rest
  obtain ⟨checked, rfl⟩ := encodeOne_iff.mp accepted
  unfold Header.emitted at index accepted ⊢
  generalize writeInteger h.nameIndex h.indexing.prefixBits h.indexing.pattern 0 = first at index ⊢
  have name := readName_encodeOne accepted harmless.1 short d (front ++ first)
    (writeString h.value h.huffmanValue h.lengthBloatValue ++ rest)
  have value := readString_writeString (front ++ first ++ h.nameBytes) rest short.2
    checked.bloatValue harmless.2
  simp only [List.append_assoc, List.length_append] at index name value ⊢
  simp only [Decoder.readLiteral, bind, Except.bind, index, name, Nat.add_assoc] at value ⊢
  rw [value]
  rfl

/-- The first byte of a header: its pattern, with the start of the index filled in. -/
theorem encodeOne_head {h : Header} {bytes : List UInt8} (accepted : encodeOne h = .ok bytes) :
    ∃ x tail, x < 2 ^ h.indexing.prefixBits ∧
      bytes = (h.indexing.pattern ||| UInt8.ofNat x) :: tail := by
  obtain ⟨-, rfl⟩ := encodeOne_iff.mp accepted
  obtain ⟨x, tail, small, head⟩ :=
    writeInteger_head h.nameIndex h.indexing.prefixBits h.indexing.pattern 0
  exact ⟨x, _, small, by rw [Header.emitted, head, List.cons_append]⟩

/-- One header read where it was written: its instruction yields its pair. -/
theorem readStep_encodeOne {h : Header} {bytes : List UInt8} (accepted : encodeOne h = .ok bytes)
    (harmless : h.Harmless) (short : h.Short) (d : Decoder) (front rest : List UInt8) :
    ∃ b tail, bytes = b :: tail ∧
      d.readStep (front ++ (bytes ++ rest)) front.length b =
        .ok (h.indexing.step (decodedPair h), front.length + bytes.length) := by
  have literal := readLiteral_encodeOne accepted harmless short d front rest
  obtain ⟨x, tail, small, head⟩ := encodeOne_head accepted
  refine ⟨_, tail, head, ?_⟩
  rw [readStep_pattern d _ _ _ small, literal]
  rfl

/-! ## Blocks -/

theorem decodeLoop_encodeHeaders :
    ∀ (headers : List Header) (bytes front : List UInt8) (fuel : Nat) (d : Decoder)
      (out : List DecodedHeader),
      encodeHeaders headers = .ok bytes →
      (∀ h ∈ headers, h.Harmless) → (∀ h ∈ headers, h.Short) → bytes.length ≤ fuel →
      (decodeLoop (front ++ bytes) fuel d front.length out).2 =
        .ok (out ++ headers.map decodedPair)
  | [], bytes, front, fuel, d, out, accepted, _, _, _ => by
      cases accepted
      cases fuel <;> simp [decodeLoop]
  | h :: headers, bytes, front, fuel, d, out, accepted, harmless, short, enough => by
      cases first : encodeOne h with
      | error e => simp [encodeHeaders, first] at accepted
      | ok head =>
          cases others : encodeHeaders headers with
          | error e => simp [encodeHeaders, first, others] at accepted
          | ok rest =>
              simp only [encodeHeaders, first, others, Except.ok.injEq] at accepted
              subst accepted
              obtain ⟨b, tail, shape, step⟩ := readStep_encodeOne first
                (harmless h List.mem_cons_self) (short h List.mem_cons_self) d front rest
              have next := decodeLoop_encodeHeaders headers rest (front ++ head) (fuel - 1)
                (d.apply (h.indexing.step (decodedPair h))) (out ++ [decodedPair h]) others
                (fun h hh => harmless h (List.mem_cons_of_mem _ hh))
                (fun h hh => short h (List.mem_cons_of_mem _ hh))
                (by rw [List.length_append, shape, List.length_cons] at enough; omega)
              obtain ⟨fuel, rfl⟩ : ∃ k, fuel = k + 1 := by
                refine ⟨fuel - 1, ?_⟩
                rw [List.length_append, shape, List.length_cons] at enough
                omega
              rw [List.length_append, List.append_assoc, Nat.add_sub_cancel] at next
              have here : (front ++ (head ++ rest)).drop front.length = b :: (tail ++ rest) := by
                rw [List.drop_left, shape, List.cons_append]
              simp only [decodeLoop, here, step, Indexing.output_step, next]
              simp

/-- Every accepted header list with no padding that changes a length decodes, from any
decoder state, to its (name, value) pairs in order. -/
theorem decodeHeaders_harmless {headers : List Header} {block : List UInt8}
    (accepted : encodeHeaders headers = .ok block) (harmless : ∀ h ∈ headers, h.Harmless)
    (short : ∀ h ∈ headers, h.Short) (d : Decoder) :
    (d.decodeHeaders block).2 = .ok (headers.map decodedPair) := by
  have loop := decodeLoop_encodeHeaders headers block [] block.length d [] accepted harmless short
    le_rfl
  rw [List.nil_append, List.nil_append, List.length_nil] at loop
  exact loop

/-- **Round trip.** Every accepted header list without length bloat decodes, from
any decoder state, to its (name, value) pairs in order. -/
theorem decodeHeaders_encodeHeaders {headers : List Header} {block : List UInt8}
    (accepted : encodeHeaders headers = .ok block)
    (plain : ∀ h ∈ headers, h.lengthBloatName = 0 ∧ h.lengthBloatValue = 0)
    (short : ∀ h ∈ headers, h.Short) (d : Decoder) :
    (d.decodeHeaders block).2 = .ok (headers.map decodedPair) :=
  decodeHeaders_harmless accepted (fun h there => Header.harmless_of_plain (plain h there)) short d

/-- A spelled-out pseudo header for the table and a never-indexed one whose name is
static entry 23. -/
theorem decodeHeaders_encodeHeaders_post :
    ((Decoder.withMaxTableSize 4096).decodeHeaders
      [0x40, 7, 58, 109, 101, 116, 104, 111, 100, 4, 80, 79, 83, 84, 0x1f, 8, 2, 104, 105]).2 =
      .ok [(ascii ":method", ascii "POST"), (ascii "authorization", ascii "hi")] :=
  @decodeHeaders_encodeHeaders
    [{ Header.new (ascii ":method") (ascii "POST") with
       huffmanName := some false
       huffmanValue := some false },
     { Header.new [] (ascii "hi") with
       indexing := .never
       huffmanValue := some false
       forceStaticIndex := some 23 }]
    _ (by decide) (by decide) (by unfold Header.Short; decide) _

end Blasthttp.H2.Hpack
