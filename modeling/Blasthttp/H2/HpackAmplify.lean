/-
# Blasthttp.H2.HpackAmplify -- how much a small block can decode to

An index is a byte or two and yields a whole entry, and Huffman coding packs eight fifths
of its bytes; nothing else grows.  The dynamic table never holds more than the limit the
decoder was made with, so a block yields at most that much, or the longest static entry,
for each of its instructions (`decodeHeaders_bounded`).
-/
import Blasthttp.H2.HpackAppend
import Blasthttp.H2.HpackUpdates
import Blasthttp.H2.HpackHistory

namespace Blasthttp.H2.Hpack

open Blasthttp.Rust Blasthttp.Lib.Fifo

set_option autoImplicit false

/-- The bytes of a decoded field. -/
def fieldBytes (h : DecodedHeader) : Nat := h.1.length + h.2.length

def totalBytes (fields : List DecodedHeader) : Nat := (fields.map fieldBytes).sum

/-- What an index can yield under a limit on the table. -/
def entryCap (limit : Nat) : Nat := max 28 (limit - 32)

theorem staticTable_bytes : ∀ h ∈ staticTable, fieldBytes h ≤ 28 := by
  decide +kernel

/-! ## One instruction -/

/-- The decoder of a connection with this limit. -/
structure Within (limit : Nat) (d : Decoder) : Prop where
  represents : ∃ past, Represents d past
  le : d.maxTableSize ≤ limit

theorem lookupIndex_bytes {limit : Nat} {d : Decoder} (within : Within limit d) {idx : Nat}
    {h : DecodedHeader} (found : d.lookupIndex idx = .ok h) : fieldBytes h ≤ entryCap limit := by
  obtain ⟨⟨past, rep⟩, le⟩ := within
  unfold Decoder.lookupIndex at found
  split at found
  · cases found
  · split at found
    · rename_i inside
      cases found
      have there : idx - 1 < staticTable.length := by omega
      have small := staticTable_bytes _ (List.getElem_mem there)
      rw [List.getD_eq_getElem _ _ there]
      exact small.trans (Nat.le_max_left _ _)
    · split at found
      · rename_i stored
        cases found
        have one := weight_mem_le fieldSize (List.mem_of_getElem? stored)
        have all := rep.size_le
        rw [rep.size] at all
        have size : fieldSize h = fieldBytes h + 32 := rfl
        have cap : limit - 32 ≤ entryCap limit := Nat.le_max_right _ _
        omega
      · cases found

/-! The bytes an instruction is read from lie inside the block. -/

theorem readInteger_inside {buf : List UInt8} {pos n : Nat} {r : Nat × Nat}
    (read : readInteger buf pos n = .ok r) : r.2 ≤ buf.length := by
  unfold readInteger at read
  split at read
  · cases read
  · rename_i b rest here
    have length : (buf.drop pos).length = rest.length + 1 := by rw [here, List.length_cons]
    rw [List.length_drop] at length
    simp only at read
    split at read
    · cases read
      simp only
      omega
    · have later := readContinuation_inside _ _ _ _ read
      omega

theorem readString_inside {buf : List UInt8} {pos : Nat} {r : List UInt8 × Nat}
    (read : readString buf pos = .ok r) : r.2 ≤ buf.length := by
  obtain ⟨b, tail, length, newPos, -, -, inside, ends, -⟩ := readString_ok read
  rw [ends]
  exact inside

theorem readLiteral_inside {d : Decoder} {block : List UInt8} {pos n : Nat}
    {r : DecodedHeader × Nat} (read : d.readLiteral block pos n = .ok r) :
    r.2 ≤ block.length := by
  unfold Decoder.readLiteral at read
  obtain ⟨⟨idx, p⟩, -, read⟩ := bind_ok.mp read
  obtain ⟨⟨name, q⟩, -, read⟩ := bind_ok.mp read
  obtain ⟨⟨value, s⟩, valued, read⟩ := bind_ok.mp read
  cases read
  have inside := readString_inside valued
  exact inside

theorem readStep_inside {d : Decoder} {block : List UInt8} {pos pos' : Nat} {b : UInt8}
    {step : Step} (read : d.readStep block pos b = .ok (step, pos')) : pos' ≤ block.length := by
  unfold Decoder.readStep at read
  split at read
  · obtain ⟨⟨idx, p⟩, integer, read⟩ := bind_ok.mp read
    obtain ⟨h, -, read⟩ := bind_ok.mp read
    cases read
    exact readInteger_inside integer
  · split at read
    · obtain ⟨⟨h, p⟩, literal, read⟩ := bind_ok.mp read
      cases read
      exact readLiteral_inside literal
    · split at read
      · obtain ⟨⟨size, p⟩, integer, read⟩ := bind_ok.mp read
        simp only at read
        split at read
        · cases read
        · cases read
          exact readInteger_inside integer
      · obtain ⟨⟨h, p⟩, literal, read⟩ := bind_ok.mp read
        cases read
        exact readLiteral_inside literal

/-- Huffman codes are five bits at least. -/
theorem readString_bytes {buf bytes : List UInt8} {pos pos' : Nat}
    (read : readString buf pos = .ok (bytes, pos')) : 5 * bytes.length + 8 * pos ≤ 8 * pos' := by
  obtain ⟨b, tail, length, newPos, -, integer, -, ends, payload⟩ := readString_ok read
  have first : pos < newPos := readInteger_advance integer
  have raw : ((buf.drop newPos).take length).length ≤ length := List.length_take_le _ _
  rcases payload with ⟨-, decoded⟩ | ⟨-, rfl⟩
  · have grown := Huffman.decode_length_le decoded
    omega
  · omega

theorem readLiteral_bytes {limit : Nat} {d : Decoder} (within : Within limit d)
    {block : List UInt8} {pos pos' n : Nat} {h : DecodedHeader}
    (read : d.readLiteral block pos n = .ok (h, pos')) :
    5 * fieldBytes h + 8 * pos ≤ 5 * entryCap limit + 8 * pos' := by
  unfold Decoder.readLiteral at read
  obtain ⟨⟨idx, p⟩, integer, read⟩ := bind_ok.mp read
  obtain ⟨⟨name, q⟩, named, read⟩ := bind_ok.mp read
  obtain ⟨⟨value, r⟩, valued, read⟩ := bind_ok.mp read
  cases read
  have first : pos < p := readInteger_advance integer
  have value_ := readString_bytes valued
  have name_ : 5 * name.length + 8 * p ≤ 5 * entryCap limit + 8 * q := by
    unfold Decoder.readName at named
    split at named
    · have spelled := readString_bytes named
      omega
    · obtain ⟨h, found, named⟩ := bind_ok.mp named
      cases named
      have small := lookupIndex_bytes within found
      have part : h.1.length ≤ fieldBytes h := Nat.le_add_right _ _
      omega
  have bytes : fieldBytes (name, value) = name.length + value.length := rfl
  omega

/-- An instruction yields an entry at most, and what its own bytes say. -/
theorem readStep_bytes {limit : Nat} {d : Decoder} (within : Within limit d)
    {block : List UInt8} {pos pos' : Nat} {b : UInt8} {step : Step}
    (read : d.readStep block pos b = .ok (step, pos')) :
    step.output.length ≤ 1 ∧
      5 * totalBytes step.output + 8 * pos ≤ 5 * entryCap limit + 8 * pos' := by
  have moved := readStep_advance read
  have one : ∀ {h : DecodedHeader}, totalBytes [h] = fieldBytes h := by
    intro h
    simp [totalBytes]
  unfold Decoder.readStep at read
  split at read
  · obtain ⟨⟨idx, p⟩, integer, read⟩ := bind_ok.mp read
    obtain ⟨h, found, read⟩ := bind_ok.mp read
    cases read
    have small := lookupIndex_bytes within found
    refine ⟨Nat.le_refl 1, ?_⟩
    rw [Step.output, one]
    omega
  · split at read
    · obtain ⟨⟨h, p⟩, literal, read⟩ := bind_ok.mp read
      cases read
      have small := readLiteral_bytes within literal
      refine ⟨Nat.le_refl 1, ?_⟩
      rw [Step.output, one]
      exact small
    · split at read
      · obtain ⟨⟨size, p⟩, integer, read⟩ := bind_ok.mp read
        simp only at read
        split at read
        · cases read
        · cases read
          refine ⟨Nat.zero_le 1, ?_⟩
          show 5 * 0 + 8 * pos ≤ _
          omega
      · obtain ⟨⟨h, p⟩, literal, read⟩ := bind_ok.mp read
        cases read
        have small := readLiteral_bytes within literal
        refine ⟨Nat.le_refl 1, ?_⟩
        rw [Step.output, one]
        exact small

theorem Within.apply {limit : Nat} {d : Decoder} (within : Within limit d) {block : List UInt8}
    (short : block.length < 2 ^ 30) {pos pos' : Nat} {b : UInt8} {step : Step}
    (read : d.readStep block pos b = .ok (step, pos')) : Within limit (d.apply step) := by
  obtain ⟨⟨past, rep⟩, le⟩ := within
  have next : (Visit.mk d block pos b).next = d.apply step := by
    unfold Visit.next
    have same : (Visit.mk d block pos b).read = .ok (step, pos') := read
    rw [same]
  have kept := next_represents (v := ⟨d, block, pos, b⟩) rep short
  have shrunk := (Visit.mk d block pos b).next_max_le
  rw [next] at kept shrunk
  exact ⟨⟨_, kept⟩, shrunk.trans le⟩

/-! ## A block, and a session of blocks -/

theorem totalBytes_append (xs ys : List DecodedHeader) :
    totalBytes (xs ++ ys) = totalBytes xs + totalBytes ys := by
  simp [totalBytes]

/-- The instructions left pay for the fields they yield. -/
theorem decodeLoop_bytes {limit : Nat} {block : List UInt8} (short : block.length < 2 ^ 30) :
    ∀ (fuel : Nat) (d : Decoder) (pos : Nat) (out : List DecodedHeader),
      Within limit d → pos ≤ block.length →
      Within limit (decodeLoop block fuel d pos out).1 ∧
      ∀ fields, (decodeLoop block fuel d pos out).2 = .ok fields →
        fields.length ≤ out.length + fuel ∧
        5 * totalBytes fields + 8 * pos ≤
          5 * totalBytes out + fuel * (5 * entryCap limit) + 8 * block.length
  | 0, d, pos, out, within, inside => by
      refine ⟨within, fun fields done => ?_⟩
      cases done
      exact ⟨Nat.le_refl _, by omega⟩
  | fuel + 1, d, pos, out, within, inside => by
      rw [decodeLoop]
      cases block.drop pos with
      | nil =>
          refine ⟨within, fun fields done => ?_⟩
          cases done
          exact ⟨Nat.le_add_right _ _, by omega⟩
      | cons b tail =>
          cases read : d.readStep block pos b with
          | error e =>
              refine ⟨by simp only [read]; exact within, fun fields done => ?_⟩
              simp only [read] at done
              cases done
          | ok r =>
              obtain ⟨step, pos'⟩ := r
              obtain ⟨few, small⟩ := readStep_bytes within read
              obtain ⟨kept, rest⟩ := decodeLoop_bytes short fuel (d.apply step) pos'
                (out ++ step.output) (within.apply short read) (readStep_inside read)
              simp only [read]
              refine ⟨kept, fun fields done => ?_⟩
              have later := rest fields done
              rw [List.length_append, totalBytes_append] at later
              have paid : (fuel + 1) * (5 * entryCap limit) =
                  fuel * (5 * entryCap limit) + 5 * entryCap limit := Nat.succ_mul _ _
              exact ⟨by omega, by omega⟩

theorem decodeHeaders_within {limit : Nat} {d : Decoder} (within : Within limit d)
    {block : List UInt8} (short : block.length < 2 ^ 30) :
    Within limit (d.decodeHeaders block).1 :=
  (decodeLoop_bytes short block.length d 0 [] within (Nat.zero_le _)).1

theorem session_within {limit : Nat} {blocks : List (List UInt8)}
    (short : ∀ block ∈ blocks, block.length < 2 ^ 30) {d : Decoder} (within : Within limit d) :
    Within limit (blocks.foldl (fun d block => (d.decodeHeaders block).1) d) := by
  induction blocks generalizing d with
  | nil => exact within
  | cons block blocks ih =>
      have first := decodeHeaders_within within (short block List.mem_cons_self)
      exact ih (fun b mem => short b (List.mem_cons_of_mem _ mem)) first

theorem within_new {limit : Nat} (word : limit < 2 ^ 31) :
    Within limit (.withMaxTableSize limit) :=
  ⟨⟨[], represents_new word⟩, Nat.le_refl _⟩

/-- **A block decodes to no more than its instructions can name.** On a connection of any
length, a block has a field for each of its bytes at most; each field is an entry of the
table or of the static one, or is paid for by the block's own bytes, eight fifths apiece.
The table's memory stays within the limit throughout. -/
theorem decodeHeaders_bounded {limit : Nat} (word : limit < 2 ^ 31) {blocks : List (List UInt8)}
    {block : List UInt8} (short : ∀ b ∈ block :: blocks, b.length < 2 ^ 30) :
    let d := blocks.foldl (fun d block => (d.decodeHeaders block).1)
      (Decoder.withMaxTableSize limit)
    (∀ fields, (d.decodeHeaders block).2 = .ok fields →
      fields.length ≤ block.length ∧
      5 * totalBytes fields ≤ block.length * (5 * entryCap limit + 8)) ∧
    weight fieldSize (d.decodeHeaders block).1.dynamicTable ≤ limit := by
  intro d
  have before : ∀ b ∈ blocks, b.length < 2 ^ 30 := fun b mem =>
    short b (List.mem_cons_of_mem _ mem)
  have within : Within limit d := session_within before (within_new word)
  have this : block.length < 2 ^ 30 := short block List.mem_cons_self
  constructor
  · intro fields done
    obtain ⟨few, small⟩ := (decodeLoop_bytes this block.length d 0 [] within (Nat.zero_le _)).2
      fields done
    have nothing : totalBytes [] = 0 := rfl
    rw [List.length_nil] at few
    rw [Nat.mul_add]
    exact ⟨by omega, by omega⟩
  · obtain ⟨⟨past, rep⟩, le⟩ := decodeHeaders_within within this
    have all := rep.size_le
    rw [rep.size] at all
    exact all.trans le

/-- An entry of 34 bytes, and two indices that name it again. -/
theorem decodeHeaders_bounded_two :
    let d := [[0x40, 1, 97, 1, 98]].foldl (fun d block => (d.decodeHeaders block).1)
      (Decoder.withMaxTableSize 40)
    (d.decodeHeaders [0xBE, 0xBE]).2 = .ok [([97], [98]), ([97], [98])] ∧
      5 * totalBytes [([97], [98]), ([97], [98])] ≤ 2 * (5 * entryCap 40 + 8) := by
  intro d
  have done : (d.decodeHeaders [0xBE, 0xBE]).2 = .ok [([97], [98]), ([97], [98])] := by
    decide
  have bounded := @decodeHeaders_bounded 40 (by decide) [[0x40, 1, 97, 1, 98]] [0xBE, 0xBE]
    (by decide)
  exact ⟨done, (bounded.1 _ done).2⟩

end Blasthttp.H2.Hpack
