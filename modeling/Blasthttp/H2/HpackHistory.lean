/-
# Blasthttp.H2.HpackHistory -- what a dynamic index means

The fields a decoder has read from literals with incremental indexing, newest
first and over all its calls, are its `history`.  The table is at every moment the
part of it that fits (`session_represents`), so an index resolves into the history
by a comparison of sizes and nothing else (`lookupIndex_history`).

The bound on blocks keeps a field's size below 2^32: a Huffman string grows by at
most 8/5, and a name taken from the table was itself small enough to be stored.
-/
import Blasthttp.H2.HpackTable

namespace Blasthttp.H2.Hpack

open Blasthttp.Rust Blasthttp.Lib.Fifo

set_option autoImplicit false

/-! ## Sizes of what is read -/

theorem readString_length {buf bytes : List UInt8} {pos pos' : Nat}
    (read : readString buf pos = .ok (bytes, pos')) : 5 * bytes.length ≤ 8 * buf.length := by
  obtain ⟨b, tail, length, newPos, -, -, -, -, payload⟩ := readString_ok read
  have raw : ((buf.drop newPos).take length).length ≤ buf.length := by
    rw [List.length_take, List.length_drop]
    omega
  rcases payload with ⟨-, decoded⟩ | ⟨-, rfl⟩
  · have grown := Huffman.decode_length_le decoded
    omega
  · omega

theorem staticTable_small : ∀ h ∈ staticTable, h.1.length < 64 := by
  decide +kernel

/-- A name found by index is short, whichever table it comes from. -/
theorem lookupIndex_length {d : Decoder} {history : List DecodedHeader}
    (rep : Represents d history) {idx : Nat} {h : DecodedHeader}
    (found : d.lookupIndex idx = .ok h) : h.1.length + 32 < 2 ^ 31 := by
  unfold Decoder.lookupIndex at found
  split at found
  · cases found
  · split at found
    · rename_i inside
      cases found
      have there : idx - 1 < staticTable.length := by omega
      have small := staticTable_small _ (List.getElem_mem there)
      rw [List.getD_eq_getElem _ _ there]
      omega
    · split at found
      · rename_i stored
        cases found
        have one := weight_mem_le fieldSize (List.mem_of_getElem? stored)
        have all := rep.size_le
        have word := rep.word
        rw [rep.size] at all
        rw [fieldSize] at one
        omega
      · cases found

/-- A literal of a short block is a field whose size fits a word. -/
theorem readLiteral_fieldSize {d : Decoder} {history : List DecodedHeader}
    (rep : Represents d history) {block : List UInt8} (short : block.length < 2 ^ 30)
    {pos pos' n : Nat} {h : DecodedHeader} (read : d.readLiteral block pos n = .ok (h, pos')) :
    fieldSize h < 2 ^ 32 := by
  unfold Decoder.readLiteral at read
  obtain ⟨⟨idx, p⟩, -, read⟩ := bind_ok.mp read
  obtain ⟨⟨name, q⟩, named, read⟩ := bind_ok.mp read
  obtain ⟨⟨value, r⟩, valued, read⟩ := bind_ok.mp read
  cases read
  have valueLength := readString_length valued
  have nameLength : name.length + 32 < 2 ^ 31 := by
    unfold Decoder.readName at named
    split at named
    · have spelled := readString_length named
      omega
    · obtain ⟨h, found, named⟩ := bind_ok.mp named
      cases named
      exact lookupIndex_length rep found
  change name.length + value.length + 32 < 2 ^ 32
  omega

/-! ## The history of a session -/

/-- The field an instruction adds to the dynamic table, if it does. -/
def Visit.inserted? (v : Visit) : Option DecodedHeader :=
  match v.read with
  | .ok (.insert h, _) => some h
  | _ => none

/-- All fields decoded so far from literals with incremental indexing, newest first. -/
def history (visits : List Visit) : List DecodedHeader :=
  (visits.filterMap Visit.inserted?).reverse

/-- One instruction keeps the table the bounded part of the history. -/
theorem next_represents {v : Visit} {past : List DecodedHeader}
    (rep : Represents v.decoder past) (short : v.block.length < 2 ^ 30) :
    Represents v.next (v.inserted?.toList ++ past) := by
  unfold Visit.next Visit.inserted?
  cases read : v.read with
  | error e => exact rep
  | ok r =>
      obtain ⟨step, pos'⟩ := r
      rcases readStep_cases read with ⟨h, rfl⟩ | ⟨h, rfl, literal⟩ | ⟨size, rfl, le, -⟩
      · exact rep
      · exact (addToDynamicTable_represents rep (readLiteral_fieldSize rep short literal)).1
      · exact resizeTable_represents rep le

theorem traced_represents {blocks : List (List UInt8)}
    (short : ∀ block ∈ blocks, block.length < 2 ^ 30) {d : Decoder} {visits : List Visit}
    (traced : Traced blocks d visits) {past : List DecodedHeader} (rep : Represents d past) :
    Represents (d.after visits) (history visits ++ past) := by
  induction traced generalizing past with
  | nil d => exact rep
  | @cons v rest mem _ ih =>
      have later := ih (next_represents rep (short _ mem))
      have split : history (v :: rest) ++ past = history rest ++ (v.inserted?.toList ++ past) := by
        unfold history
        rw [List.filterMap_cons]
        cases v.inserted? <;> simp
      rw [split]
      exact later

/-- The table after any part of any session. -/
theorem session_represents {max : Nat} (word : max < 2 ^ 31) {blocks : List (List UInt8)}
    (short : ∀ block ∈ blocks, block.length < 2 ^ 30) (n : Nat) :
    Represents
      ((Decoder.withMaxTableSize max).after
        (((Decoder.withMaxTableSize max).session blocks).take n))
      (history (((Decoder.withMaxTableSize max).session blocks).take n)) := by
  have traced := (session_traced (.withMaxTableSize max) blocks).take n
  have rep := traced_represents short traced (represents_new word)
  rwa [List.append_nil] at rep

/-! ## Dynamic indices -/

theorem lookupIndex_dynamic (d : Decoder) {k : Nat} (dynamic : 1 ≤ k) :
    d.lookupIndex (61 + k) =
      match d.dynamicTable[k - 1]? with
      | some h => .ok h
      | none => .error (.invalidIndex (61 + k)) := by
  have length : staticTable.length = 61 := by decide
  have place : 61 + k - 1 - staticTable.length = k - 1 := by omega
  have positive : ¬ 61 + k = 0 := by omega
  have dynamic' : ¬ 61 + k ≤ staticTable.length := by omega
  cases found : d.dynamicTable[k - 1]? with
  | none => simp only [Decoder.lookupIndex, if_neg positive, if_neg dynamic', place, found]
  | some h => simp only [Decoder.lookupIndex, if_neg positive, if_neg dynamic', place, found]

theorem Represents.lookupIndex {d : Decoder} {past : List DecodedHeader}
    (rep : Represents d past) {k : Nat} (dynamic : 1 ≤ k) :
    d.lookupIndex (61 + k) =
      match (if weight fieldSize (past.take k) ≤ d.maxTableSize then past[k - 1]? else none) with
      | some h => .ok h
      | none => .error (.invalidIndex (61 + k)) := by
  rw [lookupIndex_dynamic d dynamic, rep.table, fit_getElem?, Nat.sub_add_cancel dynamic]

/-- **The dynamic table is the one of RFC 7541.** At every point of every session,
index 61+k is the k-th newest inserted field if the first k fit under the current
maximum, and invalid otherwise; the cached size is exact and within the maximum. -/
theorem lookupIndex_history {max : Nat} (word : max < 2 ^ 31) {blocks : List (List UInt8)}
    (short : ∀ block ∈ blocks, block.length < 2 ^ 30) (n : Nat) :
    let visits := ((Decoder.withMaxTableSize max).session blocks).take n
    let d := (Decoder.withMaxTableSize max).after visits
    (∀ k h, 1 ≤ k → (d.lookupIndex (61 + k) = .ok h ↔
      (history visits)[k - 1]? = some h ∧
        weight fieldSize ((history visits).take k) ≤ d.maxTableSize)) ∧
    (∀ k, 1 ≤ k → (∀ h, d.lookupIndex (61 + k) ≠ .ok h) →
      d.lookupIndex (61 + k) = .error (.invalidIndex (61 + k))) ∧
    d.dynamicTableSize = weight fieldSize d.dynamicTable ∧
    d.dynamicTableSize ≤ d.maxTableSize := by
  intro visits d
  have rep : Represents d (history visits) := session_represents word short n
  refine ⟨?_, ?_, rep.size, rep.size_le⟩
  · intro k h dynamic
    rw [rep.lookupIndex dynamic]
    by_cases fits : weight fieldSize ((history visits).take k) ≤ d.maxTableSize
    · rw [if_pos fits]
      cases (history visits)[k - 1]? with
      | none => simp
      | some h' => simp [fits]
    · simp [fits]
  · intro k dynamic missing
    rw [lookupIndex_dynamic d dynamic] at missing ⊢
    cases stored : d.dynamicTable[k - 1]? with
    | none => rfl
    | some h => exact absurd (by rw [stored]) (missing h)

/-- Two inserted fields of 34 bytes each under a limit of 40: only the newer is left. -/
theorem lookupIndex_history_two :
    ((Decoder.withMaxTableSize 40).after
      (((Decoder.withMaxTableSize 40).session
        [[0x40, 1, 97, 1, 98, 0x40, 1, 99, 1, 100]]).take 2)).lookupIndex 62 =
      .ok ([99], [100]) :=
  ((@lookupIndex_history 40 (by decide) [[0x40, 1, 97, 1, 98, 0x40, 1, 99, 1, 100]] (by decide)
    2).1 1 ([99], [100]) (by decide)).mpr (by decide)

end Blasthttp.H2.Hpack
