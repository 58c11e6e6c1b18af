/-
# Blasthttp.H2.HpackAccount -- the arithmetic of the dynamic table

`add_to_dynamic_table` and `resize_table` compute in `u32`.  Their checked twins stop
where a computation does not give its exact value: the cast of an entry's size, its sum
with the size of the table, the subtraction of an entry's size on eviction.

In a session everything comes out exactly as long as every field to be added has a size
that fits a word, and so does the sum of it and the entries stored if it is no larger than
the table may be (`accounted_iff`).  Under a maximum below 2^31 the second always holds.
The first fails under every maximum: a field of 2^32 bytes has size 0 to the code
(`hugeField_unaccounted`).
-/
import Blasthttp.H2.HpackHistory
import Blasthttp.H2.HpackUpdates
import Blasthttp.H2.HpackRoundTrip

namespace Blasthttp.H2.Hpack

open Blasthttp.Rust Blasthttp.Lib.Fifo

set_option autoImplicit false

/-! ## Checked operations -/

/-- `n as u32`, where nothing is cut off. -/
def castU32 (n : Nat) : Option Nat := if n < 2 ^ 32 then some n else none

def addU32 (a b : Nat) : Option Nat := if a + b < 2 ^ 32 then some (a + b) else none

def subU32 (a b : Nat) : Option Nat := if b ≤ a then some (a - b) else none

/-- `evictOldest`, with the condition of the loop and the subtractions checked. -/
def evictOldestChecked (exceeds : Nat → Option Bool) :
    List DecodedHeader → Nat → Option (List DecodedHeader × Nat)
  | [], size => do
      let _ ← exceeds size
      some ([], size)
  | h :: newer, size => do
      let large ← exceeds size
      if large then
        let freed ← castU32 (fieldSize h)
        let size ← subU32 size freed
        evictOldestChecked exceeds newer size
      else some (h :: newer, size)

def evictChecked (exceeds : Nat → Option Bool) (table : List DecodedHeader) (size : Nat) :
    Option (List DecodedHeader × Nat) := do
  let (kept, size) ← evictOldestChecked exceeds table.reverse size
  some (kept.reverse, size)

def Decoder.addChecked (d : Decoder) (h : DecodedHeader) : Option Decoder := do
  let entrySize ← castU32 (fieldSize h)
  if d.maxTableSize < entrySize then some { d with dynamicTable := [], dynamicTableSize := 0 }
  else
    let (kept, size) ←
      evictChecked (fun size => (addU32 size entrySize).map fun sum => d.maxTableSize < sum)
        d.dynamicTable d.dynamicTableSize
    let size ← addU32 size entrySize
    some { d with dynamicTable := h :: kept, dynamicTableSize := size }

def Decoder.resizeChecked (d : Decoder) (newSize : Nat) : Option Decoder := do
  let (kept, size) ←
    evictChecked (fun size => some (newSize < size)) d.dynamicTable d.dynamicTableSize
  some { dynamicTable := kept, dynamicTableSize := size, maxTableSize := newSize }

def Decoder.applyChecked (d : Decoder) : Step → Option Decoder
  | .emit _ => some d
  | .insert h => d.addChecked h
  | .resize size => d.resizeChecked size

/-! ## When nothing is cut off -/

theorem evictOldestChecked_fit (exceeds : Nat → Option Bool) (cap : Nat) :
    ∀ (oldest : List DecodedHeader) (size : Nat),
      size = weight fieldSize oldest → size < 2 ^ 32 →
      (∀ s, s ≤ size → exceeds s = some (decide (cap < s))) →
      evictOldestChecked exceeds oldest size =
        some ((fit fieldSize cap oldest.reverse).reverse,
          weight fieldSize (fit fieldSize cap oldest.reverse))
  | [], size, exact', _, judges => by
      rw [evictOldestChecked, judges size le_rfl, exact']
      rfl
  | h :: newer, size, exact', word, judges => by
      have split : size = fieldSize h + weight fieldSize newer := exact'
      have total : weight fieldSize (newer.reverse ++ [h]) = size := by
        rw [weight_append, weight_reverse, split, weight, weight]
        omega
      rw [evictOldestChecked, judges size le_rfl, List.reverse_cons, fit_concat, total]
      by_cases large : cap < size
      · have cast : castU32 (fieldSize h) = some (fieldSize h) := by
          rw [castU32, if_pos (by omega)]
        have less : subU32 size (fieldSize h) = some (weight fieldSize newer) := by
          rw [subU32, if_pos (by omega), split, Nat.add_sub_cancel_left]
        have rest := evictOldestChecked_fit exceeds cap newer _ rfl (by omega)
          fun s hs => judges s (by omega)
        simp only [large, decide_true, if_true, Option.bind_eq_bind, Option.bind_some, cast, less,
          rest]
        rw [if_neg (by omega)]
      · simp only [large, decide_false, Bool.false_eq_true, if_false, Option.bind_eq_bind,
          Option.bind_some]
        rw [if_pos (by omega), total]
        simp

theorem evictChecked_fit (exceeds : Nat → Option Bool) (cap : Nat) {table : List DecodedHeader}
    {size : Nat} (exact' : size = weight fieldSize table) (word : size < 2 ^ 32)
    (judges : ∀ s, s ≤ size → exceeds s = some (decide (cap < s))) :
    evictChecked exceeds table size =
      some (fit fieldSize cap table, weight fieldSize (fit fieldSize cap table)) := by
  rw [evictChecked, evictOldestChecked_fit exceeds cap table.reverse size
    (by rw [weight_reverse]; exact exact') word judges]
  simp

/-- What must hold of a field for the sums of `add_to_dynamic_table` to fit a word. -/
def Decoder.Holds (d : Decoder) (h : DecodedHeader) : Prop :=
  fieldSize h < 2 ^ 32 ∧
    (fieldSize h ≤ d.maxTableSize → weight fieldSize d.dynamicTable + fieldSize h < 2 ^ 32)

theorem Decoder.Sound.addChecked {d : Decoder} (sound : d.Sound) {h : DecodedHeader}
    (holds : d.Holds h) : d.addChecked h = some (d.addToDynamicTable h) := by
  obtain ⟨small, room⟩ := holds
  have word := sound.word
  have bound := sound.le
  rw [← sound.size] at room
  rw [sound.addToDynamicTable small room, Decoder.addChecked, castU32, if_pos small, fit]
  by_cases oversized : d.maxTableSize < fieldSize h
  · simp only [Option.bind_eq_bind, Option.bind_some]
    rw [if_pos oversized, if_neg (by omega)]
    rfl
  · have sum := room (by omega)
    have judges : ∀ s, s ≤ d.dynamicTableSize →
        (addU32 s (fieldSize h)).map (fun sum => decide (d.maxTableSize < sum)) =
          some (decide (d.maxTableSize - fieldSize h < s)) := by
      intro s hs
      rw [addU32, if_pos (by omega), Option.map_some, Option.some_inj, decide_eq_decide]
      omega
    have kept := evictChecked_fit _ (d.maxTableSize - fieldSize h) sound.size (by omega) judges
    have fits := weight_fit_le fieldSize (d.maxTableSize - fieldSize h) d.dynamicTable
    simp only [Option.bind_eq_bind, Option.bind_some]
    rw [if_neg oversized, if_pos (by omega), kept]
    simp only [Option.bind_some]
    rw [addU32, if_pos (by omega), weight, Nat.add_comm]
    rfl

theorem Decoder.Sound.resizeChecked {d : Decoder} (sound : d.Sound) (size : Nat) :
    d.resizeChecked size = some (d.resizeTable size) := by
  have word := sound.word
  have bound := sound.le
  rw [sound.resizeTable, Decoder.resizeChecked,
    evictChecked_fit _ size sound.size (by omega) fun s _ => rfl]
  rfl

/-- The sums that must fit a word are the first that are computed. -/
theorem holds_of_addChecked {d : Decoder} (sound : d.Sound) {h : DecodedHeader} {d' : Decoder}
    (computed : d.addChecked h = some d') : d.Holds h := by
  rw [Decoder.addChecked, castU32] at computed
  split at computed
  · rename_i small
    refine ⟨small, fun within => ?_⟩
    simp only [Option.bind_eq_bind, Option.bind_some] at computed
    rw [if_neg (by omega)] at computed
    by_contra large
    have first : addU32 d.dynamicTableSize (fieldSize h) = none := by
      rw [addU32, if_neg (by rw [sound.size]; exact large)]
    have stuck : evictChecked
        (fun size => (addU32 size (fieldSize h)).map fun sum => decide (d.maxTableSize < sum))
        d.dynamicTable d.dynamicTableSize = none := by
      rw [evictChecked]
      cases d.dynamicTable.reverse with
      | nil => simp [evictOldestChecked, first]
      | cons oldest newer => simp [evictOldestChecked, first]
    rw [stuck] at computed
    cases computed
  · cases computed

/-! ## One instruction -/

/-- An instruction whose arithmetic is exact: every computation gives its exact value, the
cached size is that of the entries stored, and eviction stops where what is left fits. -/
structure Visit.Accounted (v : Visit) : Prop where
  computed : ∀ step pos, v.read = .ok (step, pos) → v.decoder.applyChecked step = some v.next
  size : v.next.dynamicTableSize = weight fieldSize v.next.dynamicTable
  table : v.next.dynamicTable =
    fit fieldSize v.next.maxTableSize (v.inserted?.toList ++ v.decoder.dynamicTable)

def Visit.Holds (v : Visit) : Prop := ∀ h, v.inserted? = some h → v.decoder.Holds h

theorem Visit.Accounted.sound {v : Visit} (accounted : v.Accounted) (sound : v.decoder.Sound) :
    v.next.Sound where
  size := accounted.size
  le := by
    rw [accounted.size, accounted.table]
    exact weight_fit_le fieldSize _ _
  word := v.next_max_le.trans_lt sound.word

theorem Visit.accounted_of_read {v : Visit} {step : Step} {pos : Nat}
    (read : v.read = .ok (step, pos))
    (computed : v.decoder.applyChecked step = some (v.decoder.apply step))
    (size : (v.decoder.apply step).dynamicTableSize =
      weight fieldSize (v.decoder.apply step).dynamicTable)
    (table : (v.decoder.apply step).dynamicTable =
      fit fieldSize (v.decoder.apply step).maxTableSize
        (v.inserted?.toList ++ v.decoder.dynamicTable)) : v.Accounted := by
  have next : v.next = v.decoder.apply step := by rw [Visit.next, read]
  constructor
  · intro step' pos' found
    rw [read] at found
    cases found
    rw [next]
    exact computed
  · rw [next]
    exact size
  · rw [next]
    exact table

theorem accounted_of_holds {v : Visit} (sound : v.decoder.Sound) (holds : v.Holds) :
    v.Accounted := by
  have whole : v.decoder.dynamicTable =
      fit fieldSize v.decoder.maxTableSize v.decoder.dynamicTable := by
    rw [fit_of_weight_le fieldSize (sound.size ▸ sound.le)]
  cases read : v.read with
  | error e =>
      have same : v.next = v.decoder := by rw [Visit.next, read]
      have nothing : v.inserted? = none := by rw [Visit.inserted?, read]
      constructor
      · intro step pos found
        rw [read] at found
        cases found
      · rw [same]
        exact sound.size
      · rw [same, nothing]
        exact whole
  | ok r =>
      obtain ⟨step, pos⟩ := r
      cases step with
      | emit h =>
          have nothing : v.inserted? = none := by rw [Visit.inserted?, read]
          exact Visit.accounted_of_read read rfl sound.size (by rw [nothing]; exact whole)
      | insert h =>
          have added : v.inserted? = some h := by rw [Visit.inserted?, read]
          have fits := holds h added
          obtain ⟨small, room⟩ := holds h added
          rw [← sound.size] at room
          have after := sound.addToDynamicTable small room
          refine Visit.accounted_of_read read (sound.addChecked fits) ?_ ?_
          · rw [Decoder.apply, after]
          · rw [Decoder.apply, after, added]
            rfl
      | resize size =>
          have nothing : v.inserted? = none := by rw [Visit.inserted?, read]
          have after := sound.resizeTable size
          refine Visit.accounted_of_read read (sound.resizeChecked size) ?_ ?_
          · rw [Decoder.apply, after]
          · rw [Decoder.apply, after, nothing]
            rfl

theorem accounted_iff_holds {v : Visit} (sound : v.decoder.Sound) : v.Accounted ↔ v.Holds := by
  constructor
  · intro accounted h added
    rw [Visit.inserted?] at added
    split at added
    · rename_i other pos read
      cases added
      exact holds_of_addChecked sound (accounted.computed _ _ read)
    · cases added
  · exact accounted_of_holds sound

/-! ## Sessions -/

theorem traced_accounted {blocks : List (List UInt8)} {d : Decoder} {visits : List Visit}
    (traced : Traced blocks d visits) (sound : d.Sound) :
    (∀ v ∈ visits, v.Accounted) ↔ ∀ v ∈ visits, v.Holds := by
  induction traced with
  | nil d => simp
  | @cons v rest mem _ ih =>
      rw [List.forall_mem_cons, List.forall_mem_cons, ← accounted_iff_holds sound]
      exact and_congr_right fun accounted => ih (accounted.sound sound)

/-- Under a maximum below 2^31 two sizes within it can be added. -/
theorem traced_holds {blocks : List (List UInt8)} {d : Decoder} {visits : List Visit}
    (traced : Traced blocks d visits) (sound : d.Sound) (half : d.maxTableSize < 2 ^ 31)
    (small : ∀ v ∈ visits, ∀ h, v.inserted? = some h → fieldSize h < 2 ^ 32) :
    ∀ v ∈ visits, v.Holds := by
  induction traced with
  | nil d => simp
  | @cons v rest mem _ ih =>
      rw [List.forall_mem_cons] at small ⊢
      have holds : v.Holds := by
        intro h added
        refine ⟨small.1 h added, fun within => ?_⟩
        have bound := sound.le
        rw [sound.size] at bound
        omega
      have accounted := accounted_of_holds sound holds
      exact ⟨holds, ih (accounted.sound sound) (v.next_max_le.trans_lt half) small.2⟩

/-- **When the accounting of the dynamic table is exact.**  For every maximum and every
sequence of blocks, all computations of all instructions give their exact values if and
only if each field to be added has a size that fits a word and, unless it is larger than
the table may be, so has its sum with the entries stored.  Below 2^31 only the first is
a condition. -/
theorem accounted_iff (max : UInt32) (blocks : List (List UInt8)) :
    ((∀ v ∈ (Decoder.withMaxTableSize max.toNat).session blocks, v.Accounted) ↔
      ∀ v ∈ (Decoder.withMaxTableSize max.toNat).session blocks, v.Holds) ∧
    (max.toNat < 2 ^ 31 →
      ((∀ v ∈ (Decoder.withMaxTableSize max.toNat).session blocks, v.Accounted) ↔
        ∀ v ∈ (Decoder.withMaxTableSize max.toNat).session blocks, ∀ h,
          v.inserted? = some h → fieldSize h < 2 ^ 32)) := by
  have sound : (Decoder.withMaxTableSize max.toNat).Sound := ⟨rfl, Nat.zero_le _, max.toNat_lt⟩
  have traced := session_traced (Decoder.withMaxTableSize max.toNat) blocks
  have exactly := traced_accounted traced sound
  refine ⟨exactly, fun half => ?_⟩
  rw [exactly]
  constructor
  · intro holds v there h added
    exact (holds v there h added).1
  · exact traced_holds traced sound half

/-! ## A field of 2^32 bytes -/

theorem visits_single {d : Decoder} {block : List UInt8} {b : UInt8} {tail : List UInt8}
    {step : Step} (head : block = b :: tail)
    (read : d.readStep block 0 b = .ok (step, block.length)) :
    d.visits block = [⟨d, block, 0, b⟩] := by
  have start : block.drop 0 = b :: tail := head
  have past : ∀ fuel d', visitsLoop block fuel d' block.length = [] := by
    intro fuel d'
    cases fuel with
    | zero => rfl
    | succ fuel => rw [visitsLoop, List.drop_length]
  obtain ⟨fuel, enough⟩ : ∃ fuel, block.length = fuel + 1 := ⟨tail.length, by rw [head]; rfl⟩
  calc d.visits block = visitsLoop block (fuel + 1) d 0 := by rw [Decoder.visits, ← enough]
    _ = [⟨d, block, 0, b⟩] := by
        rw [visitsLoop, start]
        simp only [read, past]

/-- A header with a name of one byte and an unencoded value. -/
def plainHeader (value : List UInt8) : Header :=
  { Header.new (ascii "x") value with
    huffmanName := some false
    huffmanValue := some false }

/-- The block of such a header is read as one field to be added. -/
theorem session_plainHeader {value : List UInt8} (valid : isValueValid value = true)
    (short : value.length < 2 ^ 32) (d : Decoder) :
    ∃ block v, encodeHeaders [plainHeader value] = .ok block ∧ d.session [block] = [v] ∧
      v.decoder = d ∧ v.inserted? = some (ascii "x", value) ∧
      (d.decodeHeaders block).1 = d.addToDynamicTable (ascii "x", value) := by
  have accepted : encodeOne (plainHeader value) = .ok (plainHeader value).emitted := by
    refine encodeOne_iff.mpr ⟨⟨?_, ?_, ?_, ?_, ?_, ?_⟩, rfl⟩
    · simp [plainHeader, Header.new, ascii]
    · exact UInt8.le_iff_toNat_le.mpr (Nat.zero_le _)
    · exact UInt8.le_iff_toNat_le.mpr (Nat.zero_le _)
    · have named : isNameValid (ascii "x") = true := by decide
      simp [plainHeader, Header.new, named]
    · simp [plainHeader, Header.new, valid]
    · intro idx forced
      cases forced
  have fits : (plainHeader value).Short := ⟨fun _ => show (ascii "x").length < 2 ^ 32 by decide, short⟩
  have harmless := Header.harmless_of_plain (h := plainHeader value) ⟨rfl, rfl⟩
  obtain ⟨b, tail, head, read⟩ := readStep_encodeOne accepted harmless fits d [] []
  simp only [List.nil_append, List.append_nil, List.length_nil, Nat.zero_add] at read
  have single := visits_single head read
  have added : (plainHeader value).indexing.step (decodedPair (plainHeader value)) =
      .insert (ascii "x", value) := rfl
  rw [added] at read
  refine ⟨(plainHeader value).emitted, ⟨d, (plainHeader value).emitted, 0, b⟩, ?_, ?_, rfl, ?_, ?_⟩
  · simp [encodeHeaders, accepted]
  · rw [Decoder.session, single, Decoder.session, List.append_nil]
  · rw [Visit.inserted?, Visit.read, read]
  · rw [decodeHeaders_after, single, Decoder.after, Decoder.after, Visit.next, Visit.read, read]
    rfl

theorem isValueValid_replicate (n : Nat) : isValueValid (List.replicate n 97) = true := by
  rw [isValueValid, Bool.not_eq_true', List.any_eq_false]
  intro b there
  rw [List.eq_of_mem_replicate there]
  decide

theorem fieldSize_x (value : List UInt8) :
    fieldSize (ascii "x", value) = value.length + 33 := by
  have one : (ascii "x").length = 1 := rfl
  change (ascii "x").length + value.length + 32 = value.length + 33
  rw [one]
  omega

/-- A size of which the cast leaves nothing: the field is stored, and adds nothing to the size
of the table. -/
theorem addToDynamicTable_cut {h : DecodedHeader} (cut : entrySize h = 0) :
    (Decoder.withMaxTableSize 4096).addToDynamicTable h =
      { dynamicTable := [h], dynamicTableSize := 0, maxTableSize := 4096 } := by
  rw [Decoder.addToDynamicTable, cut]
  rfl

theorem unaccounted_of_size {value : List UInt8} (valid : isValueValid value = true)
    (short : value.length < 2 ^ 32) (size : fieldSize (ascii "x", value) = 2 ^ 32) :
    ∃ block, encodeHeaders [plainHeader value] = .ok block ∧
      (¬ ∀ v ∈ (Decoder.withMaxTableSize (UInt32.toNat 4096)).session [block], v.Accounted) ∧
      ((Decoder.withMaxTableSize 4096).decodeHeaders block).1.dynamicTableSize = 0 ∧
      weight fieldSize ((Decoder.withMaxTableSize 4096).decodeHeaders block).1.dynamicTable =
        2 ^ 32 := by
  have cut : entrySize (ascii "x", value) = 0 := by
    change fieldSize (ascii "x", value) % 2 ^ 32 = 0
    rw [size, Nat.mod_self]
  have stored := addToDynamicTable_cut cut
  have max : UInt32.toNat 4096 = 4096 := rfl
  obtain ⟨block, v, encoded, session, start, added, after⟩ :=
    session_plainHeader valid short (.withMaxTableSize 4096)
  refine ⟨block, encoded, fun all => ?_, ?_, ?_⟩
  · have sound : v.decoder.Sound := by
      rw [start]
      exact ⟨rfl, Nat.zero_le _, by decide⟩
    rw [max, session] at all
    have accounted := all v (List.mem_singleton_self v)
    have small := ((accounted_iff_holds sound).mp accounted _ added).1
    rw [size] at small
    exact lt_irrefl _ small
  · rw [after, stored]
  · rw [after, stored, weight, weight, size, Nat.add_zero]

/-- A field of 2^32 bytes has size 0 to the code: under a maximum of 4096 it is stored, and
the table is taken to be empty. -/
theorem hugeField_unaccounted :
    ∃ block, encodeHeaders [plainHeader (List.replicate (2 ^ 32 - 33) 97)] = .ok block ∧
      (¬ ∀ v ∈ (Decoder.withMaxTableSize (UInt32.toNat 4096)).session [block], v.Accounted) ∧
      ((Decoder.withMaxTableSize 4096).decodeHeaders block).1.dynamicTableSize = 0 ∧
      weight fieldSize ((Decoder.withMaxTableSize 4096).decodeHeaders block).1.dynamicTable =
        2 ^ 32 := by
  have short : 2 ^ 32 - 33 < 2 ^ 32 := by decide
  have whole : 2 ^ 32 - 33 + 33 = 2 ^ 32 := by decide
  have length := @List.length_replicate UInt8 (2 ^ 32 - 33) 97
  refine unaccounted_of_size (isValueValid_replicate _) ?_ ?_
  · exact length.trans_lt short
  · exact (fieldSize_x _).trans ((congrArg (· + 33) length).trans whole)

end Blasthttp.H2.Hpack
