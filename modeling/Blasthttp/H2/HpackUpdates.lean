/-
# Blasthttp.H2.HpackUpdates -- dynamic table size updates over a session

The decoder keeps one number for two things, the limit it was built with and the
capacity the last update chose.  An update is compared with that number, so what is
rejected depends on the updates before it: a table once shrunk can never grow back
(`shrunk_table_stays_small`), and updates are judged by the limit exactly in the
sessions whose updates never grow (`judgedByLimit_iff`).
-/
import Blasthttp.H2.HpackTable

namespace Blasthttp.H2.Hpack

open Blasthttp.Rust

set_option autoImplicit false

/-! ## One update -/

/-- The size asked for, when the instruction is a size update. -/
def Visit.sizeUpdate? (v : Visit) : Option Nat :=
  if v.byte &&& 0xE0 = 0x20 then
    match readInteger v.block v.pos 5 with
    | .error _ => none
    | .ok (size, _) => some size
  else none

/-- The instruction fails with `TableSizeTooLarge`. -/
def Visit.rejects (v : Visit) : Bool :=
  match v.read with
  | .error (.tableSizeTooLarge _ _) => true
  | _ => false

theorem sizeUpdate_bits (b : UInt8) (update : b &&& 0xE0 = 0x20) :
    b &&& 0x80 = 0 ∧ b &&& 0xC0 ≠ 0x40 := by
  have all : ∀ x : Fin 256, UInt8.ofNat x.val &&& 0xE0 = 0x20 →
      UInt8.ofNat x.val &&& 0x80 = 0 ∧ UInt8.ofNat x.val &&& 0xC0 ≠ 0x40 := by decide +kernel
  have this := all ⟨b.toNat, b.toNat_lt⟩
  rw [show UInt8.ofNat (⟨b.toNat, b.toNat_lt⟩ : Fin 256).val = b from UInt8.ofNat_toNat] at this
  exact this update

/-- A size update is accepted up to the current maximum and rejected above it. -/
theorem Visit.read_sizeUpdate {v : Visit} {size : Nat} (asked : v.sizeUpdate? = some size) :
    (size ≤ v.decoder.maxTableSize ∧ ∃ pos, v.read = .ok (.resize size, pos)) ∨
    (v.decoder.maxTableSize < size ∧
      v.read = .error (.tableSizeTooLarge size v.decoder.maxTableSize)) := by
  unfold Visit.sizeUpdate? at asked
  split at asked
  · rename_i update
    obtain ⟨top, pattern⟩ := sizeUpdate_bits v.byte update
    split at asked
    · cases asked
    · rename_i integer
      cases asked
      unfold Visit.read Decoder.readStep
      simp only [top, pattern, update, integer, ne_eq, not_true_eq_false, if_false, if_true, bind,
        Except.bind]
      by_cases large : v.decoder.maxTableSize < size
      · exact .inr ⟨large, by rw [if_pos large]; rfl⟩
      · exact .inl ⟨by omega, _, by rw [if_neg large]; rfl⟩
  · cases asked

theorem Visit.rejects_iff {v : Visit} {size : Nat} (asked : v.sizeUpdate? = some size) :
    v.rejects = true ↔ v.decoder.maxTableSize < size := by
  unfold Visit.rejects
  rcases Visit.read_sizeUpdate asked with ⟨small, pos, read⟩ | ⟨large, read⟩
  · rw [read]
    simp only [Bool.false_eq_true, false_iff]
    omega
  · rw [read]
    simp only [large]

theorem Visit.next_accepted {v : Visit} {size : Nat} (asked : v.sizeUpdate? = some size)
    (small : size ≤ v.decoder.maxTableSize) : v.next.maxTableSize = size := by
  rcases Visit.read_sizeUpdate asked with ⟨-, pos, read⟩ | ⟨large, -⟩
  · unfold Visit.next
    rw [read]
    rfl
  · omega

theorem Visit.next_rejected {v : Visit} {size : Nat} (asked : v.sizeUpdate? = some size)
    (large : v.decoder.maxTableSize < size) : v.next = v.decoder := by
  rcases Visit.read_sizeUpdate asked with ⟨small, -⟩ | ⟨-, read⟩
  · omega
  · unfold Visit.next
    rw [read]

theorem addToDynamicTable_max (d : Decoder) (h : DecodedHeader) :
    (d.addToDynamicTable h).maxTableSize = d.maxTableSize := by
  unfold Decoder.addToDynamicTable
  split <;> rfl

/-- A resize comes from a size update. -/
theorem readStep_resize {d : Decoder} {block : List UInt8} {pos pos' : Nat} {b : UInt8}
    {size : Nat} (read : d.readStep block pos b = .ok (.resize size, pos')) :
    (⟨d, block, pos, b⟩ : Visit).sizeUpdate? = some size := by
  rcases readStep_cases read with ⟨h, same⟩ | ⟨h, same, -⟩ | ⟨asked, same, -, update, integer⟩
  · cases same
  · cases same
  · cases same
    unfold Visit.sizeUpdate?
    rw [if_pos update, integer]

/-- Nothing but a size update moves the maximum. -/
theorem Visit.next_other {v : Visit} (other : v.sizeUpdate? = none) :
    v.next.maxTableSize = v.decoder.maxTableSize := by
  unfold Visit.next
  cases read : v.read with
  | error e => rfl
  | ok r =>
      obtain ⟨step, pos⟩ := r
      cases step with
      | emit h => rfl
      | insert h => exact addToDynamicTable_max v.decoder h
      | resize size => exact absurd (readStep_resize read) (by rw [other]; exact nofun)

theorem Visit.next_max_le (v : Visit) : v.next.maxTableSize ≤ v.decoder.maxTableSize := by
  cases asked : v.sizeUpdate? with
  | none => exact (Visit.next_other asked).le
  | some size =>
      by_cases small : size ≤ v.decoder.maxTableSize
      · rw [Visit.next_accepted asked small]
        exact small
      · rw [Visit.next_rejected asked (by omega)]

/-! ## All updates of a session -/

/-- Every size update fails exactly when it asks for more than `limit`. -/
def VisitsJudged (limit : Nat) (visits : List Visit) : Prop :=
  ∀ v ∈ visits, ∀ size, v.sizeUpdate? = some size → (v.rejects = true ↔ limit < size)

/-- The sizes asked for in a session, in order. -/
def sizeUpdates (visits : List Visit) : List Nat := visits.filterMap Visit.sizeUpdate?

theorem visitsJudged_cons {limit : Nat} {v : Visit} {rest : List Visit} :
    VisitsJudged limit (v :: rest) ↔
      (∀ size, v.sizeUpdate? = some size → (v.decoder.maxTableSize < size ↔ limit < size)) ∧
        VisitsJudged limit rest := by
  unfold VisitsJudged
  rw [List.forall_mem_cons]
  refine and_congr_left fun _ => forall_congr' fun size => forall_congr' fun asked => ?_
  rw [Visit.rejects_iff asked]

/-- A decreasing list with one more number in front. -/
theorem pairwise_ge_cons_cons {a b : Nat} {rest : List Nat} :
    (a :: b :: rest).Pairwise (· ≥ ·) ↔ b ≤ a ∧ (b :: rest).Pairwise (· ≥ ·) := by
  simp only [List.pairwise_cons, List.forall_mem_cons, ge_iff_le]
  constructor
  · rintro ⟨⟨le, -⟩, below, tail⟩
    exact ⟨le, below, tail⟩
  · rintro ⟨le, below, tail⟩
    exact ⟨⟨le, fun c there => (below c there).trans le⟩, below, tail⟩

/-- Once the maximum is below the limit, the updates within the limit must go on
decreasing from it. -/
theorem traced_visitsJudged {blocks : List (List UInt8)} {d : Decoder} {visits : List Visit}
    (traced : Traced blocks d visits) {limit : Nat} (within : d.maxTableSize ≤ limit) :
    VisitsJudged limit visits ↔
      (d.maxTableSize :: (sizeUpdates visits).filter (· ≤ limit)).Pairwise (· ≥ ·) := by
  induction traced with
  | nil d => simp [VisitsJudged, sizeUpdates]
  | @cons v rest mem _ ih =>
      have later := ih (v.next_max_le.trans within)
      rw [visitsJudged_cons, later]
      cases asked : v.sizeUpdate? with
      | none =>
          have list : sizeUpdates (v :: rest) = sizeUpdates rest := List.filterMap_cons_none asked
          rw [list, Visit.next_other asked]
          simp
      | some size =>
          have list : sizeUpdates (v :: rest) = size :: sizeUpdates rest :=
            List.filterMap_cons_some asked
          have head : (∀ s, some size = some s → (v.decoder.maxTableSize < s ↔ limit < s)) ↔
              (v.decoder.maxTableSize < size ↔ limit < size) := by simp
          rw [list, head]
          by_cases small : size ≤ limit
          · rw [List.filter_cons_of_pos (by simpa using small), pairwise_ge_cons_cons]
            by_cases fits : size ≤ v.decoder.maxTableSize
            · rw [Visit.next_accepted asked fits]
              exact and_congr_left fun _ => by omega
            · constructor
              · rintro ⟨same, -⟩
                omega
              · rintro ⟨le, -⟩
                exact absurd le fits
          · rw [List.filter_cons_of_neg (by simpa using small),
              Visit.next_rejected asked (by omega)]
            exact and_iff_right (by omega)

/-! ## What the calls return -/

/-- A call of `decode_headers`. -/
structure Call where
  decoder : Decoder
  block : List UInt8

def Call.result (c : Call) : Except DecodeError (List DecodedHeader) :=
  (c.decoder.decodeHeaders c.block).2

/-- The instructions the call meets. -/
def Call.visits (c : Call) : List Visit := c.decoder.visits c.block

/-- The calls for one block after the other, on one decoder. -/
def Decoder.calls (d : Decoder) : List (List UInt8) → List Call
  | [] => []
  | block :: blocks => ⟨d, block⟩ :: (d.decodeHeaders block).1.calls blocks

theorem session_eq_calls (d : Decoder) (blocks : List (List UInt8)) :
    d.session blocks = (d.calls blocks).flatMap Call.visits := by
  induction blocks generalizing d with
  | nil => rfl
  | cons block blocks ih =>
      rw [Decoder.session, Decoder.calls, List.flatMap_cons, ih]
      rfl

/-- The call goes no further than this instruction and returns `TableSizeTooLarge`. -/
def Call.Rejects (c : Call) (v : Visit) : Prop :=
  c.visits.getLast? = some v ∧
    ∃ requested max, c.result = .error (.tableSizeTooLarge requested max)

theorem Visit.rejects_eq_true {v : Visit} :
    v.rejects = true ↔ ∃ requested max, v.read = .error (.tableSizeTooLarge requested max) := by
  unfold Visit.rejects
  split
  · rename_i requested max read
    exact iff_of_true rfl ⟨requested, max, read⟩
  · rename_i other
    refine iff_of_false Bool.false_ne_true ?_
    rintro ⟨requested, max, read⟩
    exact other requested max read

/-- What the call returns is what the instruction it stops at says. -/
theorem Call.rejects_iff {c : Call} {v : Visit} (met : v ∈ c.visits) :
    c.Rejects v ↔ v.rejects = true := by
  rw [Visit.rejects_eq_true]
  constructor
  · rintro ⟨last, requested, max, returned⟩
    obtain ⟨v', last', read⟩ := (decodeLoop_error_iff c.block _ c.decoder 0 []).mp returned
    obtain rfl : v = v' := Option.some_inj.mp (last.symm.trans last')
    exact ⟨requested, max, read⟩
  · rintro ⟨requested, max, read⟩
    have last : c.visits.getLast? = some v := visitsLoop_error_last c.block read _ c.decoder 0 met
    exact ⟨last, requested, max, (decodeLoop_error_iff c.block _ c.decoder 0 []).mpr ⟨v, last, read⟩⟩

/-- Every size update met makes its call return `TableSizeTooLarge` exactly when it asks for
more than `limit`. -/
def JudgedByLimit (limit : Nat) (calls : List Call) : Prop :=
  ∀ c ∈ calls, ∀ v ∈ c.visits, ∀ size, v.sizeUpdate? = some size → (c.Rejects v ↔ limit < size)

theorem judgedByLimit_visits {limit : Nat} {calls : List Call} :
    JudgedByLimit limit calls ↔ VisitsJudged limit (calls.flatMap Call.visits) := by
  constructor
  · intro judged v there size asked
    obtain ⟨c, called, met⟩ := List.mem_flatMap.mp there
    exact (Call.rejects_iff met).symm.trans (judged c called v met size asked)
  · intro judged c called v met size asked
    exact (Call.rejects_iff met).trans
      (judged v (List.mem_flatMap.mpr ⟨c, called, met⟩) size asked)

/-- **When updates are judged by the limit.** Over a whole session of calls the limit alone
decides which size updates `decode_headers` rejects, exactly when the sizes asked for
within it never grow. -/
theorem judgedByLimit_iff (limit : Nat) (blocks : List (List UInt8)) :
    JudgedByLimit limit ((Decoder.withMaxTableSize limit).calls blocks) ↔
      ((sizeUpdates ((Decoder.withMaxTableSize limit).session blocks)).filter
        (· ≤ limit)).Pairwise (· ≥ ·) := by
  have traced := session_traced (.withMaxTableSize limit) blocks
  rw [judgedByLimit_visits, ← session_eq_calls]
  refine (traced_visitsJudged traced (le_refl limit)).trans ?_
  rw [List.pairwise_cons]
  refine and_iff_right fun size there => ?_
  exact of_decide_eq_true (List.mem_filter.mp there).2

/-- A block that empties the table and then asks for 100 of the 4096 bytes announced: the
call fails. -/
theorem shrunk_table_stays_small :
    ((Decoder.withMaxTableSize 4096).decodeHeaders [0x20, 0x3f, 0x45]).2 =
      .error (.tableSizeTooLarge 100 0) ∧
    ¬ JudgedByLimit 4096 ((Decoder.withMaxTableSize 4096).calls [[0x20, 0x3f, 0x45]]) := by
  have returned : ((Decoder.withMaxTableSize 4096).decodeHeaders [0x20, 0x3f, 0x45]).2 =
      .error (.tableSizeTooLarge 100 0) := by rfl
  refine ⟨returned, ?_⟩
  intro judged
  have met : (Decoder.withMaxTableSize 4096).visits [0x20, 0x3f, 0x45] =
      [⟨.withMaxTableSize 4096, [0x20, 0x3f, 0x45], 0, 0x20⟩,
        ⟨.withMaxTableSize 0, [0x20, 0x3f, 0x45], 1, 0x3f⟩] := by rfl
  have regrow := judged ⟨.withMaxTableSize 4096, [0x20, 0x3f, 0x45]⟩ List.mem_cons_self
    ⟨.withMaxTableSize 0, [0x20, 0x3f, 0x45], 1, 0x3f⟩
    (by rw [Call.visits, met]; exact List.mem_cons_of_mem _ List.mem_cons_self) 100 (by decide)
  have rejected : Call.Rejects ⟨.withMaxTableSize 4096, [0x20, 0x3f, 0x45]⟩
      ⟨.withMaxTableSize 0, [0x20, 0x3f, 0x45], 1, 0x3f⟩ :=
    ⟨by rw [Call.visits, met]; rfl, 100, 0, returned⟩
  exact absurd (regrow.mp rejected) (by decide)

end Blasthttp.H2.Hpack
