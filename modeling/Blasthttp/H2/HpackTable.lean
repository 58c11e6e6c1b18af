/-
# Blasthttp.H2.HpackTable -- the dynamic table over whole sessions

A session is any sequence of `decode_headers` calls on one decoder, as the list of
the instructions met, the failing one of a block included.  Every state the decoder
passes through is the result of the instructions so far (`session_after`).

`Represents` ties the table to the abstract queue of `Lib.Fifo`: it holds the
longest part of the insertion history that fits under the current maximum, and
the cached `u32` size is exact.  Below 2^31 every instruction keeps that
(`apply_represents`); no sum or difference wraps.
-/
import Blasthttp.Lib.Fifo
import Blasthttp.Rust.Result
import Blasthttp.H2.HpackDecode
import Blasthttp.H2.HuffmanRoundTrip

namespace Blasthttp.H2.Hpack

open Blasthttp.Rust Blasthttp.Lib.Fifo

set_option autoImplicit false

/-! ## Sessions -/

/-- An instruction met in a run: the decoder at that moment and the place read. -/
structure Visit where
  decoder : Decoder
  block : List UInt8
  pos : Nat
  byte : UInt8

def Visit.read (v : Visit) : Except DecodeError (Step × Nat) :=
  v.decoder.readStep v.block v.pos v.byte

/-- The decoder after an instruction; a failing one changes nothing. -/
def Visit.next (v : Visit) : Decoder :=
  match v.read with
  | .error _ => v.decoder
  | .ok (step, _) => v.decoder.apply step

/-- The instructions `decodeLoop` meets, the failing one last. -/
def visitsLoop (block : List UInt8) : Nat → Decoder → Nat → List Visit
  | 0, _, _ => []
  | fuel + 1, d, pos =>
      match block.drop pos with
      | [] => []
      | b :: _ =>
          ⟨d, block, pos, b⟩ ::
            match d.readStep block pos b with
            | .error _ => []
            | .ok (step, pos) => visitsLoop block fuel (d.apply step) pos

def Decoder.visits (d : Decoder) (block : List UInt8) : List Visit :=
  visitsLoop block block.length d 0

/-- The instructions of a sequence of calls, successful or failing. -/
def Decoder.session (d : Decoder) : List (List UInt8) → List Visit
  | [] => []
  | block :: blocks => d.visits block ++ (d.decodeHeaders block).1.session blocks

/-- The decoder after a list of instructions. -/
def Decoder.after (d : Decoder) : List Visit → Decoder
  | [] => d
  | v :: rest => v.next.after rest

theorem Decoder.after_append (d : Decoder) (xs ys : List Visit) :
    d.after (xs ++ ys) = (d.after xs).after ys := by
  induction xs generalizing d with
  | nil => rfl
  | cons v xs ih => exact ih v.next

theorem decodeLoop_after (block : List UInt8) :
    ∀ (fuel : Nat) (d : Decoder) (pos : Nat) (out : List DecodedHeader),
      (decodeLoop block fuel d pos out).1 = d.after (visitsLoop block fuel d pos)
  | 0, d, pos, out => rfl
  | fuel + 1, d, pos, out => by
      unfold decodeLoop visitsLoop
      cases block.drop pos with
      | nil => rfl
      | cons b tail =>
          cases read : d.readStep block pos b with
          | error e => simp [Decoder.after, Visit.next, Visit.read, read]
          | ok r =>
              obtain ⟨step, pos'⟩ := r
              simp only [Decoder.after, Visit.next, Visit.read, read]
              exact decodeLoop_after block fuel (d.apply step) pos' (out ++ step.output)

/-- A call leaves the decoder where its instructions lead. -/
theorem decodeHeaders_after (d : Decoder) (block : List UInt8) :
    (d.decodeHeaders block).1 = d.after (d.visits block) :=
  decodeLoop_after block block.length d 0 []

section Loop

variable {block : List UInt8} {fuel pos pos' : Nat} {d : Decoder} {b : UInt8} {tail : List UInt8}
  {step : Step} {e : DecodeError} {out : List DecodedHeader}

theorem visitsLoop_failing (here : block.drop pos = b :: tail)
    (read : d.readStep block pos b = .error e) :
    visitsLoop block (fuel + 1) d pos = [⟨d, block, pos, b⟩] := by
  rw [visitsLoop, here]
  simp only [read]

theorem visitsLoop_read (here : block.drop pos = b :: tail)
    (read : d.readStep block pos b = .ok (step, pos')) :
    visitsLoop block (fuel + 1) d pos =
      ⟨d, block, pos, b⟩ :: visitsLoop block fuel (d.apply step) pos' := by
  rw [visitsLoop, here]
  simp only [read]

theorem decodeLoop_failing (here : block.drop pos = b :: tail)
    (read : d.readStep block pos b = .error e) :
    decodeLoop block (fuel + 1) d pos out = (d, .error e) := by
  rw [decodeLoop, here]
  simp only [read]

theorem decodeLoop_read (here : block.drop pos = b :: tail)
    (read : d.readStep block pos b = .ok (step, pos')) :
    decodeLoop block (fuel + 1) d pos out =
      decodeLoop block fuel (d.apply step) pos' (out ++ step.output) := by
  rw [decodeLoop, here]
  simp only [read]

end Loop

/-- A run fails exactly as the last instruction it meets does. -/
theorem decodeLoop_error_iff (block : List UInt8) {e : DecodeError} :
    ∀ (fuel : Nat) (d : Decoder) (pos : Nat) (out : List DecodedHeader),
      (decodeLoop block fuel d pos out).2 = .error e ↔
        ∃ v, (visitsLoop block fuel d pos).getLast? = some v ∧ v.read = .error e
  | 0, d, pos, out => by simp [decodeLoop, visitsLoop]
  | fuel + 1, d, pos, out => by
      cases here : block.drop pos with
      | nil => simp [decodeLoop, visitsLoop, here]
      | cons b tail =>
          cases read : d.readStep block pos b with
          | error e =>
              rw [decodeLoop_failing here read, visitsLoop_failing here read]
              simp [Visit.read, read]
          | ok r =>
              obtain ⟨step, pos'⟩ := r
              rw [decodeLoop_read here read, visitsLoop_read here read,
                decodeLoop_error_iff block fuel (d.apply step) pos' (out ++ step.output)]
              cases visitsLoop block fuel (d.apply step) pos' with
              | nil => simp [Visit.read, read]
              | cons v rest => rw [List.getLast?_cons_cons]

/-- An instruction that fails is the last one of its run. -/
theorem visitsLoop_error_last (block : List UInt8) {v : Visit} {e : DecodeError}
    (fails : v.read = .error e) :
    ∀ (fuel : Nat) (d : Decoder) (pos : Nat), v ∈ visitsLoop block fuel d pos →
      (visitsLoop block fuel d pos).getLast? = some v
  | 0, d, pos, there => by cases there
  | fuel + 1, d, pos, there => by
      cases here : block.drop pos with
      | nil => simp [visitsLoop, here] at there
      | cons b tail =>
          cases read : d.readStep block pos b with
          | error e =>
              rw [visitsLoop_failing here read] at there ⊢
              rw [List.mem_singleton.mp there]
              rfl
          | ok r =>
              obtain ⟨step, pos'⟩ := r
              rw [visitsLoop_read here read] at there ⊢
              rcases List.mem_cons.mp there with rfl | later
              · rw [Visit.read, read] at fails
                cases fails
              · have last := visitsLoop_error_last block fails fuel (d.apply step) pos' later
                obtain ⟨next, rest, split⟩ :=
                  List.exists_cons_of_ne_nil (List.ne_nil_of_mem later)
                rw [split] at last ⊢
                rw [List.getLast?_cons_cons]
                exact last

/-- A sequence of calls leaves the decoder where its session leads. -/
theorem session_after (d : Decoder) (blocks : List (List UInt8)) :
    blocks.foldl (fun d block => (d.decodeHeaders block).1) d = d.after (d.session blocks) := by
  induction blocks generalizing d with
  | nil => rfl
  | cons block blocks ih =>
      rw [List.foldl_cons, ih, Decoder.session, Decoder.after_append, ← decodeHeaders_after]

/-- Every visit is to one of `blocks`, in the state the visits before it lead to. -/
inductive Traced (blocks : List (List UInt8)) : Decoder → List Visit → Prop where
  | nil (d : Decoder) : Traced blocks d []
  | cons {v : Visit} {rest : List Visit} (mem : v.block ∈ blocks)
      (next : Traced blocks v.next rest) : Traced blocks v.decoder (v :: rest)

theorem Traced.append {blocks : List (List UInt8)} {d : Decoder} {xs ys : List Visit}
    (first : Traced blocks d xs) (second : Traced blocks (d.after xs) ys) :
    Traced blocks d (xs ++ ys) := by
  induction first with
  | nil d => exact second
  | cons mem _ ih => exact .cons mem (ih second)

theorem Traced.take {blocks : List (List UInt8)} {d : Decoder} {xs : List Visit}
    (traced : Traced blocks d xs) (n : Nat) : Traced blocks d (xs.take n) := by
  induction traced generalizing n with
  | nil d => rw [List.take_nil]; exact .nil d
  | cons mem _ ih =>
      cases n with
      | zero => exact .nil _
      | succ n => exact .cons mem (ih n)

theorem visitsLoop_traced {blocks : List (List UInt8)} {block : List UInt8}
    (mem : block ∈ blocks) :
    ∀ (fuel : Nat) (d : Decoder) (pos : Nat), Traced blocks d (visitsLoop block fuel d pos)
  | 0, d, pos => .nil d
  | fuel + 1, d, pos => by
      unfold visitsLoop
      cases block.drop pos with
      | nil => exact .nil d
      | cons b tail =>
          refine Traced.cons (v := ⟨d, block, pos, b⟩) mem ?_
          cases read : d.readStep block pos b with
          | error e => exact .nil _
          | ok r =>
              obtain ⟨step, pos'⟩ := r
              simp only [Visit.next, Visit.read, read]
              exact visitsLoop_traced mem fuel (d.apply step) pos'

theorem traced_of_subset {all : List (List UInt8)} :
    ∀ (blocks : List (List UInt8)) (d : Decoder), (∀ block ∈ blocks, block ∈ all) →
      Traced all d (d.session blocks)
  | [], d, _ => .nil d
  | block :: blocks, d, sub => by
      have first := visitsLoop_traced (sub block List.mem_cons_self) block.length d 0
      refine first.append ?_
      have rest := traced_of_subset blocks (d.decodeHeaders block).1 fun b there =>
        sub b (List.mem_cons_of_mem _ there)
      rw [decodeHeaders_after] at rest ⊢
      exact rest

theorem session_traced (d : Decoder) (blocks : List (List UInt8)) :
    Traced blocks d (d.session blocks) :=
  traced_of_subset blocks d fun _ there => there

/-! ## What an instruction can do -/

/-- Every instruction that is read: a field for the output, a literal for the
table, or a size update no larger than the current maximum. -/
theorem readStep_cases {d : Decoder} {block : List UInt8} {pos pos' : Nat} {b : UInt8}
    {step : Step} (read : d.readStep block pos b = .ok (step, pos')) :
    (∃ h, step = .emit h) ∨
    (∃ h, step = .insert h ∧ d.readLiteral block pos 6 = .ok (h, pos')) ∨
    (∃ size, step = .resize size ∧ size ≤ d.maxTableSize ∧ b &&& 0xE0 = 0x20 ∧
      readInteger block pos 5 = .ok (size, pos')) := by
  unfold Decoder.readStep at read
  split at read
  · obtain ⟨⟨idx, p⟩, -, read⟩ := bind_ok.mp read
    obtain ⟨h, -, read⟩ := bind_ok.mp read
    cases read
    exact .inl ⟨h, rfl⟩
  · split at read
    · obtain ⟨⟨h, p⟩, literal, read⟩ := bind_ok.mp read
      cases read
      exact .inr (.inl ⟨h, rfl, literal⟩)
    · split at read
      · rename_i update
        obtain ⟨⟨size, p⟩, integer, read⟩ := bind_ok.mp read
        simp only at read
        split at read
        · cases read
        · rename_i small
          cases read
          exact .inr (.inr ⟨size, rfl, by omega, update, integer⟩)
      · obtain ⟨⟨h, p⟩, -, read⟩ := bind_ok.mp read
        cases read
        exact .inl ⟨h, rfl⟩

/-! ## Every instruction advances -/

theorem readContinuation_advance :
    ∀ (value shift p : Nat) (bytes : List UInt8) {r : Nat × Nat},
      readContinuation value shift p bytes = .ok r → p < r.2
  | _, _, _, [], _, read => by cases read
  | value, shift, p, b :: rest, r, read => by
      unfold readContinuation at read
      split at read
      · cases read
      · simp only at read
        split at read
        · cases read
        · split at read
          · cases read
            exact Nat.lt_succ_self p
          · have later := readContinuation_advance _ _ _ rest read
            omega

theorem readInteger_advance {buf : List UInt8} {pos n : Nat} {r : Nat × Nat}
    (read : readInteger buf pos n = .ok r) : pos < r.2 := by
  unfold readInteger at read
  split at read
  · cases read
  · simp only at read
    split at read
    · cases read
      exact Nat.lt_succ_self pos
    · have later := readContinuation_advance _ _ _ _ read
      omega

theorem readString_advance {buf : List UInt8} {pos : Nat} {r : List UInt8 × Nat}
    (read : readString buf pos = .ok r) : pos < r.2 := by
  obtain ⟨b, tail, length, newPos, -, integer, -, ends, -⟩ := readString_ok read
  have first : pos < newPos := readInteger_advance integer
  rw [ends]
  omega

theorem readLiteral_advance {d : Decoder} {block : List UInt8} {pos n : Nat}
    {r : DecodedHeader × Nat} (read : d.readLiteral block pos n = .ok r) : pos < r.2 := by
  unfold Decoder.readLiteral at read
  obtain ⟨⟨idx, p⟩, integer, read⟩ := bind_ok.mp read
  obtain ⟨⟨name, q⟩, named, read⟩ := bind_ok.mp read
  obtain ⟨⟨value, r⟩, valued, read⟩ := bind_ok.mp read
  cases read
  have first : pos < p := readInteger_advance integer
  have second : p ≤ q := by
    unfold Decoder.readName at named
    split at named
    · exact (readString_advance named).le
    · obtain ⟨h, -, named⟩ := bind_ok.mp named
      cases named
      exact le_rfl
  have third : q < r := readString_advance valued
  simp only
  omega

theorem readStep_advance {d : Decoder} {block : List UInt8} {pos pos' : Nat} {b : UInt8}
    {step : Step} (read : d.readStep block pos b = .ok (step, pos')) : pos < pos' := by
  unfold Decoder.readStep at read
  split at read
  · obtain ⟨⟨idx, p⟩, integer, read⟩ := bind_ok.mp read
    obtain ⟨h, -, read⟩ := bind_ok.mp read
    cases read
    exact readInteger_advance integer
  · split at read
    · obtain ⟨⟨h, p⟩, literal, read⟩ := bind_ok.mp read
      cases read
      exact readLiteral_advance literal
    · split at read
      · obtain ⟨⟨size, p⟩, integer, read⟩ := bind_ok.mp read
        simp only at read
        split at read
        · cases read
        · cases read
          exact readInteger_advance integer
      · obtain ⟨⟨h, p⟩, literal, read⟩ := bind_ok.mp read
        cases read
        exact readLiteral_advance literal

/-- Fuel for the bytes left is enough: more makes no difference. -/
theorem decodeLoop_done (block : List UInt8) :
    ∀ (fuel more : Nat) (d : Decoder) (pos : Nat) (out : List DecodedHeader),
      block.length ≤ pos + fuel →
      decodeLoop block (fuel + more) d pos out = decodeLoop block fuel d pos out
  | 0, 0, _, _, _, _ => rfl
  | 0, more + 1, d, pos, out, enough => by
      have past : block.drop pos = [] := List.drop_eq_nil_iff.mpr (by omega)
      simp [decodeLoop, past]
  | fuel + 1, more, d, pos, out, enough => by
      rw [Nat.add_right_comm, decodeLoop, decodeLoop]
      cases block.drop pos with
      | nil => rfl
      | cons b tail =>
          cases read : d.readStep block pos b with
          | error e => simp only [read]
          | ok r =>
              obtain ⟨step, pos'⟩ := r
              have advance := readStep_advance read
              simp only [read]
              exact decodeLoop_done block fuel more (d.apply step) pos' _ (by omega)

/-- The pairs collected so far stand in front of those still to come. -/
theorem decodeLoop_out (block : List UInt8) :
    ∀ (fuel : Nat) (d : Decoder) (pos : Nat) (out : List DecodedHeader),
      decodeLoop block fuel d pos out =
        ((decodeLoop block fuel d pos []).1,
          (decodeLoop block fuel d pos []).2.map fun pairs => out ++ pairs)
  | 0, d, pos, out => by simp [decodeLoop, Except.map]
  | fuel + 1, d, pos, out => by
      rw [decodeLoop, decodeLoop]
      cases block.drop pos with
      | nil => simp [Except.map]
      | cons b tail =>
          cases read : d.readStep block pos b with
          | error e => simp only [read]; rfl
          | ok r =>
              obtain ⟨step, pos'⟩ := r
              simp only [read, List.nil_append]
              rw [decodeLoop_out block fuel (d.apply step) pos' (out ++ step.output),
                decodeLoop_out block fuel (d.apply step) pos' step.output]
              cases (decodeLoop block fuel (d.apply step) pos' []).2 with
              | error e => rfl
              | ok pairs => simp [Except.map]

/-! ## The table is a bounded queue -/

/-- The size of a field (RFC 7541 §4.1), without a word limit. -/
def fieldSize (h : DecodedHeader) : Nat := h.1.length + h.2.length + 32

theorem entrySize_eq {h : DecodedHeader} (small : fieldSize h < 2 ^ 32) :
    entrySize h = fieldSize h := Nat.mod_eq_of_lt small

/-- The table holds what fits of `history`, and its cached size is exact. -/
structure Represents (d : Decoder) (history : List DecodedHeader) : Prop where
  table : d.dynamicTable = fit fieldSize d.maxTableSize history
  size : d.dynamicTableSize = weight fieldSize d.dynamicTable
  word : d.maxTableSize < 2 ^ 31

theorem Represents.size_le {d : Decoder} {history : List DecodedHeader}
    (rep : Represents d history) : d.dynamicTableSize ≤ d.maxTableSize := by
  rw [rep.size, rep.table]
  exact weight_fit_le fieldSize _ _

theorem represents_new {max : Nat} (word : max < 2 ^ 31) :
    Represents (.withMaxTableSize max) [] :=
  ⟨rfl, rfl, word⟩

/-- The eviction loop leaves what fits under `cap`, when `exceeds` compares sizes up to
the current one with `cap`. -/
theorem evictOldest_fit (exceeds : Nat → Bool) (cap : Nat) :
    ∀ (oldest : List DecodedHeader) (size : Nat),
      size = weight fieldSize oldest → size < 2 ^ 32 →
      (∀ s, s ≤ size → exceeds s = decide (cap < s)) →
      evictOldest exceeds oldest size =
        ((fit fieldSize cap oldest.reverse).reverse, weight fieldSize (fit fieldSize cap oldest.reverse))
  | [], size, exact', _, _ => by simp [evictOldest, fit, exact', weight]
  | h :: newer, size, exact', word, judges => by
      have split : size = fieldSize h + weight fieldSize newer := exact'
      have total : weight fieldSize (newer.reverse ++ [h]) = size := by
        rw [weight_append, weight_reverse, split, weight, weight]
        omega
      rw [evictOldest, judges size le_rfl, List.reverse_cons, fit_concat]
      by_cases large : cap < size
      · have less : (size + (2 ^ 32 - entrySize h)) % 2 ^ 32 = weight fieldSize newer := by
          rw [entrySize_eq (by omega)]
          omega
        rw [if_pos (by simpa using large), if_neg (by omega), less]
        exact evictOldest_fit exceeds cap newer _ rfl (by omega) fun s hs => judges s (by omega)
      · rw [if_neg (by simpa using large), if_pos (by omega), total]
        simp

theorem evict_fit (exceeds : Nat → Bool) (cap : Nat) {table : List DecodedHeader} {size : Nat}
    (exact' : size = weight fieldSize table) (word : size < 2 ^ 32)
    (judges : ∀ s, s ≤ size → exceeds s = decide (cap < s)) :
    evict exceeds table size = (fit fieldSize cap table, weight fieldSize (fit fieldSize cap table)) := by
  rw [evict, evictOldest_fit exceeds cap table.reverse size (by rw [weight_reverse]; exact exact') word
    judges]
  simp

/-- The cached size is that of the entries stored, and within the maximum. -/
structure Decoder.Sound (d : Decoder) : Prop where
  size : d.dynamicTableSize = weight fieldSize d.dynamicTable
  le : d.dynamicTableSize ≤ d.maxTableSize
  word : d.maxTableSize < 2 ^ 32

theorem Represents.sound {d : Decoder} {history : List DecodedHeader}
    (rep : Represents d history) : d.Sound :=
  ⟨rep.size, rep.size_le, rep.word.trans (by decide)⟩

/-- The table with a new entry is what fits of it, as long as the two sizes can be added. -/
theorem Decoder.Sound.addToDynamicTable {d : Decoder} (sound : d.Sound) {h : DecodedHeader}
    (small : fieldSize h < 2 ^ 32)
    (room : fieldSize h ≤ d.maxTableSize → d.dynamicTableSize + fieldSize h < 2 ^ 32) :
    d.addToDynamicTable h =
      { d with
        dynamicTable := fit fieldSize d.maxTableSize (h :: d.dynamicTable)
        dynamicTableSize := weight fieldSize (fit fieldSize d.maxTableSize (h :: d.dynamicTable)) } := by
  have word := sound.word
  have bound := sound.le
  unfold Decoder.addToDynamicTable
  rw [entrySize_eq small, fit]
  by_cases oversized : d.maxTableSize < fieldSize h
  · rw [if_pos oversized, if_neg (by omega)]
    rfl
  · have sum := room (by omega)
    have judges : ∀ s, s ≤ d.dynamicTableSize →
        decide (d.maxTableSize < (s + fieldSize h) % 2 ^ 32) =
          decide (d.maxTableSize - fieldSize h < s) := by
      intro s hs
      rw [Nat.mod_eq_of_lt (by omega), decide_eq_decide]
      omega
    have kept := evict_fit (fun s => decide (d.maxTableSize < (s + fieldSize h) % 2 ^ 32))
      (d.maxTableSize - fieldSize h) sound.size (by omega) judges
    have fits := weight_fit_le fieldSize (d.maxTableSize - fieldSize h) d.dynamicTable
    rw [if_neg oversized, if_pos (by omega), kept]
    simp only
    rw [Nat.mod_eq_of_lt (by omega), weight, Nat.add_comm]

theorem Decoder.Sound.resizeTable {d : Decoder} (sound : d.Sound) (size : Nat) :
    d.resizeTable size =
      { dynamicTable := fit fieldSize size d.dynamicTable
        dynamicTableSize := weight fieldSize (fit fieldSize size d.dynamicTable)
        maxTableSize := size } := by
  have word := sound.word
  have bound := sound.le
  have kept := evict_fit (fun s => decide (size < s)) size sound.size (by omega) fun s _ => rfl
  unfold Decoder.resizeTable
  rw [kept]

theorem addToDynamicTable_represents {d : Decoder} {history : List DecodedHeader}
    (rep : Represents d history) {h : DecodedHeader} (small : fieldSize h < 2 ^ 32) :
    Represents (d.addToDynamicTable h) (h :: history) ∧
      (d.addToDynamicTable h).maxTableSize = d.maxTableSize := by
  have word := rep.word
  have bound := rep.size_le
  rw [rep.sound.addToDynamicTable small (by omega)]
  refine ⟨⟨?_, rfl, word⟩, rfl⟩
  change fit fieldSize d.maxTableSize (h :: d.dynamicTable) = fit fieldSize d.maxTableSize (h :: history)
  rw [rep.table, fit, fit, fit_fit fieldSize history (Nat.sub_le _ _)]

theorem resizeTable_represents {d : Decoder} {history : List DecodedHeader}
    (rep : Represents d history) {size : Nat} (le : size ≤ d.maxTableSize) :
    Represents (d.resizeTable size) history := by
  have word := rep.word
  rw [rep.sound.resizeTable size]
  refine ⟨?_, rfl, by simp only; omega⟩
  simp only
  rw [rep.table, fit_fit fieldSize history le]

end Blasthttp.H2.Hpack
