/-
# Blasthttp.H2.HpackAppend -- decoding block by block or in one piece

No reader of the decoder looks past the instruction it is in: each is `Local`, its
errors shifting with the position they name.  So the loop over two blocks joined is
the loop over the first, then the loop over the second from the decoder the first
left (`decoding_compositional`), and a list of blocks may be joined at any instruction
boundary (`decodeHeaders_flatten`).
-/
import Blasthttp.Lib.Cursor
import Blasthttp.H2.HpackTable

namespace Blasthttp.H2.Hpack

open Blasthttp.Rust Blasthttp.Lib.Cursor

set_option autoImplicit false

/-- An error of a block that `k` bytes were put in front of. -/
def DecodeError.shift (k : Nat) : DecodeError → DecodeError
  | .unexpectedEof pos => .unexpectedEof (k + pos)
  | e => e

/-! ## Readers -/

theorem readContinuation_extend :
    ∀ (value shift p : Nat) (bytes more : List UInt8) {r : Nat × Nat},
      readContinuation value shift p bytes = .ok r →
      readContinuation value shift p (bytes ++ more) = .ok r
  | _, _, _, [], _, _, read => by cases read
  | value, shift, p, b :: rest, more, r, read => by
      rw [List.cons_append]
      unfold readContinuation at read ⊢
      by_cases room : 32 ≤ shift
      · rw [if_pos room] at read
        cases read
      · rw [if_neg room] at read ⊢
        simp only at read ⊢
        split at read
        · cases read
        · rename_i fits
          rw [if_neg fits]
          split at read
          · rename_i last
            rw [if_pos last]
            exact read
          · rename_i goes
            rw [if_neg goes]
            exact readContinuation_extend _ _ _ rest more read

theorem readContinuation_shift (k : Nat) :
    ∀ (value shift p : Nat) (bytes : List UInt8),
      readContinuation value shift (k + p) bytes =
        moved DecodeError.shift k (readContinuation value shift p bytes)
  | _, _, _, [] => rfl
  | value, shift, p, b :: rest => by
      have later := readContinuation_shift k
        (value + ((b &&& 0x7F).toNat <<< shift) % 2 ^ 32) (shift + 7) (p + 1) rest
      unfold readContinuation
      split
      · rfl
      · simp only
        split
        · rfl
        · split
          · rfl
          · exact later

theorem readContinuation_inside :
    ∀ (value shift p : Nat) (bytes : List UInt8) {r : Nat × Nat},
      readContinuation value shift p bytes = .ok r → r.2 ≤ p + bytes.length
  | _, _, _, [], _, read => by cases read
  | value, shift, p, b :: rest, r, read => by
      unfold readContinuation at read
      rw [List.length_cons]
      split at read
      · cases read
      · simp only at read
        split at read
        · cases read
        · split at read
          · cases read
            simp only
            omega
          · have later := readContinuation_inside _ _ _ rest read
            omega

/-- What stands at a position stays there when bytes are put behind. -/
theorem drop_extend {a : List UInt8} {pos : Nat} {c : UInt8} {tail : List UInt8} (b : List UInt8)
    (here : a.drop pos = c :: tail) : (a ++ b).drop pos = c :: (tail ++ b) := by
  have within : pos ≤ a.length := by
    by_contra past
    rw [List.drop_eq_nil_of_le (by omega)] at here
    cases here
  rw [List.drop_append_of_le_length within, here, List.cons_append]

theorem readInteger_local (n : Nat) :
    Local DecodeError.shift fun buf pos => readInteger buf pos n where
  extend := by
    intro a pos r b read
    unfold readInteger at read ⊢
    cases here : a.drop pos with
    | nil =>
        rw [here] at read
        cases read
    | cons c tail =>
        rw [here] at read
        rw [drop_extend b here]
        simp only at read ⊢
        split at read
        · rename_i small
          rw [if_pos small]
          exact read
        · rename_i full
          rw [if_neg full]
          exact readContinuation_extend _ _ _ tail b read
  shift := by
    intro a b pos
    unfold readInteger
    rw [drop_shift]
    cases b.drop pos with
    | nil => rfl
    | cons c tail =>
        simp only
        split
        · rfl
        · exact readContinuation_shift a.length _ _ (pos + 1) tail
  inside := by
    intro a pos r within read
    unfold readInteger at read
    cases here : a.drop pos with
    | nil =>
        rw [here] at read
        cases read
    | cons c tail =>
        have size := congrArg List.length here
        rw [List.length_drop, List.length_cons] at size
        rw [here] at read
        simp only at read
        split at read
        · cases read
          simp only
          omega
        · have later := readContinuation_inside _ _ _ tail read
          omega

theorem readString_local : Local DecodeError.shift readString where
  extend := by
    intro a pos r b read
    obtain ⟨c, tail, length, newPos, here, integer, within, ends, payload⟩ := readString_ok read
    have raw : ((a ++ b).drop newPos).take length = (a.drop newPos).take length := by
      rw [List.drop_append_of_le_length (by omega),
        List.take_append_of_le_length (by rw [List.length_drop]; omega)]
    unfold readString
    rw [drop_extend b here]
    simp only [(readInteger_local 7).extend b integer, raw]
    rw [if_neg (by rw [List.length_append]; omega)]
    rcases payload with ⟨coded, decoded⟩ | ⟨plain, same⟩
    · rw [if_pos coded, decoded, ← ends]
    · rw [if_neg (by simpa using plain), ← same, ← ends]
  shift := by
    intro a b pos
    unfold readString
    rw [drop_shift]
    cases b.drop pos with
    | nil => rfl
    | cons c tail =>
        have integer := (readInteger_local 7).shift a b pos
        simp only at integer ⊢
        rw [integer]
        cases readInteger b pos 7 with
        | error e => rfl
        | ok r =>
            obtain ⟨length, newPos⟩ := r
            have over' : (a ++ b).length < a.length + newPos + length ↔
                b.length < newPos + length := by
              rw [List.length_append]
              omega
            simp only [moved, drop_shift, over']
            split
            · rw [Nat.add_assoc]
              rfl
            · split
              · cases Huffman.decode ((b.drop newPos).take length) with
                | error e => rfl
                | ok bytes => simp only [Nat.add_assoc]
              · simp only [Nat.add_assoc]
  inside := by
    intro a pos r _ read
    obtain ⟨_, _, length, newPos, -, -, within, ends, -⟩ := readString_ok read
    omega

section Literals

variable (d : Decoder)

theorem lookupIndex_still {idx : Nat} {e : DecodeError} (failed : d.lookupIndex idx = .error e)
    (k : Nat) : e.shift k = e := by
  unfold Decoder.lookupIndex at failed
  split at failed
  · cases failed
    rfl
  · split at failed
    · cases failed
    · split at failed
      · cases failed
      · cases failed
        rfl

/-- A table lookup between two reads. -/
theorem lookupIndex_local {γ : Type} (idx : Nat) {next : DecodedHeader → Reader UInt8 DecodeError γ}
    (then' : ∀ h, Local DecodeError.shift (next h)) :
    Local DecodeError.shift fun block pos => (d.lookupIndex idx).bind fun h => next h block pos := by
  cases found : d.lookupIndex idx with
  | error e => exact .error (lookupIndex_still d found)
  | ok h => exact then' h

theorem readName_local (idx : Nat) :
    Local DecodeError.shift fun block pos => d.readName block idx pos := by
  have found := lookupIndex_local d idx fun h => .pure h.1
  exact .ite (idx = 0) readString_local found

theorem readLiteral_local (n : Nat) :
    Local DecodeError.shift fun block pos => d.readLiteral block pos n := by
  have read := (readInteger_local n).bind fun idx => (readName_local d idx).bind fun name =>
    readString_local.bind fun value => .pure (name, value)
  exact read

/-- One instruction is read without looking past it. -/
theorem readStep_local (b : UInt8) :
    Local DecodeError.shift fun block pos => d.readStep block pos b := by
  have indexed := (readInteger_local 7).bind fun idx =>
    lookupIndex_local d idx fun h => .pure (Step.emit h)
  have inserted := (readLiteral_local d 6).bind fun h => .pure (Step.insert h)
  have update := (readInteger_local 5).bind fun size =>
    .ite (d.maxTableSize < size)
      (.error (e := DecodeError.tableSizeTooLarge size d.maxTableSize) fun _ => rfl)
      (.pure (Step.resize size))
  have emitted := (readLiteral_local d 4).bind fun h => .pure (Step.emit h)
  exact .ite (b &&& 0x80 ≠ 0) indexed
    (.ite (b &&& 0xC0 = 0x40) inserted (.ite (b &&& 0xE0 = 0x20) update emitted))

end Literals

/-! ## Blocks -/

/-- The loop over a second block behind a first, from where the second starts. -/
theorem decodeLoop_shift (a b : List UInt8) :
    ∀ (fuel : Nat) (d : Decoder) (pos : Nat) (out : List DecodedHeader),
      decodeLoop (a ++ b) fuel d (a.length + pos) out =
        ((decodeLoop b fuel d pos out).1,
          (decodeLoop b fuel d pos out).2.mapError (DecodeError.shift a.length))
  | 0, d, pos, out => rfl
  | fuel + 1, d, pos, out => by
      rw [decodeLoop, decodeLoop, drop_shift]
      cases b.drop pos with
      | nil => rfl
      | cons c tail =>
          have moved' := (readStep_local d c).shift a b pos
          simp only at moved' ⊢
          rw [moved']
          cases d.readStep b pos c with
          | error e => rfl
          | ok r => exact decodeLoop_shift a b fuel (d.apply r.1) r.2 (out ++ r.1.output)

/-- The loop over two blocks does with the first what it does with it alone. -/
theorem decodeLoop_extend {a : List UInt8} (b : List UInt8) {d' : Decoder}
    {pairs : List DecodedHeader} :
    ∀ (fuel : Nat) (d : Decoder) (pos : Nat) (out : List DecodedHeader),
      pos ≤ a.length → a.length ≤ pos + fuel → decodeLoop a fuel d pos out = (d', .ok pairs) →
      ∀ more, b.length ≤ more →
        decodeLoop (a ++ b) (fuel + more) d pos out = decodeLoop (a ++ b) b.length d' a.length pairs := by
  intro fuel
  have rest : ∀ (d : Decoder) (out : List DecodedHeader) (fuel : Nat), b.length ≤ fuel →
      decodeLoop (a ++ b) fuel d a.length out = decodeLoop (a ++ b) b.length d a.length out := by
    intro d out fuel enough
    rw [← Nat.add_sub_cancel' enough]
    exact decodeLoop_done (a ++ b) b.length _ d a.length out (by rw [List.length_append])
  induction fuel with
  | zero =>
      intro d pos out within enough ended more large
      cases ended
      obtain rfl : pos = a.length := by omega
      exact rest _ _ (0 + more) (by omega)
  | succ fuel ih =>
      intro d pos out within enough ended more large
      cases here : a.drop pos with
      | nil =>
          have last : pos = a.length := by
            have none := List.drop_eq_nil_iff.mp here
            omega
          rw [decodeLoop, here] at ended
          cases ended
          rw [last]
          exact rest _ _ (fuel + 1 + more) (by omega)
      | cons c tail =>
          rw [decodeLoop, here] at ended
          simp only at ended
          cases read : d.readStep a pos c with
          | error e =>
              rw [read] at ended
              cases ended
          | ok r =>
              rw [read] at ended
              have same := (readStep_local d c).extend b read
              have inside := (readStep_local d c).inside within read
              have advance : pos < r.2 := readStep_advance read
              rw [Nat.add_right_comm, decodeLoop, drop_extend b here]
              simp only at same ⊢
              rw [same]
              exact ih (d.apply r.1) r.2 _ inside (by omega) ended more large

/-- Two blocks joined, when the first decodes. -/
theorem decodeHeaders_append {d d' : Decoder} {a : List UInt8} {xs : List DecodedHeader}
    (first : d.decodeHeaders a = (d', .ok xs)) (b : List UInt8) :
    d.decodeHeaders (a ++ b) =
      ((d'.decodeHeaders b).1,
        ((d'.decodeHeaders b).2.map fun ys => xs ++ ys).mapError (DecodeError.shift a.length)) := by
  have joined := decodeLoop_extend b a.length d 0 [] (Nat.zero_le _) (by omega) first b.length le_rfl
  have behind := decodeLoop_shift a b b.length d' 0 xs
  rw [Nat.add_zero, decodeLoop_out b b.length d' 0 xs] at behind
  unfold Decoder.decodeHeaders
  rw [List.length_append, joined, behind]

/-- **Decoding is compositional.** A block that decodes may be joined with any other:
the pairs of both, or the other's error at its place, and the other's decoder. -/
theorem decoding_compositional (d d' : Decoder) (a b : List UInt8) (xs : List DecodedHeader)
    (first : d.decodeHeaders a = (d', .ok xs)) :
    (∀ d'' ys, d'.decodeHeaders b = (d'', .ok ys) → d.decodeHeaders (a ++ b) = (d'', .ok (xs ++ ys))) ∧
    (∀ d'' e, d'.decodeHeaders b = (d'', .error e) →
      d.decodeHeaders (a ++ b) = (d'', .error (e.shift a.length))) := by
  rw [decodeHeaders_append first b]
  constructor
  · intro d'' ys second
    rw [second]
    rfl
  · intro d'' e second
    rw [second]
    rfl

/-- A literal for the table, then a string that is cut short: the error names the place
in the joined block. -/
theorem decoding_compositional_cut :
    (Decoder.withMaxTableSize 4096).decodeHeaders ([0x40, 1, 97, 1, 98] ++ [0xBE, 0x40, 5, 97]) =
      (⟨[([97], [98])], 34, 4096⟩, .error (.unexpectedEof 13)) :=
  (decoding_compositional (.withMaxTableSize 4096) ⟨[([97], [98])], 34, 4096⟩ [0x40, 1, 97, 1, 98]
    [0xBE, 0x40, 5, 97] [([97], [98])] (by decide)).2 _ (.unexpectedEof 8) (by decide)

/-- Blocks decoded one after the other on one decoder, all of them successfully. -/
inductive BlockByBlock : Decoder → List (List UInt8) → List DecodedHeader → Decoder → Prop
  | nil (d : Decoder) : BlockByBlock d [] [] d
  | cons {d d' d'' : Decoder} {block : List UInt8} {blocks : List (List UInt8)}
      {xs ys : List DecodedHeader} (first : d.decodeHeaders block = (d', .ok xs))
      (rest : BlockByBlock d' blocks ys d'') : BlockByBlock d (block :: blocks) (xs ++ ys) d''

/-- In one piece they yield the same pairs and leave the same decoder. -/
theorem decodeHeaders_flatten {d d' : Decoder} {blocks : List (List UInt8)}
    {pairs : List DecodedHeader} (steps : BlockByBlock d blocks pairs d') :
    d.decodeHeaders blocks.flatten = (d', .ok pairs) := by
  induction steps with
  | nil d => rfl
  | cons first _ ih =>
      rw [List.flatten_cons, decodeHeaders_append first, ih]
      rfl

end Blasthttp.H2.Hpack
