/-
# Blasthttp.Rust.Read -- `std::io::Read` behind `take`

A reader fills part of the buffer it is handed, or fails.  Behind `take`, whatever it
produces and however the buffer grows, no more than the limit comes out
(`takeToEnd_length`).  What a reader is good for is said of the bytes it has handed over
after any reads (`Delivers`, `Rejects`); what comes out behind `take` is said of the reads
with just the room it leaves (`HandedIn`).
-/
import Blasthttp.Rust.Str

namespace Blasthttp.Rust

set_option autoImplicit false

/-- A reader and the data it stands on; an error is its text. -/
structure Reader (State : Type) where
  read : State → Nat → Except Str (List UInt8) × State
  /-- The contract of `Read::read`: no more than the buffer takes. -/
  fits : ∀ {s room bytes}, (read s room).1 = .ok bytes → bytes.length ≤ room

variable {State : Type}

/-- `take(limit)` and `read_to_end` into `buf`, which has `grow buf + 1` bytes of room
for the next read; with it, the error that ended the reading.  `take` does not ask the
reader again once the limit is used up. -/
def Reader.takeToEnd (reader : Reader State) (grow : List UInt8 → Nat) (limit : Nat) (s : State)
    (buf : List UInt8) : List UInt8 × Option Str :=
  if _usedUp : limit = 0 then (buf, none)
  else
    match reader.read s (min (grow buf + 1) limit) with
    | (.error e, _) => (buf, some e)
    | (.ok bytes, s') =>
        if _ended : bytes = [] then (buf, none)
        else takeToEnd reader grow (limit - bytes.length) s' (buf ++ bytes)
  termination_by limit
  decreasing_by
    have some_read := List.length_pos_iff.mpr _ended
    omega

theorem takeToEnd_length (reader : Reader State) (grow : List UInt8 → Nat) (limit : Nat)
    (s : State) (buf : List UInt8) :
    (reader.takeToEnd grow limit s buf).1.length ≤ buf.length + limit := by
  fun_induction Reader.takeToEnd reader grow limit s buf with
  | case1 s buf => exact Nat.le_add_right _ _
  | case2 limit s buf usedUp e s' failed => exact Nat.le_add_right _ _
  | case3 limit s buf usedUp s' read => exact Nat.le_add_right _ _
  | case4 limit s buf usedUp bytes s' read nonempty ih =>
      have room : bytes.length ≤ min (grow buf + 1) limit := reader.fits (by rw [read])
      rw [List.length_append] at ih
      omega

/-! ## What is handed over -/

/-- Reads from `s`, each with some room, hand over these bytes and leave the reader
there. -/
inductive Reader.Handed (reader : Reader State) (s : State) : List UInt8 → State → Prop
  | start : Handed reader s [] s
  | more {bytes piece : List UInt8} {t u : State} {room : Nat} : Handed reader s bytes t →
      0 < room → piece ≠ [] → reader.read t room = (.ok piece, u) →
      Handed reader s (bytes ++ piece) u

/-- However the reads go, they hand over `out` and end behind it. -/
def Reader.Delivers (reader : Reader State) (s : State) (out : List UInt8) : Prop :=
  ∀ bytes t, reader.Handed s bytes t → bytes <+: out ∧
    ∀ room, 0 < room →
      ∃ piece u, reader.read t room = (.ok piece, u) ∧ (piece = [] → bytes = out)

/-- However the reads go, they hand over nothing but the front of `out`, and no end. -/
def Reader.Rejects (reader : Reader State) (s : State) (out : List UInt8) : Prop :=
  ∀ bytes t, reader.Handed s bytes t → bytes <+: out ∧
    ∀ room u, 0 < room → reader.read t room ≠ (.ok [], u)

variable {reader : Reader State} {s : State} {out : List UInt8}

theorem takeToEnd_delivers (delivers : reader.Delivers s out) {grow : List UInt8 → Nat}
    {limit : Nat} {t : State} {buf : List UInt8} (handed : reader.Handed s buf t) :
    reader.takeToEnd grow limit t buf = (buf ++ (out.drop buf.length).take limit, none) := by
  fun_induction Reader.takeToEnd reader grow limit t buf with
  | case1 t buf => simp
  | case2 limit t buf usedUp e u failed =>
      obtain ⟨piece, u', read, -⟩ :=
        (delivers buf t handed).2 (min (grow buf + 1) limit) (by omega)
      rw [failed] at read
      cases read
  | case3 limit t buf usedUp u ended =>
      obtain ⟨piece, u', read, whole⟩ :=
        (delivers buf t handed).2 (min (grow buf + 1) limit) (by omega)
      rw [ended] at read
      cases read
      simp [whole rfl]
  | case4 limit t buf usedUp bytes u read nonempty ih =>
      have room : bytes.length ≤ min (grow buf + 1) limit := reader.fits (by rw [read])
      have further := Reader.Handed.more handed (by omega) nonempty read
      obtain ⟨tail, rfl⟩ := (delivers _ u further).1
      have fits : (bytes ++ tail).take limit = bytes ++ tail.take (limit - bytes.length) := by
        rw [List.take_append, List.take_of_length_le (by omega)]
      rw [ih further, List.drop_left, List.append_assoc buf bytes tail, List.drop_left, fits,
        List.append_assoc]

theorem takeToEnd_rejects (rejects : reader.Rejects s out) {grow : List UInt8 → Nat}
    {limit : Nat} {t : State} {buf : List UInt8} (handed : reader.Handed s buf t) :
    (reader.takeToEnd grow limit t buf).1 <+: out ∧
      ((reader.takeToEnd grow limit t buf).2 = none →
        (reader.takeToEnd grow limit t buf).1.length = buf.length + limit) := by
  fun_induction Reader.takeToEnd reader grow limit t buf with
  | case1 t buf => exact ⟨(rejects buf t handed).1, fun _ => rfl⟩
  | case2 limit t buf usedUp e u failed =>
      exact ⟨(rejects buf t handed).1, fun clean => by cases clean⟩
  | case3 limit t buf usedUp u ended =>
      exact absurd ended ((rejects buf t handed).2 (min (grow buf + 1) limit) u (by omega))
  | case4 limit t buf usedUp bytes u read nonempty ih =>
      have room : bytes.length ≤ min (grow buf + 1) limit := reader.fits (by rw [read])
      obtain ⟨front, filled⟩ := ih (.more handed (by omega) nonempty read)
      refine ⟨front, fun clean => ?_⟩
      rw [filled clean, List.length_append]
      omega

/-! ## With room for room -/

/-- Reads from `s`, each with the room that goes with what was handed over before, hand
over these bytes and leave the reader there. -/
inductive Reader.HandedIn (reader : Reader State) (room : List UInt8 → Nat) (s : State) :
    List UInt8 → State → Prop
  | start : HandedIn reader room s [] s
  | more {bytes piece : List UInt8} {t u : State} : HandedIn reader room s bytes t →
      0 < room bytes → piece ≠ [] → reader.read t (room bytes) = (.ok piece, u) →
      HandedIn reader room s (bytes ++ piece) u

/-- Read that way it fails, behind these bytes. -/
def Reader.FailsBehind (reader : Reader State) (room : List UInt8 → Nat) (s : State)
    (bytes : List UInt8) : Prop :=
  ∃ t e u, reader.HandedIn room s bytes t ∧ 0 < room bytes ∧
    reader.read t (room bytes) = (.error e, u)

/-- The room of each read of `read_to_end` behind `take`. -/
def takeRoom (grow : List UInt8 → Nat) (limit : Nat) (bytes : List UInt8) : Nat :=
  min (grow bytes + 1) (limit - bytes.length)

section Room

variable {grow : List UInt8 → Nat} {limit : Nat} {bytes : List UInt8} {t : State}

/-- The rest of the reading goes on from there. -/
theorem takeToEnd_handedIn (handed : reader.HandedIn (takeRoom grow limit) s bytes t) :
    reader.takeToEnd grow limit s [] = reader.takeToEnd grow (limit - bytes.length) t bytes := by
  induction handed with
  | start => rfl
  | @more bytes piece t u handed some_room nonempty read ih =>
      have left : limit - bytes.length ≠ 0 := by
        unfold takeRoom at some_room
        omega
      have rest : limit - (bytes ++ piece).length = limit - bytes.length - piece.length := by
        rw [List.length_append]
        omega
      unfold takeRoom at read
      rw [ih, Reader.takeToEnd, dif_neg left, read, rest]
      exact dif_neg nonempty

theorem takeToEnd_failsBehind (fails : reader.FailsBehind (takeRoom grow limit) s bytes) :
    ∃ e, reader.takeToEnd grow limit s [] = (bytes, some e) := by
  obtain ⟨t, e, u, handed, some_room, read⟩ := fails
  have left : limit - bytes.length ≠ 0 := by
    unfold takeRoom at some_room
    omega
  unfold takeRoom at read
  refine ⟨e, ?_⟩
  rw [takeToEnd_handedIn handed, Reader.takeToEnd, dif_neg left, read]

theorem takeToEnd_filled (handed : reader.HandedIn (takeRoom grow limit) s bytes t)
    (full : bytes.length = limit) : reader.takeToEnd grow limit s [] = (bytes, none) := by
  rw [takeToEnd_handedIn handed, Reader.takeToEnd, dif_pos (by omega)]

/-- What comes out was handed over, and an error is behind it. -/
theorem handedIn_takeToEnd (handed : reader.HandedIn (takeRoom grow limit) s bytes t) {left : Nat}
    (remains : left = limit - bytes.length) :
    (∃ u, reader.HandedIn (takeRoom grow limit) s (reader.takeToEnd grow left t bytes).1 u) ∧
      ∀ e, (reader.takeToEnd grow left t bytes).2 = some e →
        reader.FailsBehind (takeRoom grow limit) s (reader.takeToEnd grow left t bytes).1 := by
  fun_induction Reader.takeToEnd reader grow left t bytes with
  | case1 t bytes => exact ⟨⟨t, handed⟩, fun e clean => by cases clean⟩
  | case2 left t bytes usedUp e u failed =>
      refine ⟨⟨t, handed⟩, fun _ _ => ⟨t, e, u, handed, ?_, ?_⟩⟩
      · show 0 < min (grow bytes + 1) (limit - bytes.length)
        omega
      · rw [takeRoom, ← remains, failed]
  | case3 left t bytes usedUp u ended => exact ⟨⟨t, handed⟩, fun e clean => by cases clean⟩
  | case4 left t bytes usedUp piece u read nonempty ih =>
      refine ih (.more handed ?_ nonempty ?_) ?_
      · unfold takeRoom
        omega
      · rw [takeRoom, ← remains, read]
      · rw [List.length_append]
        omega

end Room

/-- A reader that delivers fills the buffer up to the limit. -/
theorem takeToEnd_of_delivers (delivers : reader.Delivers s out) (grow : List UInt8 → Nat)
    (limit : Nat) : reader.takeToEnd grow limit s [] = (out.take limit, none) :=
  takeToEnd_delivers delivers .start

theorem takeToEnd_of_rejects (rejects : reader.Rejects s out) (grow : List UInt8 → Nat)
    (limit : Nat) : (reader.takeToEnd grow limit s []).1 <+: out ∧
      ((reader.takeToEnd grow limit s []).2 = none →
        (reader.takeToEnd grow limit s []).1.length = limit) := by
  simpa using takeToEnd_rejects rejects .start

end Blasthttp.Rust
