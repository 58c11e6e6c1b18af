/-
# Blasthttp.Lib.Groups -- numbers as seven-bit groups, least significant first

A byte carries seven bits of the number and, in its top bit, whether another byte
follows.  A complete number is a list of bytes of which exactly the last announces
none, so complete numbers are cut off a byte string in one way only; `value` is the
number without any bound on it.
-/
import Mathlib.Data.List.Basic
import Mathlib.Tactic.Common
import Mathlib.Tactic.Ring

namespace Blasthttp.Lib.Groups

set_option autoImplicit false

/-- The seven bits a byte carries. -/
def payload (b : UInt8) : Nat := (b &&& 0x7F).toNat

/-- Whether a byte announces another one. -/
def more (b : UInt8) : Bool := b &&& 0x80 ≠ 0

def value : List UInt8 → Nat
  | [] => 0
  | b :: rest => payload b + 128 * value rest

/-- All bytes but the last announce another one. -/
inductive Complete : List UInt8 → Prop
  | last (b : UInt8) : more b = false → Complete [b]
  | next (b : UInt8) (rest : List UInt8) : more b = true → Complete rest → Complete (b :: rest)

/-! ## Bytes -/

theorem payload_lt (b : UInt8) : payload b < 128 := by
  have all : ∀ b : Fin 256, payload (UInt8.ofNat b.val) < 128 := by decide +kernel
  simpa using all ⟨b.toNat, b.toNat_lt⟩

/-- The two bytes that carry a group: the last one and one before another. -/
theorem payload_ofNat : ∀ x : Fin 128,
    (payload (UInt8.ofNat x.val) = x.val ∧ more (UInt8.ofNat x.val) = false) ∧
      payload (UInt8.ofNat x.val ||| 0x80) = x.val ∧ more (UInt8.ofNat x.val ||| 0x80) = true := by
  decide +kernel

/-! ## Values -/

@[simp] theorem value_nil : value [] = 0 := rfl

@[simp] theorem value_cons (b : UInt8) (rest : List UInt8) :
    value (b :: rest) = payload b + 128 * value rest := rfl

theorem value_append (xs ys : List UInt8) :
    value (xs ++ ys) = value xs + 128 ^ xs.length * value ys := by
  induction xs with
  | nil => simp
  | cons b xs ih =>
      rw [List.cons_append, value_cons, ih, value_cons, List.length_cons, Nat.pow_succ]
      ring

theorem value_concat (front : List UInt8) (last : UInt8) :
    value (front ++ [last]) = value front + 128 ^ front.length * payload last := by
  rw [value_append, value_cons, value_nil, Nat.mul_zero, Nat.add_zero]

theorem value_replicate_zero (k : Nat) : value (List.replicate k 0x80) = 0 := by
  induction k with
  | zero => rfl
  | succ k ih =>
      rw [List.replicate_succ, value_cons, ih]
      rfl

/-! ## Complete numbers -/

theorem Complete.ne_nil {xs : List UInt8} (complete : Complete xs) : xs ≠ [] := by
  cases complete <;> exact List.cons_ne_nil _ _

theorem Complete.length_pos {xs : List UInt8} (complete : Complete xs) : 0 < xs.length :=
  List.length_pos_of_ne_nil complete.ne_nil

theorem complete_concat {front : List UInt8} {last : UInt8} (open' : ∀ b ∈ front, more b = true)
    (stops : more last = false) : Complete (front ++ [last]) := by
  induction front with
  | nil => exact .last last stops
  | cons b front ih =>
      refine .next b _ (open' b List.mem_cons_self) (ih fun c there => ?_)
      exact open' c (List.mem_cons_of_mem _ there)

theorem Complete.eq_concat {xs : List UInt8} (complete : Complete xs) :
    ∃ front last, xs = front ++ [last] ∧ (∀ b ∈ front, more b = true) ∧ more last = false := by
  induction complete with
  | last b stops => exact ⟨[], b, rfl, (fun _ there => by cases there), stops⟩
  | next b rest goes _ ih =>
      obtain ⟨front, last, rfl, open', stops⟩ := ih
      refine ⟨b :: front, last, rfl, ?_, stops⟩
      intro c there
      rcases List.mem_cons.mp there with rfl | later
      · exact goes
      · exact open' c later

/-- A byte string starts with a complete number, or never ends one. -/
theorem complete_or_open (bytes : List UInt8) :
    (∃ xs rest, bytes = xs ++ rest ∧ Complete xs) ∨ ∀ b ∈ bytes, more b = true := by
  induction bytes with
  | nil => exact .inr fun _ there => by cases there
  | cons b bytes ih =>
      cases goes : more b with
      | false => exact .inl ⟨[b], bytes, rfl, .last b goes⟩
      | true =>
          rcases ih with ⟨xs, rest, rfl, complete⟩ | open'
          · exact .inl ⟨b :: xs, rest, rfl, .next b xs goes complete⟩
          · refine .inr fun c there => ?_
            rcases List.mem_cons.mp there with rfl | later
            · exact goes
            · exact open' c later

/-- Two complete numbers in front of one byte string are the same. -/
theorem Complete.cut_unique {xs ys : List UInt8} (first : Complete xs) (second : Complete ys) :
    ∀ {rest rest' : List UInt8}, xs ++ rest = ys ++ rest' → xs = ys := by
  induction first generalizing ys with
  | last b stops =>
      intro rest rest' same
      cases second with
      | last c _ => rw [(List.cons_eq_cons.mp same).1]
      | next c ys goes _ =>
          rw [(List.cons_eq_cons.mp same).1, goes] at stops
          cases stops
  | next b xs goes _ ih =>
      intro rest rest' same
      cases second with
      | last c stops =>
          rw [(List.cons_eq_cons.mp same).1, stops] at goes
          cases goes
      | next c ys _ tail =>
          obtain ⟨rfl, behind⟩ := List.cons_eq_cons.mp same
          rw [ih tail behind]

end Blasthttp.Lib.Groups
