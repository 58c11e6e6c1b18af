/-
# Blasthttp.Lib.Items -- items back to back, read until nothing is left

A reader takes one item off the front.  If it takes off what a writer put there,
whatever follows, then the items of a list written one behind the other are read back,
and nothing else (`readAll_flatMap`).
-/
import Mathlib.Data.List.Basic

namespace Blasthttp.Lib.Items

set_option autoImplicit false

abbrev Reader (τ α : Type) : Type := List τ → Option (α × List τ)

variable {τ α : Type}

def readLoop (read : Reader τ α) : Nat → List τ → Option (List α)
  | _, [] => some []
  | 0, _ :: _ => none
  | fuel + 1, input@(_ :: _) =>
      match read input with
      | none => none
      | some (item, rest) => (readLoop read fuel rest).map (item :: ·)

/-- Every item takes an element at least, so that the length is fuel enough. -/
def readAll (read : Reader τ α) (input : List τ) : Option (List α) :=
  readLoop read input.length input

/-- `read` takes what `write` puts in front of anything. -/
structure Inverts (read : Reader τ α) (write : α → List τ) : Prop where
  some_ : ∀ item, write item ≠ []
  back : ∀ item rest, read (write item ++ rest) = some (item, rest)

variable {read : Reader τ α} {write : α → List τ}

theorem readLoop_flatMap (inverts : Inverts read write) (items : List α) (fuel : Nat)
    (enough : (items.flatMap write).length ≤ fuel) :
    readLoop read fuel (items.flatMap write) = some items := by
  induction items generalizing fuel with
  | nil =>
      cases fuel with
      | zero => rfl
      | succ fuel => rfl
  | cons item items ih =>
      have positive := List.length_pos_iff.mpr (inverts.some_ item)
      have back := inverts.back item (items.flatMap write)
      rw [List.flatMap_cons] at enough ⊢
      rw [List.length_append] at enough
      cases written : write item ++ items.flatMap write with
      | nil =>
          have lengths := congrArg List.length written
          rw [List.length_append, List.length_nil] at lengths
          omega
      | cons first more =>
          rw [written] at back
          cases fuel with
          | zero => omega
          | succ fuel =>
              show (match read (first :: more) with
                | none => none
                | some (item, rest) => (readLoop read fuel rest).map (item :: ·)) = _
              rw [back]
              show (readLoop read fuel (items.flatMap write)).map (item :: ·) = _
              rw [ih fuel (by omega)]
              rfl

theorem readAll_flatMap (inverts : Inverts read write) (items : List α) :
    readAll read (items.flatMap write) = some items :=
  readLoop_flatMap inverts items _ (Nat.le_refl _)

end Blasthttp.Lib.Items
