/-
# Blasthttp.Lib.Cursor -- readers that see no further than what they read

A reader takes a buffer and a position to a value and a new position, or fails.  It is
`Local` when bytes behind what it read change nothing, when bytes in front of where it
starts only shift positions, and when it stays inside the buffer.  Errors may carry
positions; `move` is what a shift does to them.  Readers that run one after the other
are local when each is.
-/
import Mathlib.Data.List.Basic
import Mathlib.Tactic.Common

namespace Blasthttp.Lib.Cursor

set_option autoImplicit false

variable {β ε α γ : Type}

abbrev Reader (β ε α : Type) := List β → Nat → Except ε (α × Nat)

/-- A result whose positions are shifted. -/
def moved (move : Nat → ε → ε) (k : Nat) : Except ε (α × Nat) → Except ε (α × Nat)
  | .ok (x, pos) => .ok (x, k + pos)
  | .error e => .error (move k e)

structure Local (move : Nat → ε → ε) (read : Reader β ε α) : Prop where
  extend : ∀ {a : List β} {pos : Nat} {r : α × Nat} (b : List β),
    read a pos = .ok r → read (a ++ b) pos = .ok r
  shift : ∀ (a b : List β) (pos : Nat),
    read (a ++ b) (a.length + pos) = moved move a.length (read b pos)
  inside : ∀ {a : List β} {pos : Nat} {r : α × Nat},
    pos ≤ a.length → read a pos = .ok r → r.2 ≤ a.length

theorem drop_shift (a b : List β) (pos : Nat) : (a ++ b).drop (a.length + pos) = b.drop pos := by
  rw [← List.drop_drop, List.drop_left]

namespace Local

variable {move : Nat → ε → ε}

/-- Nothing is read. -/
theorem pure (x : α) : Local (β := β) move fun _ pos => .ok (x, pos) where
  extend := fun _ read => read
  shift := fun _ _ _ => rfl
  inside := by
    intro a pos r within read
    cases read
    exact within

/-- A failure that names no position. -/
theorem error {e : ε} (still : ∀ k, move k e = e) :
    Local (β := β) (α := α) move fun _ _ => .error e where
  extend := fun _ read => by cases read
  shift := fun a _ _ => by rw [moved, still]
  inside := fun _ read => by cases read

/-- One reader behind another. -/
theorem bind {read : Reader β ε α} {next : α → Reader β ε γ} (first : Local move read)
    (second : ∀ x, Local move (next x)) :
    Local move fun buf pos => (read buf pos).bind fun r => next r.1 buf r.2 where
  extend := by
    intro a pos r b both
    cases front : read a pos with
    | error e =>
        rw [front] at both
        cases both
    | ok mid =>
        rw [front] at both
        rw [first.extend b front]
        exact (second mid.1).extend b both
  shift := by
    intro a b pos
    rw [first.shift]
    cases read b pos with
    | error e => rfl
    | ok mid => exact (second mid.1).shift a b mid.2
  inside := by
    intro a pos r within both
    cases front : read a pos with
    | error e =>
        rw [front] at both
        cases both
    | ok mid =>
        rw [front] at both
        exact (second mid.1).inside (first.inside within front) both

/-- A choice made before anything is read. -/
theorem ite {yes no : Reader β ε α} (c : Prop) [Decidable c] (ifYes : Local move yes)
    (ifNo : Local move no) : Local move fun buf pos => if c then yes buf pos else no buf pos := by
  by_cases holds : c
  · simpa only [if_pos holds] using ifYes
  · simpa only [if_neg holds] using ifNo

end Local

end Blasthttp.Lib.Cursor
