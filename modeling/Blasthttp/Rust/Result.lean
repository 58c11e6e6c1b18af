/-
# Blasthttp.Rust.Result -- `Result` and the `?` operator

`Except` is the source's `Result`: `?` is its bind and `map_err` its `mapError`.  The
two lemmas take a computation that came out `Ok` apart into steps that all did.
-/
import Mathlib.Tactic.Common

namespace Blasthttp.Rust

set_option autoImplicit false

variable {ε ε' α β : Type}

theorem bind_ok {x : Except ε α} {f : α → Except ε β} {r : β} :
    (x >>= f) = .ok r ↔ ∃ a, x = .ok a ∧ f a = .ok r := by
  cases x with
  | error e =>
      constructor
      · intro h; cases h
      · rintro ⟨_, h, _⟩; cases h
  | ok a =>
      constructor
      · intro h; exact ⟨a, rfl, h⟩
      · rintro ⟨_, h, hf⟩; cases h; exact hf

theorem mapError_ok {x : Except ε α} {f : ε → ε'} {a : α} :
    x.mapError f = .ok a ↔ x = .ok a := by
  cases x with
  | error e =>
      constructor
      · intro h; cases h
      · intro h; cases h
  | ok b =>
      constructor
      · intro h; cases h; rfl
      · intro h; cases h; rfl

/-- No error, no panic. -/
def Returns (x : Except ε α) : Prop := ∃ a, x = .ok a

theorem returns_ok (a : α) : Returns (.ok a : Except ε α) := ⟨a, rfl⟩

theorem not_returns_error (e : ε) : ¬ Returns (.error e : Except ε α) := nofun

theorem returns_map {x : Except ε α} {f : α → β} : Returns (x.map f) ↔ Returns x := by
  cases x with
  | error e => exact iff_of_false (not_returns_error e) (not_returns_error e)
  | ok a => exact iff_of_true (returns_ok (f a)) (returns_ok a)

theorem returns_mapError {x : Except ε α} {f : ε → ε'} : Returns (x.mapError f) ↔ Returns x := by
  simp only [Returns, mapError_ok]

end Blasthttp.Rust
