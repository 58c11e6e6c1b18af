/-
# Blasthttp.Lib.Spacing -- points that keep a distance

Points at least `d` apart fall into different cells of width `d`, so an interval holds
at most one more of them than its length over `d` (`length_le_of_apart`).
-/
import Mathlib.Data.List.Range
import Mathlib.Data.List.Perm.Subperm
import Mathlib.Tactic.Common

namespace Blasthttp.Lib.Spacing

set_option autoImplicit false

def Apart (d x y : Nat) : Prop := x + d ≤ y ∨ y + d ≤ x

theorem Apart.symm {d x y : Nat} (apart : Apart d x y) : Apart d y x := Or.symm apart

/-- The cell of width `d`, counted from `s`, that a point lies in. -/
def cell (d s x : Nat) : Nat := (x - s) / d

theorem cell_ne {d s x y : Nat} (positive : 0 < d) (inX : s ≤ x) (inY : s ≤ y)
    (apart : Apart d x y) : cell d s x ≠ cell d s y := by
  have later : ∀ {a b : Nat}, s ≤ a → a + d ≤ b → cell d s a < cell d s b := by
    intro a b inA far
    have step : (a - s) / d + 1 = (a - s + d) / d := (Nat.add_div_right _ positive).symm
    show (a - s) / d < (b - s) / d
    calc (a - s) / d < (a - s + d) / d := by omega
      _ ≤ (b - s) / d := Nat.div_le_div_right (by omega)
  rcases apart with before | behind
  · exact (later inX before).ne
  · exact (later inY behind).ne'

theorem length_le_of_apart {d s w : Nat} (positive : 0 < d) {points : List Nat}
    (apart : points.Pairwise (Apart d)) (inside : ∀ x ∈ points, s ≤ x ∧ x ≤ s + w) :
    points.length ≤ 1 + w / d := by
  have distinct : (points.map (cell d s)).Nodup := by
    apply List.pairwise_map.mpr
    apply apart.imp_of_mem
    intro x y inX inY
    exact cell_ne positive (inside x inX).1 (inside y inY).1
  have within : points.map (cell d s) ⊆ List.range (w / d + 1) := by
    intro c there
    obtain ⟨x, inX, rfl⟩ := List.mem_map.mp there
    have bound := (inside x inX).2
    apply List.mem_range.mpr
    show (x - s) / d < w / d + 1
    have := Nat.div_le_div_right (show x - s ≤ w by omega) (c := d)
    omega
  have counted := (distinct.subperm within).length_le
  rw [List.length_map, List.length_range] at counted
  omega

end Blasthttp.Lib.Spacing
