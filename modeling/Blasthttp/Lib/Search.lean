/-
# Blasthttp.Lib.Search -- the first place where a pattern stands in a list

A window is a stretch of the pattern's length.  The first window that is the pattern is
where it first stands (`position_windows_iff`), and to read less of the list changes
only whether the place is still inside (`firstAt_take_iff`).
-/
import Mathlib.Data.List.Basic

namespace Blasthttp.Lib.Search

set_option autoImplicit false

variable {α : Type}

/-- All stretches of `n` elements, from the left. -/
def windows (n : Nat) (l : List α) : List (List α) :=
  (List.range (l.length + 1 - n)).map fun i => (l.drop i).take n

def StandsAt (pattern l : List α) (i : Nat) : Prop := (l.drop i).take pattern.length = pattern

structure FirstAt (pattern l : List α) (i : Nat) : Prop where
  here : StandsAt pattern l i
  notBefore : ∀ j, j < i → ¬ StandsAt pattern l j

variable {pattern l : List α} {i : Nat}

theorem StandsAt.inside (pattern_ne : pattern ≠ []) (stands : StandsAt pattern l i) :
    i + pattern.length ≤ l.length := by
  have lengths := congrArg List.length stands
  rw [List.length_take, List.length_drop] at lengths
  have := List.length_pos_iff.mpr pattern_ne
  omega

theorem FirstAt.unique {j : Nat} (first : FirstAt pattern l i) (other : FirstAt pattern l j) :
    i = j := by
  rcases Nat.lt_trichotomy i j with before | same | behind
  · exact absurd first.here (other.notBefore i before)
  · exact same
  · exact absurd other.here (first.notBefore j behind)

/-! ## Searching -/

theorem getElem_windows {n : Nat} (inside : i < (windows n l).length) :
    (windows n l)[i] = (l.drop i).take n := by
  simp [windows]

theorem position_windows_iff [DecidableEq α] (pattern_ne : pattern ≠ []) :
    (windows pattern.length l).findIdx? (· == pattern) = some i ↔ FirstAt pattern l i := by
  have count : (windows pattern.length l).length = l.length + 1 - pattern.length := by
    simp [windows]
  rw [List.findIdx?_eq_some_iff_getElem]
  constructor
  · rintro ⟨inside, found, before⟩
    refine ⟨?_, ?_⟩
    · rw [getElem_windows, beq_iff_eq] at found
      exact found
    · intro j earlier stands
      apply before j earlier
      rw [getElem_windows, beq_iff_eq]
      exact stands
  · intro first
    have inside := first.here.inside pattern_ne
    refine ⟨by omega, ?_, ?_⟩
    · rw [getElem_windows, beq_iff_eq]
      exact first.here
    · intro j earlier
      rw [getElem_windows, beq_iff_eq]
      exact first.notBefore j earlier

/-! ## Reading less -/

theorem standsAt_take_iff (pattern_ne : pattern ≠ []) (n : Nat) :
    StandsAt pattern (l.take n) i ↔ StandsAt pattern l i ∧ i + pattern.length ≤ n := by
  have positive := List.length_pos_iff.mpr pattern_ne
  have cut : ((l.take n).drop i).take pattern.length =
      (l.drop i).take (min pattern.length (n - i)) := by
    rw [List.drop_take, List.take_take]
  constructor
  · intro stands
    have lengths := congrArg List.length stands
    rw [List.length_take, List.length_drop, List.length_take] at lengths
    have whole : min pattern.length (n - i) = pattern.length := by omega
    unfold StandsAt at stands
    rw [cut, whole] at stands
    exact ⟨stands, by omega⟩
  · rintro ⟨stands, inside⟩
    have whole : min pattern.length (n - i) = pattern.length := by omega
    show ((l.take n).drop i).take pattern.length = pattern
    rw [cut, whole]
    exact stands

theorem firstAt_take_iff (pattern_ne : pattern ≠ []) (n : Nat) :
    FirstAt pattern (l.take n) i ↔ FirstAt pattern l i ∧ i + pattern.length ≤ n := by
  constructor
  · intro first
    obtain ⟨stands, inside⟩ := (standsAt_take_iff pattern_ne n).mp first.here
    refine ⟨⟨stands, ?_⟩, inside⟩
    intro j earlier standsBefore
    apply first.notBefore j earlier
    exact (standsAt_take_iff pattern_ne n).mpr ⟨standsBefore, by omega⟩
  · rintro ⟨first, inside⟩
    refine ⟨(standsAt_take_iff pattern_ne n).mpr ⟨first.here, inside⟩, ?_⟩
    intro j earlier standsBefore
    exact first.notBefore j earlier ((standsAt_take_iff pattern_ne n).mp standsBefore).1

end Blasthttp.Lib.Search
