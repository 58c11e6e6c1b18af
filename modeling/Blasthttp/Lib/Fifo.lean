/-
# Blasthttp.Lib.Fifo -- a queue bounded by the total weight of its entries

A queue that evicts its oldest entries to stay under a cap holds, at any time, the
longest initial part of its history (newest first) that fits: `fit`.  Inserting
and shrinking are then equations about `fit` (`fit_cons`, `fit_fit`), looking an
entry up is a comparison of a partial weight with the cap (`fit_getElem?`), and
one eviction drops the last entry exactly when the whole does not fit
(`fit_concat`).
-/
import Mathlib.Data.List.Basic
import Mathlib.Tactic.Common

namespace Blasthttp.Lib.Fifo

set_option autoImplicit false

variable {α : Type} (w : α → Nat)

/-- The total weight of a list. -/
def weight : List α → Nat
  | [] => 0
  | a :: rest => w a + weight rest

/-- The longest initial part whose weight is at most `cap`. -/
def fit : Nat → List α → List α
  | _, [] => []
  | cap, a :: rest => if w a ≤ cap then a :: fit (cap - w a) rest else []

theorem weight_append (xs ys : List α) : weight w (xs ++ ys) = weight w xs + weight w ys := by
  induction xs with
  | nil => simp [weight]
  | cons a xs ih => simp [weight, ih, Nat.add_assoc]

theorem weight_reverse (xs : List α) : weight w xs.reverse = weight w xs := by
  induction xs with
  | nil => rfl
  | cons a xs ih => rw [List.reverse_cons, weight_append, ih]; simp [weight]; omega

theorem weight_mem_le {a : α} {xs : List α} (mem : a ∈ xs) : w a ≤ weight w xs := by
  induction xs with
  | nil => cases mem
  | cons b xs ih =>
      rcases List.mem_cons.mp mem with rfl | tail
      · simp [weight]
      · have := ih tail
        simp only [weight]
        omega

theorem weight_fit_le (cap : Nat) (xs : List α) : weight w (fit w cap xs) ≤ cap := by
  induction xs generalizing cap with
  | nil => simp [fit, weight]
  | cons a xs ih =>
      unfold fit
      split
      · have := ih (cap - w a)
        simp only [weight]
        omega
      · simp [weight]

/-- Nothing is dropped from what fits. -/
theorem fit_of_weight_le {cap : Nat} {xs : List α} (le : weight w xs ≤ cap) : fit w cap xs = xs := by
  induction xs generalizing cap with
  | nil => rfl
  | cons a xs ih =>
      rw [weight] at le
      rw [fit, if_pos (by omega), ih (by omega)]

/-- Shrinking a bounded queue further is bounding its history further. -/
theorem fit_fit {cap cap' : Nat} (xs : List α) (le : cap' ≤ cap) :
    fit w cap' (fit w cap xs) = fit w cap' xs := by
  induction xs generalizing cap cap' with
  | nil => rfl
  | cons a xs ih =>
      by_cases here : w a ≤ cap'
      · rw [fit, if_pos (by omega), fit, if_pos here, ih (by omega), fit, if_pos here]
      · by_cases there : w a ≤ cap
        · rw [fit, if_pos there, fit, if_neg here, fit, if_neg here]
        · rw [fit, if_neg there, fit, fit, if_neg here]

/-- The oldest entry stays exactly when everything fits. -/
theorem fit_concat (cap : Nat) (xs : List α) (a : α) :
    fit w cap (xs ++ [a]) = if weight w (xs ++ [a]) ≤ cap then xs ++ [a] else fit w cap xs := by
  induction xs generalizing cap with
  | nil => simp [fit, weight]
  | cons b xs ih =>
      simp only [List.cons_append, weight]
      by_cases here : w b ≤ cap
      · rw [fit, if_pos here, ih, fit, if_pos here]
        by_cases all : weight w (xs ++ [a]) ≤ cap - w b
        · rw [if_pos all, if_pos (by omega)]
        · rw [if_neg all, if_neg (by omega)]
      · rw [fit, if_neg here, if_neg (by omega), fit, if_neg here]

/-- The entry at position `k` of a bounded queue: that of the history, as long as
everything up to and including it fits. -/
theorem fit_getElem? (cap : Nat) (xs : List α) (k : Nat) :
    (fit w cap xs)[k]? = if weight w (xs.take (k + 1)) ≤ cap then xs[k]? else none := by
  induction xs generalizing cap k with
  | nil => simp [fit, weight]
  | cons a xs ih =>
      unfold fit
      by_cases here : w a ≤ cap
      · rw [if_pos here]
        cases k with
        | zero => simp [weight, here]
        | succ k =>
            rw [List.getElem?_cons_succ, ih, List.take_succ_cons, weight, List.getElem?_cons_succ]
            by_cases all : weight w (xs.take (k + 1)) ≤ cap - w a
            · rw [if_pos all, if_pos (by omega)]
            · rw [if_neg all, if_neg (by omega)]
      · rw [if_neg here, List.take_succ_cons, weight, if_neg (by omega)]
        rfl

end Blasthttp.Lib.Fifo
