/-
# Blasthttp.Lib.SuffixList -- lists of suffix rules and what prevails

Names are lists of labels, most specific first.  A rule covers the names that end in
it, label by label, where a wildcard stands for any label.  Of the rules that cover a
name an exception prevails, then the longest rule, and a single label if there is
none; `suffixLength` is how many labels the prevailing rule makes the public part.

Rules nest, so two names under one name need not share a suffix.  They do as long as
the suffix of the longer name stays inside the shorter one (`suffixLength_append`).
-/
import Mathlib.Data.List.Basic
import Mathlib.Order.Nat
import Mathlib.Tactic.Common

namespace Blasthttp.Lib.SuffixList

set_option autoImplicit false

variable {L : Type} [DecidableEq L]

structure Rule (L : Type) where
  /-- The labels, `none` for a wildcard. -/
  labels : List (Option L)
  exception : Bool

/-- Label by label, a wildcard accepting anything. -/
def fits : List (Option L) → List L → Bool
  | [], [] => true
  | pattern :: patterns, label :: labels =>
      (match pattern with
        | none => true
        | some l => l = label) && fits patterns labels
  | _, _ => false

/-- The name ends in the rule. -/
def Rule.covers (rule : Rule L) (name : List L) : Bool :=
  rule.labels.length ≤ name.length && fits rule.labels (name.drop (name.length - rule.labels.length))

/-- The rules of one kind that cover a name. -/
def hits (exception : Bool) (rules : List (Rule L)) (name : List L) : List (Rule L) :=
  rules.filter fun rule => rule.exception = exception && rule.covers name

def longest (rules : List (Rule L)) : Nat :=
  (rules.map fun rule => rule.labels.length).foldr max 0

/-- The number of labels in the public suffix of a name. -/
def suffixLength (rules : List (Rule L)) (name : List L) : Nat :=
  if (hits true rules name).isEmpty then max 1 (longest (hits false rules name))
  else longest (hits true rules name) - 1

/-! ## Longer names -/

theorem length_le_of_covers {rule : Rule L} {name : List L} (covers : rule.covers name = true) :
    rule.labels.length ≤ name.length := by
  unfold Rule.covers at covers
  rw [Bool.and_eq_true, decide_eq_true_eq] at covers
  exact covers.1

/-- A rule no longer than a name does not look past it. -/
theorem covers_append (rule : Rule L) (front : List L) {name : List L}
    (short : rule.labels.length ≤ name.length) : rule.covers (front ++ name) = rule.covers name := by
  have same : (front ++ name).drop ((front ++ name).length - rule.labels.length) =
      name.drop (name.length - rule.labels.length) := by
    have split : (front ++ name).length - rule.labels.length =
        front.length + (name.length - rule.labels.length) := by
      rw [List.length_append]
      omega
    rw [split, List.drop_append]
    simp
  unfold Rule.covers
  rw [same]
  have here : rule.labels.length ≤ (front ++ name).length := by
    rw [List.length_append]
    omega
  simp only [here, short]

omit [DecidableEq L] in
theorem length_le_longest {rule : Rule L} {rules : List (Rule L)} (there : rule ∈ rules) :
    rule.labels.length ≤ longest rules := by
  induction rules with
  | nil => cases there
  | cons head rules ih =>
      unfold longest
      rw [List.map_cons, List.foldr_cons]
      rcases List.mem_cons.mp there with rfl | later
      · exact le_max_left _ _
      · exact (ih later).trans (le_max_right _ _)

theorem hits_append {exception : Bool} {rules : List (Rule L)} {front name : List L}
    (inside : longest (hits exception rules (front ++ name)) ≤ name.length) :
    hits exception rules (front ++ name) = hits exception rules name := by
  unfold hits
  refine List.filter_congr fun rule there => ?_
  by_cases kind : rule.exception = exception
  · by_cases covers : rule.covers (front ++ name) = true
    · have hit : rule ∈ hits exception rules (front ++ name) :=
        List.mem_filter.mpr ⟨there, by simp [kind, covers]⟩
      have short := (length_le_longest hit).trans inside
      rw [covers_append rule front short]
    · have misses : rule.covers name = false := by
        rw [Bool.eq_false_iff]
        intro covered
        exact covers (by rw [covers_append rule front (length_le_of_covers covered)]; exact covered)
      rw [Bool.not_eq_true] at covers
      rw [covers, misses]
  · simp [kind]

/-- **Names under one name share its suffix** while their own stays inside it. -/
theorem suffixLength_append {rules : List (Rule L)} {front name : List L}
    (inside : suffixLength rules (front ++ name) < name.length) :
    suffixLength rules (front ++ name) = suffixLength rules name := by
  unfold suffixLength at inside ⊢
  by_cases none' : (hits true rules (front ++ name)).isEmpty = true
  · have exceptions : hits true rules (front ++ name) = hits true rules name := by
      refine hits_append ?_
      rw [List.isEmpty_iff.mp none']
      exact Nat.zero_le _
    rw [if_pos none'] at inside ⊢
    have ordinary : hits false rules (front ++ name) = hits false rules name :=
      hits_append ((le_max_right 1 _).trans inside.le)
    rw [exceptions] at none'
    rw [if_pos none', ordinary]
  · rw [if_neg none'] at inside ⊢
    have exceptions : hits true rules (front ++ name) = hits true rules name :=
      hits_append (by omega)
    rw [exceptions] at none' ⊢
    rw [if_neg none']

end Blasthttp.Lib.SuffixList
