/-
# Blasthttp.Lib.Concat -- the concatenation of a sequence of chunks

Chunks come one after the other, finitely many items each, for as long as there are
chunks.  Item `k` of all of them together is there as soon as enough chunks are
(`get?_concat`), the first `k` items are the first `k` of any `n` chunks that hold so many
(`take_concat`), and where nothing follows the `n`-th chunk those `n` are all there is
(`take_concat_of_last`).
-/
import Mathlib.Data.Seq.Basic

namespace Blasthttp.Lib.Concat

set_option autoImplicit false

variable {α : Type} (chunks : Nat → List α)

/-- The first `n` chunks as one list. -/
def before (n : Nat) : List α := (List.range n).flatMap chunks

@[simp] theorem before_zero : before chunks 0 = [] := rfl

theorem before_succ (n : Nat) : before chunks (n + 1) = before chunks n ++ chunks n := by
  simp [before, List.range_succ]

theorem before_isPrefix {m n : Nat} (earlier : m ≤ n) :
    before chunks m <+: before chunks n := by
  induction n, earlier using Nat.le_induction with
  | base => exact List.prefix_refl _
  | succ n _ ih =>
      rw [before_succ]
      exact ih.trans (List.prefix_append _ _)

/-- Two counts of chunks agree on the items that both have. -/
theorem before_getElem? {m n k : Nat} (here : k < (before chunks m).length)
    (there : k < (before chunks n).length) : (before chunks m)[k]? = (before chunks n)[k]? := by
  rcases Nat.le_total m n with earlier | earlier
  · obtain ⟨rest, whole⟩ := before_isPrefix chunks earlier
    rw [← whole, List.getElem?_append_left here]
  · obtain ⟨rest, whole⟩ := before_isPrefix chunks earlier
    rw [← whole, List.getElem?_append_left there]

open Classical in
/-- Item `k` of the chunks together. -/
noncomputable def itemAt (k : Nat) : Option α :=
  if reached : ∃ n, k < (before chunks n).length then (before chunks reached.choose)[k]?
  else none

theorem itemAt_of_lt {n k : Nat} (reached : k < (before chunks n).length) :
    itemAt chunks k = (before chunks n)[k]? := by
  have somewhere : ∃ n, k < (before chunks n).length := ⟨n, reached⟩
  rw [itemAt, dif_pos somewhere]
  exact before_getElem? chunks somewhere.choose_spec reached

theorem itemAt_eq_none {k : Nat} :
    itemAt chunks k = none ↔ ∀ n, (before chunks n).length ≤ k := by
  constructor
  · intro absent n
    by_contra more
    have reached : k < (before chunks n).length := by omega
    rw [itemAt_of_lt chunks reached, List.getElem?_eq_none_iff] at absent
    omega
  · intro short
    rw [itemAt, dif_neg]
    rintro ⟨n, reached⟩
    have := short n
    omega

/-- All the items, in order. -/
noncomputable def concat : Stream'.Seq α :=
  ⟨itemAt chunks, fun {k} absent =>
    (itemAt_eq_none chunks).mpr fun n =>
      ((itemAt_eq_none chunks).mp absent n).trans (Nat.le_succ k)⟩

theorem get?_concat {n k : Nat} (reached : k < (before chunks n).length) :
    (concat chunks).get? k = (before chunks n)[k]? :=
  itemAt_of_lt chunks reached

theorem get?_concat_eq_none {k : Nat} :
    (concat chunks).get? k = none ↔ ∀ n, (before chunks n).length ≤ k :=
  itemAt_eq_none chunks

theorem get?_concat_isSome {k : Nat} :
    ((concat chunks).get? k).isSome ↔ ∃ n, k < (before chunks n).length := by
  rw [Option.isSome_iff_ne_none, Ne, get?_concat_eq_none]
  simp

theorem take_concat {n k : Nat} (reached : k ≤ (before chunks n).length) :
    (concat chunks).take k = (before chunks n).take k := by
  apply List.ext_getElem?
  intro i
  rw [Stream'.Seq.getElem?_take, List.getElem?_take]
  split
  · rename_i inside
    exact get?_concat chunks (lt_of_lt_of_le inside reached)
  · rfl

theorem take_concat_of_last {n k : Nat} (last : ∀ m, (before chunks m).length ≤
    (before chunks n).length) (short : (before chunks n).length ≤ k) :
    (concat chunks).take k = before chunks n := by
  apply List.ext_getElem?
  intro i
  rw [Stream'.Seq.getElem?_take]
  by_cases inside : i < (before chunks n).length
  · rw [if_pos (by omega), get?_concat chunks inside]
  · have absent : (concat chunks).get? i = none :=
      (get?_concat_eq_none chunks).mpr fun m => (last m).trans (by omega)
    rw [absent, ite_self, List.getElem?_eq_none (by omega)]

end Blasthttp.Lib.Concat
