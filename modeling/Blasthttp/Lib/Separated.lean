/-
# Blasthttp.Lib.Separated -- pieces with a separator between them

`cut` divides a list at the first occurrence of a separator and `split` at all of them,
from the left.  Where no end of the separator is a beginning of it (`Plain`), none can
arise where two pieces are joined, so joined pieces are split again as they were
exactly when none of them has a separator inside (`split_intercalate_iff`).
-/
import Mathlib.Data.List.Infix
import Mathlib.Tactic.Common

namespace Blasthttp.Lib.Separated

set_option autoImplicit false

variable {α : Type} [DecidableEq α] {sep : List α}

/-- What is before the first separator and what is behind it. -/
def cut (sep : List α) : List α → Option (List α × List α)
  | [] => none
  | a :: l =>
      if sep <+: a :: l then some ([], (a :: l).drop sep.length)
      else (cut sep l).map fun parts => (a :: parts.1, parts.2)

def splitLoop (sep : List α) : Nat → List α → List (List α)
  | 0, l => [l]
  | fuel + 1, l =>
      match cut sep l with
      | none => [l]
      | some (front, back) => front :: splitLoop sep fuel back

/-- Every cut takes an element at least, so that the length is fuel enough. -/
def split (sep : List α) (l : List α) : List (List α) := splitLoop sep l.length l

/-- No end of the separator, but the whole of it, is a beginning of it. -/
structure Plain (sep : List α) : Prop where
  ne_nil : sep ≠ []
  unbordered : ∀ front back, sep = front ++ back → front ≠ [] → back <+: sep → back = []

omit [DecidableEq α] in
theorem plain_pair {a b : α} (other : a ≠ b) : Plain [a, b] where
  ne_nil := List.cons_ne_nil _ _
  unbordered := by
    rintro front back whole some_ border
    match front, whole, some_ with
    | [x], whole, _ =>
        cases whole
        obtain ⟨rest, same⟩ := border
        cases same
        exact absurd rfl other
    | x :: y :: front, whole, _ =>
        cases back with
        | nil => rfl
        | cons c back => simp at whole

omit [DecidableEq α] in
/-- A pair inside two pieces is inside one of them, or is where they meet. -/
theorem pair_infix_append {a b : α} {x y : List α} (inside : [a, b] <:+: x ++ y) :
    [a, b] <:+: x ∨ [a, b] <:+: y ∨ [a] <:+ x ∧ [b] <+: y := by
  induction x with
  | nil => exact .inr (.inl inside)
  | cons c x ih =>
      rcases List.infix_cons_iff.mp inside with first | later
      · obtain ⟨rest, whole⟩ := first
        cases x with
        | nil =>
            cases whole
            exact .inr (.inr ⟨List.suffix_refl _, ⟨rest, rfl⟩⟩)
        | cons d x =>
            cases whole
            exact .inl ⟨[], x, rfl⟩
      · rcases ih later with here | there | ⟨ends, starts⟩
        · exact .inl (List.infix_cons here)
        · exact .inr (.inl there)
        · exact .inr (.inr ⟨ends.trans (List.suffix_cons c x), starts⟩)

/-! ## The first separator -/

theorem cut_spec {l front back : List α} (found : cut sep l = some (front, back)) :
    l = front ++ sep ++ back ∧ (sep ≠ [] → ¬ sep <:+: front) := by
  induction l generalizing front with
  | nil => cases found
  | cons a l ih =>
      rw [cut] at found
      split at found
      · rename_i here
        cases found
        obtain ⟨rest, whole⟩ := here
        refine ⟨?_, fun some_ inside => some_ (List.infix_nil.mp inside)⟩
        rw [← whole, List.drop_left, List.nil_append]
      · rename_i nowhere
        obtain ⟨⟨before, after⟩, deeper, parts⟩ := Option.map_eq_some_iff.mp found
        cases parts
        obtain ⟨whole, free⟩ := ih deeper
        refine ⟨congrArg (List.cons a) whole, fun some_ inside => ?_⟩
        rcases List.infix_cons_iff.mp inside with first | later
        · apply nowhere
          rw [whole]
          exact first.trans ⟨sep ++ after, by simp⟩
        · exact free some_ later

theorem cut_eq_none_iff (some_ : sep ≠ []) {l : List α} : cut sep l = none ↔ ¬ sep <:+: l := by
  induction l with
  | nil => simp [cut, some_]
  | cons a l ih =>
      rw [cut]
      split
      · rename_i here
        simp only [reduceCtorEq, false_iff, not_not]
        exact here.isInfix
      · rename_i nowhere
        rw [Option.map_eq_none_iff, ih, List.infix_cons_iff]
        simp [nowhere]

omit [DecidableEq α] in
/-- A separator behind a piece does not begin inside it. -/
theorem Plain.prefix_inside (plain : Plain sep) {x rest : List α} (some_ : x ≠ [])
    (here : sep <+: x ++ (sep ++ rest)) : sep <:+: x := by
  rcases List.prefix_or_prefix_of_prefix here (List.prefix_append x _) with inside | ⟨back, whole⟩
  · exact inside.isInfix
  · have border : back <+: sep := by
      have both : back <+: sep ++ rest := by
        rw [← whole] at here
        rw [← whole]
        exact (List.prefix_append_right_inj x).mp (by simpa using here)
      refine List.prefix_of_prefix_length_le both (List.prefix_append _ _) ?_
      rw [← whole, List.length_append]
      exact Nat.le_add_left _ _
    have nothing := plain.unbordered x back whole.symm some_ border
    rw [nothing, List.append_nil] at whole
    rw [whole]

theorem Plain.cut_append (plain : Plain sep) {x : List α} (free : ¬ sep <:+: x) (rest : List α) :
    cut sep (x ++ sep ++ rest) = some (x, rest) := by
  induction x with
  | nil =>
      obtain ⟨a, l, rfl⟩ := List.exists_cons_of_ne_nil plain.ne_nil
      simp [cut]
  | cons a x ih =>
      have nowhere : ¬ sep <+: a :: x ++ (sep ++ rest) := fun here =>
        free (plain.prefix_inside (List.cons_ne_nil a x) here)
      have deeper := ih fun inside => free (List.infix_cons inside)
      rw [List.append_assoc] at deeper ⊢
      rw [List.cons_append] at nowhere ⊢
      rw [cut, if_neg nowhere, deeper]
      rfl

/-- The first separator is the one that was put there exactly when there is none before it. -/
theorem Plain.cut_append_iff (plain : Plain sep) {x rest : List α} :
    cut sep (x ++ sep ++ rest) = some (x, rest) ↔ ¬ sep <:+: x :=
  ⟨fun found => (cut_spec found).2 plain.ne_nil, fun free => plain.cut_append free rest⟩

/-! ## All of them -/

theorem splitLoop_free (some_ : sep ≠ []) {fuel : Nat} {l piece : List α} (enough : l.length ≤ fuel)
    (there : piece ∈ splitLoop sep fuel l) : ¬ sep <:+: piece := by
  induction fuel generalizing l with
  | zero =>
      rw [splitLoop, List.mem_singleton] at there
      rw [there, List.length_eq_zero_iff.mp (Nat.le_zero.mp enough)]
      exact fun inside => some_ (List.infix_nil.mp inside)
  | succ fuel ih =>
      rw [splitLoop] at there
      split at there
      · rename_i nowhere
        rw [List.mem_singleton.mp there]
        exact (cut_eq_none_iff some_).mp nowhere
      · rename_i front back found
        obtain ⟨whole, free⟩ := cut_spec found
        rcases List.mem_cons.mp there with rfl | later
        · exact free some_
        · refine ih ?_ later
          have long := List.length_pos_iff.mpr some_
          rw [whole, List.length_append, List.length_append] at enough
          omega

theorem Plain.splitLoop_intercalate (plain : Plain sep) {pieces : List (List α)}
    (some_ : pieces ≠ []) (free : ∀ piece ∈ pieces, ¬ sep <:+: piece) {fuel : Nat}
    (enough : (sep.intercalate pieces).length ≤ fuel) :
    splitLoop sep fuel (sep.intercalate pieces) = pieces := by
  induction pieces generalizing fuel with
  | nil => exact absurd rfl some_
  | cons piece pieces ih =>
      have here := free piece List.mem_cons_self
      cases pieces with
      | nil =>
          rw [List.intercalate_singleton]
          have nowhere := (cut_eq_none_iff plain.ne_nil).mpr here
          cases fuel with
          | zero => rfl
          | succ fuel => simp only [splitLoop, nowhere]
      | cons next rest =>
          have behind := fun piece there => free piece (List.mem_cons_of_mem _ there)
          have found := plain.cut_append here (sep.intercalate (next :: rest))
          have long := List.length_pos_iff.mpr plain.ne_nil
          rw [List.intercalate_cons_cons, List.length_append, List.length_append] at enough
          rw [List.intercalate_cons_cons]
          cases fuel with
          | zero => omega
          | succ fuel =>
              simp only [splitLoop, found]
              rw [ih (List.cons_ne_nil _ _) behind (by omega)]

/-- **Joined pieces are split as they were** exactly when none has a separator inside. -/
theorem Plain.split_intercalate_iff (plain : Plain sep) {pieces : List (List α)} :
    split sep (sep.intercalate pieces) = pieces ↔
      pieces ≠ [] ∧ ∀ piece ∈ pieces, ¬ sep <:+: piece := by
  constructor
  · intro same
    refine ⟨?_, ?_⟩
    · rintro rfl
      simp [split, splitLoop] at same
    · intro piece there
      rw [← same] at there
      exact splitLoop_free plain.ne_nil (Nat.le_refl _) there
  · rintro ⟨some_, free⟩
    exact plain.splitLoop_intercalate some_ free (Nat.le_refl _)

end Blasthttp.Lib.Separated
