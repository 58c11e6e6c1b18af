/-
# Blasthttp.Lib.Places -- what is found at the places of a list

A list of components that are named by their place grows at its end and changes at one
place at a time; these lemmas say where an entry found afterwards comes from.
-/
import Mathlib.Algebra.BigOperators.Group.List.Basic
import Mathlib.Data.List.Basic
import Mathlib.Tactic.Abel

namespace Blasthttp.Lib.Places

set_option autoImplicit false

variable {α : Type} {xs : List α} {x y : α} {i j : Nat}

theorem getElem?_concat_cases (there : (xs ++ [x])[i]? = some y) :
    xs[i]? = some y ∨ (i = xs.length ∧ y = x) := by
  rw [List.getElem?_append] at there
  split at there
  · exact .inl there
  · rw [List.getElem?_singleton] at there
    split at there
    · cases there
      exact .inr ⟨by omega, rfl⟩
    · cases there

theorem getElem?_concat_old (there : xs[i]? = some y) : (xs ++ [x])[i]? = some y := by
  rw [List.getElem?_append_left (List.getElem?_eq_some_iff.mp there).1]
  exact there

theorem getElem?_set_cases (there : (xs.set i x)[j]? = some y) :
    (j = i ∧ y = x) ∨ (j ≠ i ∧ xs[j]? = some y) := by
  rw [List.getElem?_set] at there
  split at there
  · rename_i same
    split at there
    · cases there
      exact .inl ⟨same.symm, rfl⟩
    · cases there
  · rename_i other
    exact .inr ⟨Ne.symm other, there⟩

theorem getElem?_set_here (there : xs[i]? = some y) (x : α) : (xs.set i x)[i]? = some x :=
  List.getElem?_set_self (List.getElem?_eq_some_iff.mp there).1

/-- Counting after a change at one place. -/
theorem countP_set_balance {p : α → Bool} (there : xs[i]? = some y) (x : α) :
    (xs.set i x).countP p + (if p y then 1 else 0) = xs.countP p + (if p x then 1 else 0) := by
  obtain ⟨inside, rfl⟩ := List.getElem?_eq_some_iff.mp there
  rw [List.countP_set inside]
  have counted : (if p xs[i] then 1 else 0) ≤ xs.countP p := by
    split
    · rename_i holds
      exact List.countP_pos_iff.mpr ⟨_, List.getElem_mem inside, holds⟩
    · exact Nat.zero_le _
  omega

/-- Books stay balanced when one entry's account changes by what the rest gives or gains. -/
theorem sum_set_balance {M : Type} [AddCancelCommMonoid M] {f : α → M} {total rest rest' gain : M}
    (balanced : total = rest + (xs.map f).sum) (there : xs[i]? = some y)
    (moved : gain + (rest + f y) = rest' + f x) :
    total + gain = rest' + ((xs.set i x).map f).sum := by
  obtain ⟨inside, rfl⟩ := List.getElem?_eq_some_iff.mp there
  have old := (List.getElem_cons_eraseIdx_perm inside).map f
  have new := (List.set_perm_cons_eraseIdx inside x).map f
  rw [new.sum_eq, balanced, ← old.sum_eq, List.map_cons, List.map_cons, List.sum_cons,
    List.sum_cons, ← add_assoc, ← add_assoc, ← moved]
  abel

/-- An entry that begins to count adds its image somewhere. -/
theorem filterMap_set_perm {β : Type} {f : α → Option β} {v : β} (there : xs[i]? = some y)
    (before : f y = none) (after : f x = some v) :
    ((xs.set i x).filterMap f).Perm (v :: xs.filterMap f) := by
  induction xs generalizing i with
  | nil => cases there
  | cons z rest ih =>
      cases i with
      | zero =>
          cases there
          rw [List.set_cons_zero, List.filterMap_cons_some after, List.filterMap_cons_none before]
      | succ i =>
          rw [List.set_cons_succ]
          have later := ih (show rest[i]? = some y from there)
          cases image : f z with
          | none =>
              rw [List.filterMap_cons_none image, List.filterMap_cons_none image]
              exact later
          | some w =>
              rw [List.filterMap_cons_some image, List.filterMap_cons_some image]
              exact (later.cons w).trans (List.Perm.swap v w _)

/-- An entry that counts for the same changes nothing. -/
theorem filterMap_set_same {β : Type} {f : α → Option β} (there : xs[i]? = some y)
    (same : f x = f y) : (xs.set i x).filterMap f = xs.filterMap f := by
  induction xs generalizing i with
  | nil => cases there
  | cons z rest ih =>
      cases i with
      | zero =>
          cases there
          rw [List.set_cons_zero, List.filterMap_cons, List.filterMap_cons, same]
      | succ i =>
          rw [List.set_cons_succ, List.filterMap_cons, List.filterMap_cons,
            ih (show rest[i]? = some y from there)]

/-- A component that no change touches. -/
theorem map_set_same {β : Type} {f : α → β} (there : xs[i]? = some y) (same : f x = f y) :
    (xs.set i x).map f = xs.map f := by
  obtain ⟨inside, rfl⟩ := List.getElem?_eq_some_iff.mp there
  have inside' : i < (xs.map f).length := by
    rw [List.length_map]
    exact inside
  rw [List.map_set, same, ← List.getElem_map f]
  exact List.set_getElem_self inside'

/-! ## Zipped with a list that may be one behind -/

theorem zip_shorter {β : Type} {past : List α} {bs : List β} (length : bs.length = past.length)
    (x : α) : (past ++ [x]).zip bs = past.zip bs := by
  have whole : (past ++ [x]).zip (bs ++ []) = past.zip bs ++ [] := List.zip_append length.symm
  rwa [List.append_nil, List.append_nil] at whole

theorem zip_concat {β : Type} {past : List α} {bs : List β} (length : bs.length = past.length)
    (x : α) (b : β) : (past ++ [x]).zip (bs ++ [b]) = (past ++ [x]).zip bs ++ [(x, b)] := by
  rw [List.zip_append length.symm, zip_shorter length]
  rfl

theorem mem_zip_concat {β : Type} {bs : List β} {b : β} {pair : α × β}
    (there : pair ∈ xs.zip bs) : pair ∈ xs.zip (bs ++ [b]) := by
  obtain ⟨i, at_i⟩ := List.getElem?_of_mem there
  rw [List.getElem?_zip_eq_some] at at_i
  refine List.mem_of_getElem? (i := i) (List.getElem?_zip_eq_some.mpr ⟨at_i.1, ?_⟩)
  rw [List.getElem?_append_left (List.getElem?_eq_some_iff.mp at_i.2).1]
  exact at_i.2

/-! ## Entries and what stands in front of them -/

/-- Some entry does, given what stands in front of it. -/
def AtSome (P : List α → α → Prop) (xs : List α) : Prop :=
  ∃ early x late, xs = early ++ x :: late ∧ P early x

variable {P : List α → α → Prop}

theorem not_atSome_nil : ¬ AtSome P [] := by
  rintro ⟨early, x, late, whole, -⟩
  exact List.append_ne_nil_of_right_ne_nil _ (List.cons_ne_nil _ _) whole.symm

theorem atSome_cons :
    AtSome P (x :: xs) ↔ P [] x ∨ AtSome (fun early y => P (x :: early) y) xs := by
  constructor
  · rintro ⟨early, y, late, whole, holds⟩
    cases early with
    | nil =>
        cases whole
        exact .inl holds
    | cons z early =>
        cases whole
        exact .inr ⟨early, y, late, rfl, holds⟩
  · rintro (holds | ⟨early, y, late, rfl, holds⟩)
    · exact ⟨[], x, xs, rfl, holds⟩
    · exact ⟨x :: early, y, late, rfl, holds⟩

theorem AtSome.append (found : AtSome P xs) (ys : List α) : AtSome P (xs ++ ys) := by
  obtain ⟨early, x, late, rfl, holds⟩ := found
  exact ⟨early, x, late ++ ys, by simp, holds⟩

theorem atSome_concat : AtSome P (xs ++ [x]) ↔ AtSome P xs ∨ P xs x := by
  constructor
  · rintro ⟨early, y, late, whole, holds⟩
    rcases List.eq_nil_or_concat late with rfl | ⟨middle, z, rfl⟩
    · obtain ⟨rfl, last⟩ := List.append_inj' whole rfl
      cases last
      exact .inr holds
    · rw [List.concat_eq_append, ← List.cons_append, ← List.append_assoc] at whole
      obtain ⟨front, -⟩ := List.append_inj' whole rfl
      exact .inl ⟨early, y, middle, front, holds⟩
  · rintro (found | holds)
    · exact found.append [x]
    · exact ⟨xs, x, [], rfl, holds⟩

end Blasthttp.Lib.Places
