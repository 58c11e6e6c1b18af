/-
# Blasthttp.Lib.LastValue -- a map kept beside a list

A list of entries may repeat a key; the value under a key is that of its last entry
(`last`).  A map indexes the list when it answers every key so (`Indexes`).  To append an
entry is to insert it, and to drop the entries of a key is to erase the key, so the two
halves can be changed side by side and never part.
-/
import Mathlib.Data.Finmap

namespace Blasthttp.Lib.LastValue

set_option autoImplicit false

variable {α κ ν : Type} [DecidableEq κ] (key : α → κ) (value : α → ν)

/-- The value of the last entry under `k`. -/
def last (k : κ) (xs : List α) : Option ν := (xs.filter fun a => key a = k).getLast?.map value

def Indexes (map : Finmap fun _ : κ => ν) (xs : List α) : Prop :=
  ∀ k, map.lookup k = last key value k xs

variable {key value} {map : Finmap fun _ : κ => ν} {xs : List α}

@[simp] theorem last_nil (k : κ) : last key value k [] = none := rfl

@[simp] theorem last_concat_self (xs : List α) (a : α) :
    last key value (key a) (xs ++ [a]) = some (value a) := by
  simp [last, List.filter_append]

theorem last_concat_of_ne {k : κ} {a : α} (other : key a ≠ k) (xs : List α) :
    last key value k (xs ++ [a]) = last key value k xs := by
  simp [last, List.filter_append, other]

@[simp] theorem last_drop_self (k : κ) (xs : List α) :
    last key value k (xs.filter fun a => key a ≠ k) = none := by
  simp [last, List.filter_filter]

theorem last_drop_of_ne {j k : κ} (other : j ≠ k) (xs : List α) :
    last key value j (xs.filter fun a => key a ≠ k) = last key value j xs := by
  have both : ∀ a, (decide (key a = j) && decide (key a ≠ k)) = decide (key a = j) := by
    intro a
    by_cases here : key a = j
    · simp [here, other]
    · simp [here]
  simp only [last, List.filter_filter, both]

theorem last_isSome_iff {k : κ} : (last key value k xs).isSome ↔ k ∈ xs.map key := by
  simp [last]

/-! ## The two halves -/

theorem Indexes.unique {other : Finmap fun _ : κ => ν} (one : Indexes key value map xs)
    (two : Indexes key value other xs) : map = other :=
  Finmap.ext_lookup fun k => (one k).trans (two k).symm

theorem indexes_nil : Indexes key value ∅ [] := fun _ => Finmap.lookup_empty _

theorem Indexes.insert (indexes : Indexes key value map xs) (a : α) :
    Indexes key value (map.insert (key a) (value a)) (xs ++ [a]) := by
  intro k
  by_cases here : key a = k
  · subst here
    rw [Finmap.lookup_insert, last_concat_self]
  · rw [Finmap.lookup_insert_of_ne _ (Ne.symm here), last_concat_of_ne here]
    exact indexes k

/-- An entry in place of all those of its key. -/
theorem Indexes.set (indexes : Indexes key value map xs) (a : α) :
    Indexes key value (map.insert (key a) (value a))
      ((xs.filter fun b => key b ≠ key a) ++ [a]) := by
  intro k
  by_cases here : key a = k
  · subst here
    rw [Finmap.lookup_insert, last_concat_self]
  · rw [Finmap.lookup_insert_of_ne _ (Ne.symm here), last_concat_of_ne here,
      last_drop_of_ne (Ne.symm here)]
    exact indexes k

theorem Indexes.erase (indexes : Indexes key value map xs) (k : κ) :
    Indexes key value (map.erase k) (xs.filter fun a => key a ≠ k) := by
  intro j
  by_cases here : j = k
  · subst here
    rw [Finmap.lookup_erase, last_drop_self]
  · rw [Finmap.lookup_erase_ne here, last_drop_of_ne here]
    exact indexes j

theorem indexes_foldl (xs : List α) :
    Indexes key value (xs.foldl (fun map a => map.insert (key a) (value a)) ∅) xs := by
  induction xs using List.reverseRecOn with
  | nil => exact indexes_nil
  | append_singleton xs a ih =>
      rw [List.foldl_append]
      exact ih.insert a

/-! ## What the map shows -/

theorem Indexes.mem_iff (indexes : Indexes key value map xs) {k : κ} :
    k ∈ map ↔ k ∈ xs.map key := by
  rw [← Finmap.lookup_isSome, indexes k, last_isSome_iff]

theorem Indexes.keys (indexes : Indexes key value map xs) :
    map.keys = (xs.map key).toFinset := by
  apply Finset.ext
  intro k
  rw [Finmap.mem_keys, indexes.mem_iff, List.mem_toFinset]

theorem lookup_of_mem_entries {entry : Sigma fun _ : κ => ν} (there : entry ∈ map.entries) :
    map.lookup entry.1 = some entry.2 := by
  induction map using Finmap.induction_on with
  | H alist =>
      rw [Finmap.lookup_toFinmap]
      exact AList.mem_lookup_iff.mpr there

theorem Indexes.values (indexes : Indexes key value map xs) :
    (map.entries.map fun entry => some entry.2) =
      map.keys.val.map fun k => last key value k xs := by
  have same : map.keys.val = map.entries.map Sigma.fst := rfl
  rw [same, Multiset.map_map]
  apply Multiset.map_congr rfl
  intro entry there
  rw [Function.comp_apply, ← indexes entry.1, lookup_of_mem_entries there]

end Blasthttp.Lib.LastValue
