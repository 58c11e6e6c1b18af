/-
# Blasthttp.Lib.KeyedList -- a list with at most one entry for each key

A store that appends what is put into it, after taking out the entry with the same
key.  Keys stay distinct (`run_distinct`), one write touches one key (`mem_step`), and
after any writes the entries are the last puts of their keys that no later write
touched (`mem_run`).  As a set it is a map that is updated (`Represents.step`).
-/
import Mathlib.Data.List.Induction
import Mathlib.Data.List.Nodup
import Mathlib.Logic.Function.Basic
import Mathlib.Tactic.Common

namespace Blasthttp.Lib.KeyedList

set_option autoImplicit false

variable {α κ : Type}

inductive Write (α κ : Type) where
  | put (a : α)
  | drop (k : κ)

def Write.key (key : α → κ) : Write α κ → κ
  | .put a => key a
  | .drop k => k

variable [DecidableEq κ] (key : α → κ)

/-- Take out the first entry under `k`. -/
def erase (k : κ) (xs : List α) : List α := xs.eraseP fun a => key a = k

def step (xs : List α) : Write α κ → List α
  | .put a => erase key (key a) xs ++ [a]
  | .drop k => erase key k xs

def run (xs : List α) (writes : List (Write α κ)) : List α := writes.foldl (step key) xs

/-- No two entries share a key. -/
def Distinct (xs : List α) : Prop := (xs.map key).Nodup

/-- The last put of its key, with no later write to that key. -/
def Latest (writes : List (Write α κ)) (a : α) : Prop :=
  ∃ before after, writes = before ++ .put a :: after ∧ ∀ w ∈ after, w.key key ≠ key a

variable {key}

theorem erase_eq_filter {xs : List α} (distinct : Distinct key xs) (k : κ) :
    erase key k xs = xs.filter fun a => key a ≠ k := by
  induction xs with
  | nil => rfl
  | cons a xs ih =>
      obtain ⟨fresh, rest⟩ := List.nodup_cons.mp (distinct : (key a :: xs.map key).Nodup)
      by_cases here : key a = k
      · have others : ∀ b ∈ xs, (key b ≠ k) := by
          intro b there same
          exact fresh (by rw [here, ← same]; exact List.mem_map_of_mem there)
        rw [erase, List.eraseP_cons_of_pos (by simpa using here),
          List.filter_cons_of_neg (by simpa using here),
          List.filter_eq_self.mpr fun b there => by simpa using others b there]
      · rw [erase, List.eraseP_cons_of_neg (by simpa using here),
          List.filter_cons_of_pos (by simpa using here)]
        exact congrArg (a :: ·) (ih rest)

theorem mem_erase {xs : List α} (distinct : Distinct key xs) {k : κ} {b : α} :
    b ∈ erase key k xs ↔ b ∈ xs ∧ key b ≠ k := by
  rw [erase_eq_filter distinct, List.mem_filter, decide_eq_true_eq]

omit [DecidableEq κ] in
theorem distinct_nil : Distinct key [] := List.nodup_nil

theorem erase_distinct {xs : List α} (distinct : Distinct key xs) (k : κ) :
    Distinct key (erase key k xs) := by
  unfold Distinct erase
  exact List.Nodup.sublist (List.eraseP_sublist.map key) distinct

theorem step_distinct {xs : List α} (distinct : Distinct key xs) (w : Write α κ) :
    Distinct key (step key xs w) := by
  cases w with
  | drop k => exact erase_distinct distinct k
  | put a =>
      unfold Distinct step
      rw [List.map_append, List.nodup_append]
      refine ⟨erase_distinct distinct (key a), List.nodup_singleton _, ?_⟩
      intro k old k' new
      obtain ⟨b, there, rfl⟩ := List.mem_map.mp old
      rw [List.map_singleton, List.mem_singleton] at new
      rw [new]
      exact ((mem_erase distinct).mp there).2

/-- One write leaves the entries of all other keys as they were, in their order. -/
theorem step_frame {xs : List α} (distinct : Distinct key xs) (w : Write α κ) :
    (step key xs w).filter (fun a => key a ≠ w.key key) = xs.filter fun a => key a ≠ w.key key := by
  have others : ∀ k, ((erase key k xs).filter fun a => key a ≠ k) = xs.filter fun a => key a ≠ k := by
    intro k
    rw [erase_eq_filter distinct, List.filter_filter]
    simp only [Bool.and_self]
  cases w with
  | drop k => exact others k
  | put a =>
      have own : [a].filter (fun b => key b ≠ key a) = [] := by simp
      show (erase key (key a) xs ++ [a]).filter (fun b => key b ≠ key a) =
        xs.filter fun b => key b ≠ key a
      rw [List.filter_append, others, own, List.append_nil]

theorem run_distinct {xs : List α} (distinct : Distinct key xs) (writes : List (Write α κ)) :
    Distinct key (run key xs writes) := by
  induction writes generalizing xs with
  | nil => exact distinct
  | cons w writes ih => exact ih (step_distinct distinct w)

theorem run_concat (xs : List α) (writes : List (Write α κ)) (w : Write α κ) :
    run key xs (writes ++ [w]) = step key (run key xs writes) w := by
  simp [run, List.foldl_append]

/-- One write puts in its own entry and touches no other key. -/
theorem mem_step {xs : List α} (distinct : Distinct key xs) {w : Write α κ} {b : α} :
    b ∈ step key xs w ↔ w = .put b ∨ (b ∈ xs ∧ key b ≠ w.key key) := by
  cases w with
  | drop k => simpa [step, Write.key] using mem_erase distinct
  | put a =>
      rw [step, List.mem_append, mem_erase distinct, List.mem_singleton, or_comm,
        Write.put.injEq, eq_comm]
      rfl

/-- **Last write wins.** The entries after a run from the empty list are the latest
puts. -/
theorem mem_run {writes : List (Write α κ)} {b : α} :
    b ∈ run key [] writes ↔ Latest key writes b := by
  induction writes using List.reverseRecOn with
  | nil =>
      constructor
      · intro there
        cases there
      · rintro ⟨before, after, split, -⟩
        simp at split
  | append_singleton writes w ih =>
      rw [run_concat, mem_step (run_distinct distinct_nil writes), ih]
      constructor
      · rintro (rfl | ⟨⟨before, after, rfl, untouched⟩, other⟩)
        · exact ⟨writes, [], rfl, by simp⟩
        · refine ⟨before, after ++ [w], by simp, ?_⟩
          intro v there
          rcases List.mem_append.mp there with old | new
          · exact untouched v old
          · rw [List.mem_singleton.mp new]
            exact other.symm
      · rintro ⟨before, after, split, untouched⟩
        rcases List.eq_nil_or_concat after with rfl | ⟨after', v, rfl⟩
        · obtain ⟨-, last⟩ := List.append_inj' split rfl
          rw [List.singleton_inj] at last
          exact .inl last
        · rw [List.concat_eq_append, ← List.cons_append, ← List.append_assoc] at split
          obtain ⟨front, last⟩ := List.append_inj' split rfl
          rw [List.singleton_inj] at last
          subst last
          refine .inr ⟨⟨before, after', front, fun u there => untouched u (by simp [there])⟩, ?_⟩
          exact (untouched w (by simp)).symm

/-! ## The map it stands for -/

/-- A write to a map. -/
def update (key : α → κ) (map : κ → Option α) : Write α κ → κ → Option α
  | .put a => Function.update map (key a) (some a)
  | .drop k => Function.update map k none

/-- The list holds what the map has, each entry under its key. -/
structure Represents (key : α → κ) (xs : List α) (map : κ → Option α) : Prop where
  distinct : Distinct key xs
  mem_iff : ∀ a, a ∈ xs ↔ map (key a) = some a
  keyed : ∀ k a, map k = some a → key a = k

omit [DecidableEq κ] in
theorem represents_nil : Represents key [] fun _ => none where
  distinct := distinct_nil
  mem_iff := by simp
  keyed := by simp

theorem Represents.step {xs : List α} {map : κ → Option α} (rep : Represents key xs map)
    (w : Write α κ) : Represents key (step key xs w) (update key map w) where
  distinct := step_distinct rep.distinct w
  mem_iff := by
    intro b
    rw [mem_step rep.distinct, rep.mem_iff]
    cases w with
    | put a =>
        by_cases same : key b = key a
        · simp [update, Write.key, same]
        · have apart : a ≠ b := by
            rintro rfl
            exact same rfl
          simp [update, Write.key, same, apart]
    | drop k =>
        by_cases same : key b = k
        · simp [update, Write.key, same]
        · simp [update, Write.key, same]
  keyed := by
    intro k b there
    cases w with
    | put a =>
        by_cases same : k = key a
        · subst same
          rw [update, Function.update_self, Option.some.injEq] at there
          rw [there]
        · rw [update, Function.update_of_ne same] at there
          exact rep.keyed k b there
    | drop j =>
        by_cases same : k = j
        · rw [update, same, Function.update_self] at there
          cases there
        · rw [update, Function.update_of_ne same] at there
          exact rep.keyed k b there

end Blasthttp.Lib.KeyedList
