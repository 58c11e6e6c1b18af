/-
# Blasthttp.Lib.Recency -- what the order of a keyed list remembers

Writes are numbered as they come.  An entry is created by the first put of its key since
the key was last dropped, and written by the last one.  A keyed list moves what is put to
its end, so its order is that of the last writes (`run_written`), and a stable sort of it
keeps that order among what it does not tell apart (`pairwise_insertionSort_ties`).
-/
import Blasthttp.Lib.KeyedList
import Mathlib.Data.List.Pairwise
import Mathlib.Data.List.Sort

namespace Blasthttp.Lib.KeyedList

set_option autoImplicit false

variable {α κ : Type} [DecidableEq κ] {key : α → κ}

/-! ## Times -/

/-- What write `n` does to the times of the keys; with `keeps`, a put leaves the time of
a key that has one. -/
def mark (key : α → κ) (keeps : Bool) (n : Nat) (times : κ → Option Nat) :
    Write α κ → κ → Option Nat
  | .put a =>
      if keeps && (times (key a)).isSome then times else Function.update times (key a) (some n)
  | .drop k => Function.update times k none

def marks (key : α → κ) (keeps : Bool) : Nat → (κ → Option Nat) → List (Write α κ) →
    κ → Option Nat
  | _, times, [] => times
  | n, times, w :: rest => marks key keeps (n + 1) (mark key keeps n times w) rest

/-- The number of the put that created the entry under a key. -/
def created (key : α → κ) (writes : List (Write α κ)) : κ → Option Nat :=
  marks key true 0 (fun _ => none) writes

/-- The number of the last put under a key. -/
def written (key : α → κ) (writes : List (Write α κ)) : κ → Option Nat :=
  marks key false 0 (fun _ => none) writes

/-- Both keys have a time, the first one an earlier. -/
def Before (times : κ → Option Nat) (j k : κ) : Prop :=
  ∃ m n, times j = some m ∧ times k = some n ∧ m < n

omit [DecidableEq κ] in
theorem Before.asymm {times : κ → Option Nat} {j k : κ} (before : Before times j k) :
    ¬ Before times k j := by
  obtain ⟨m, n, here, there, less⟩ := before
  rintro ⟨m', n', there', here', more⟩
  rw [here] at here'
  rw [there] at there'
  cases here'
  cases there'
  omega

theorem marks_concat (keeps : Bool) (n : Nat) (times : κ → Option Nat)
    (writes : List (Write α κ)) (w : Write α κ) :
    marks key keeps n times (writes ++ [w]) =
      mark key keeps (n + writes.length) (marks key keeps n times writes) w := by
  induction writes generalizing n times with
  | nil => rfl
  | cons v writes ih =>
      rw [List.cons_append, marks, ih, marks, List.length_cons]
      congr 1
      omega

/-- A write leaves the times of other keys. -/
theorem mark_of_ne {w : Write α κ} {k : κ} (other : k ≠ w.key key) (keeps : Bool) (n : Nat)
    (times : κ → Option Nat) : mark key keeps n times w k = times k := by
  cases w with
  | drop j => exact Function.update_of_ne other _ _
  | put a =>
      rw [mark]
      split
      · rfl
      · exact Function.update_of_ne other _ _

/-- A time a write leaves behind is an earlier one, or the put's own. -/
theorem mark_cases {keeps : Bool} {n : Nat} {times : κ → Option Nat} {w : Write α κ} {k : κ}
    {m : Nat} (time : mark key keeps n times w k = some m) :
    times k = some m ∨ (k = w.key key ∧ m = n) := by
  by_cases other : k = w.key key
  · subst other
    cases w with
    | drop j =>
        rw [mark, Write.key, Function.update_self] at time
        cases time
    | put a =>
        rw [mark, Write.key] at time
        split at time
        · exact .inl time
        · rw [Function.update_self] at time
          cases time
          exact .inr ⟨rfl, rfl⟩
  · rw [mark_of_ne other] at time
    exact .inl time

theorem marks_lt {keeps : Bool} {writes : List (Write α κ)} {k : κ} {m : Nat}
    (time : marks key keeps 0 (fun _ => none) writes k = some m) : m < writes.length := by
  induction writes using List.reverseRecOn with
  | nil => cases time
  | append_singleton writes w ih =>
      rw [marks_concat] at time
      rw [List.length_append, List.length_singleton]
      rcases mark_cases time with old | ⟨-, new⟩
      · have earlier := ih old
        omega
      · omega

/-- No two keys share a time. -/
theorem marks_injective {keeps : Bool} {writes : List (Write α κ)} {j k : κ} {m : Nat}
    (here : marks key keeps 0 (fun _ => none) writes j = some m)
    (there : marks key keeps 0 (fun _ => none) writes k = some m) : j = k := by
  induction writes using List.reverseRecOn with
  | nil => cases here
  | append_singleton writes w ih =>
      rw [marks_concat] at here there
      rcases mark_cases here with old | ⟨own, new⟩
      · rcases mark_cases there with old' | ⟨-, new'⟩
        · exact ih old old'
        · have earlier := marks_lt old
          omega
      · rcases mark_cases there with old' | ⟨own', -⟩
        · have earlier := marks_lt old'
          omega
        · exact own.trans own'.symm

/-- What is held has a time. -/
theorem marks_held {keeps : Bool} {writes : List (Write α κ)} {b : α}
    (held : b ∈ run key [] writes) :
    ∃ m, marks key keeps 0 (fun _ => none) writes (key b) = some m := by
  induction writes using List.reverseRecOn with
  | nil => cases held
  | append_singleton writes w ih =>
      rw [run_concat, mem_step (run_distinct distinct_nil writes)] at held
      rw [marks_concat]
      rcases held with rfl | ⟨old, other⟩
      · rw [mark]
        split
        · rename_i kept
          rw [Bool.and_eq_true] at kept
          exact Option.isSome_iff_exists.mp kept.2
        · exact ⟨_, Function.update_self _ _ _⟩
      · obtain ⟨m, time⟩ := ih old
        exact ⟨m, by rw [mark_of_ne other, time]⟩

/-- Of two entries held, one has the earlier time. -/
theorem marks_total {keeps : Bool} {writes : List (Write α κ)} {a b : α}
    (heldA : a ∈ run key [] writes) (heldB : b ∈ run key [] writes) (other : key a ≠ key b) :
    Before (marks key keeps 0 (fun _ => none) writes) (key a) (key b) ∨
      Before (marks key keeps 0 (fun _ => none) writes) (key b) (key a) := by
  obtain ⟨m, timeA⟩ := @marks_held α κ _ key keeps writes a heldA
  obtain ⟨n, timeB⟩ := @marks_held α κ _ key keeps writes b heldB
  rcases Nat.lt_trichotomy m n with less | rfl | more
  · exact .inl ⟨m, n, timeA, timeB, less⟩
  · exact absurd (marks_injective timeA timeB) other
  · exact .inr ⟨n, m, timeB, timeA, more⟩

/-- **The order of a keyed list is that of the last writes.** -/
theorem run_written (writes : List (Write α κ)) :
    (run key [] writes).Pairwise fun a b => Before (written key writes) (key a) (key b) := by
  induction writes using List.reverseRecOn with
  | nil => exact List.Pairwise.nil
  | append_singleton writes w ih =>
      have distinct := @run_distinct α κ _ key [] distinct_nil writes
      have times : written key (writes ++ [w]) =
          mark key false writes.length (written key writes) w := by
        rw [written, marks_concat, Nat.zero_add]
        rfl
      -- what stays keeps its time, since its key is not the write's
      have kept : ((erase key (w.key key) (run key [] writes)).Pairwise fun a b =>
          Before (written key (writes ++ [w])) (key a) (key b)) := by
        refine (ih.sublist List.eraseP_sublist).imp_of_mem ?_
        intro a b thereA thereB before
        have otherA := ((mem_erase distinct).mp thereA).2
        have otherB := ((mem_erase distinct).mp thereB).2
        obtain ⟨m, n, timeA, timeB, less⟩ := before
        exact ⟨m, n, by rw [times, mark_of_ne otherA, timeA], by rw [times, mark_of_ne otherB, timeB],
          less⟩
      rw [run_concat]
      cases w with
      | drop k => exact kept
      | put a =>
          refine List.pairwise_append.mpr ⟨kept, List.pairwise_singleton _ _, ?_⟩
          intro b there c last
          rw [List.mem_singleton.mp last]
          obtain ⟨held, other⟩ := (mem_erase distinct).mp there
          obtain ⟨m, time⟩ := @marks_held α κ _ key false writes b held
          refine ⟨m, writes.length, ?_, ?_, marks_lt time⟩
          · rw [times, mark_of_ne other]
            exact time
          · rw [times, mark, Bool.false_and, if_neg (by simp), Function.update_self]

/-! ## Stable sorting -/

variable {R r : α → α → Prop}

omit [DecidableEq κ] in
/-- Two entries stand in one order or the other. -/
theorem pairwise_or {l : List α} (ordered : l.Pairwise R) {a b : α} (thereA : a ∈ l)
    (thereB : b ∈ l) (other : a ≠ b) : R a b ∨ R b a := by
  have symm : Std.Symm fun a b => R a b ∨ R b a := ⟨fun _ _ => Or.symm⟩
  exact (ordered.imp (S := fun a b => R a b ∨ R b a) Or.inl).forall thereA thereB other

variable [DecidableRel r]

theorem pairwise_orderedInsert_ties (total : ∀ a b, r a b ∨ r b a)
    (trans : ∀ a b c, r a b → r b c → r a c) {x : α} {l : List α} (front : ∀ y ∈ l, R x y)
    (sorted : l.Pairwise fun a b => r a b ∧ (r b a → R a b)) :
    (l.orderedInsert r x).Pairwise fun a b => r a b ∧ (r b a → R a b) := by
  induction l with
  | nil => exact List.pairwise_singleton _ _
  | cons y l ih =>
      obtain ⟨first, rest⟩ := List.pairwise_cons.mp sorted
      by_cases le : r x y
      · rw [List.orderedInsert_cons_of_le r l le]
        refine List.pairwise_cons.mpr ⟨?_, sorted⟩
        intro z there
        refine ⟨?_, fun _ => front z there⟩
        rcases List.mem_cons.mp there with rfl | later
        · exact le
        · exact trans x y z le (first z later).1
      · rw [List.orderedInsert_of_not_le r l le]
        refine List.pairwise_cons.mpr ⟨?_, ih (fun z there => front z (by simp [there])) rest⟩
        intro z there
        rcases (List.mem_orderedInsert r).mp there with rfl | later
        · exact ⟨(total z y).resolve_left le, fun tie => absurd tie le⟩
        · exact first z later

/-- **Insertion sort is stable**: what it does not tell apart stays in the order it
had. -/
theorem pairwise_insertionSort_ties (total : ∀ a b, r a b ∨ r b a)
    (trans : ∀ a b c, r a b → r b c → r a c) {l : List α} (ordered : l.Pairwise R) :
    (l.insertionSort r).Pairwise fun a b => r a b ∧ (r b a → R a b) := by
  induction l with
  | nil => exact List.Pairwise.nil
  | cons x l ih =>
      obtain ⟨front, rest⟩ := List.pairwise_cons.mp ordered
      rw [List.insertionSort_cons]
      refine pairwise_orderedInsert_ties total trans ?_ (ih rest)
      intro y there
      exact front y ((List.mem_insertionSort r).mp there)

end Blasthttp.Lib.KeyedList
