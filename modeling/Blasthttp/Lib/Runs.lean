/-
# Blasthttp.Lib.Runs -- runs of a transition system

A system steps by labelled actions, each allowed or not in the state it meets.  What
the start has and every step keeps holds at the end of every run (`run_induction`),
a run can be cut at any of its actions (`run_append`), and what each action meets where it
is taken is judged one action at a time (`along_concat`).
-/
import Mathlib.Data.List.Basic
import Mathlib.Data.List.Induction
import Mathlib.Tactic.Common

namespace Blasthttp.Lib.Runs

set_option autoImplicit false

variable {State Action : Type} (step : State → Action → Option State)

/-- The state after the actions, if every one was allowed. -/
def run (s : State) : List Action → Option State
  | [] => some s
  | a :: rest =>
      match step s a with
      | none => none
      | some s' => run s' rest

variable {step}

theorem run_append {s t : State} {front back : List Action} :
    run step s (front ++ back) = some t ↔
      ∃ m, run step s front = some m ∧ run step m back = some t := by
  induction front generalizing s with
  | nil =>
      constructor
      · intro whole
        exact ⟨s, rfl, whole⟩
      · rintro ⟨m, here, rest⟩
        cases here
        exact rest
  | cons a front ih =>
      rw [List.cons_append, run, run]
      cases step s a with
      | none => simp
      | some s' => exact ih

theorem run_concat {s t : State} {actions : List Action} {a : Action} :
    run step s (actions ++ [a]) = some t ↔
      ∃ m, run step s actions = some m ∧ step m a = some t := by
  rw [run_append]
  refine exists_congr fun m => and_congr_right fun _ => ?_
  rw [run]
  cases step m a with
  | none => simp
  | some s' => simp [run]

/-- Induction along a run, with the actions taken so far. -/
theorem run_induction {s : State} {motive : List Action → State → Prop} (start : motive [] s)
    (keeps : ∀ {actions : List Action} {t u : State} {a : Action},
      run step s actions = some t → motive actions t → step t a = some u →
        motive (actions ++ [a]) u) {actions : List Action} {t : State}
    (ran : run step s actions = some t) : motive actions t := by
  induction actions using List.reverseRecOn generalizing t with
  | nil =>
      cases ran
      exact start
  | append_singleton actions a ih =>
      obtain ⟨m, before, last⟩ := run_concat.mp ran
      exact keeps before (ih before) last

/-- An invariant of the states alone. -/
theorem run_invariant {s : State} {motive : State → Prop} (start : motive s)
    (keeps : ∀ {t u : State} {a : Action}, motive t → step t a = some u → motive u)
    {actions : List Action} {t : State} (ran : run step s actions = some t) : motive t :=
  run_induction (motive := fun _ t => motive t) start (fun _ here stepped => keeps here stepped) ran

/-! ## What a run shows -/

/-- What is to be seen of the actions of a run, each looked at in the state it is taken in. -/
def seen {Sight : Type} (step : State → Action → Option State) (look : State → Action → Option Sight) :
    State → List Action → List Sight
  | _, [] => []
  | s, a :: rest =>
      (look s a).toList ++
        match step s a with
        | none => []
        | some s' => seen step look s' rest

theorem seen_concat {Sight : Type} {look : State → Action → Option Sight} {s t : State}
    {actions : List Action} {a : Action} (ran : run step s actions = some t) :
    seen step look s (actions ++ [a]) = seen step look s actions ++ (look t a).toList := by
  induction actions generalizing s with
  | nil =>
      cases ran
      simp only [List.nil_append, seen]
      cases step t a with
      | none => exact List.append_nil _
      | some next => exact List.append_nil _
  | cons first rest ih =>
      rw [run] at ran
      rw [List.cons_append, seen, seen]
      cases stepped : step s first with
      | none =>
          rw [stepped] at ran
          cases ran
      | some next =>
          rw [stepped] at ran
          simp only [ih ran, List.append_assoc]

/-! ## Every action of a run -/

/-- Each action of the run meets `P` in the state it is taken in. -/
def Along (step : State → Action → Option State) (P : State → Action → Prop) (s : State)
    (actions : List Action) : Prop :=
  ∀ front a back m, actions = front ++ a :: back → run step s front = some m → P m a

theorem along_nil {P : State → Action → Prop} {s : State} : Along step P s [] := by
  intro front a back m split
  simp at split

theorem along_cons {P : State → Action → Prop} {s t : State} {a : Action} {rest : List Action}
    (stepped : step s a = some t) :
    Along step P s (a :: rest) ↔ P s a ∧ Along step P t rest := by
  constructor
  · intro along
    refine ⟨along [] a rest s rfl rfl, ?_⟩
    rintro front b back m rfl reached
    exact along (a :: front) b back m rfl (by rw [run, stepped]; exact reached)
  · rintro ⟨here, later⟩ front b back m split reached
    cases front with
    | nil =>
        cases split
        cases reached
        exact here
    | cons first front =>
        cases split
        rw [run, stepped] at reached
        exact later front b back m rfl reached

theorem along_concat {P : State → Action → Prop} {s t : State} {actions : List Action} {a : Action}
    (ran : run step s actions = some t) :
    Along step P s (actions ++ [a]) ↔ Along step P s actions ∧ P t a := by
  constructor
  · intro along
    refine ⟨?_, along actions a [] t rfl ran⟩
    rintro front b back m rfl reached
    exact along front b (back ++ [a]) m (by simp) reached
  · rintro ⟨earlier, here⟩ front b back m split reached
    rcases List.eq_nil_or_concat back with rfl | ⟨back, last, rfl⟩
    · obtain ⟨rfl, same⟩ := List.append_inj' split rfl
      cases same
      rw [ran] at reached
      cases reached
      exact here
    · rw [List.concat_eq_append, ← List.cons_append, ← List.append_assoc] at split
      obtain ⟨rfl, -⟩ := List.append_inj' split rfl
      exact earlier front b back m rfl reached

end Blasthttp.Lib.Runs
