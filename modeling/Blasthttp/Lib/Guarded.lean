/-
# Blasthttp.Lib.Guarded -- an object behind a lock

Calls wait for a lock; the one that has it works on the object step by step, and the lock
is free again when it is over or dropped.  Meanwhile nobody else touches the object,
except for what happens at it from outside.  So the calls take turns (`turns`), and a log
the object keeps is what each turn put there, one behind the other (`ledger_of_run`).
-/
import Blasthttp.Lib.Places
import Blasthttp.Lib.Runs
import Mathlib.Data.List.Nodup
import Mathlib.Logic.Function.Basic

namespace Blasthttp.Lib.Guarded

open Blasthttp.Lib.Runs Blasthttp.Lib.Places

set_option autoImplicit false

/-! ## Calls that take turns -/

/-- What calls do with an object: on taking the lock, at each step with it, and what goes
on at the object without them.  A call goes on with a local state or ends. -/
structure Object (σ Call Held Out Move Event : Type) where
  enter : σ → Call → σ × (Held ⊕ Out)
  move : σ → Held → Move → Option (σ × (Held ⊕ Out))
  happen : σ → Event → Option σ

inductive Stage (Held Out : Type) where
  | waiting
  | holding (here : Held)
  | done (out : Out)
  /-- Its caller gave it up before it was over. -/
  | dropped
  deriving DecidableEq

structure Monitor (σ Call Held Out : Type) where
  object : σ
  /-- The calls in the order they were made. -/
  calls : List (Call × Stage Held Out)
  /-- Those that have had the lock, in the order they took it. -/
  turns : List Nat
  deriving DecidableEq

inductive Action (Call Move Event : Type) where
  | call (c : Call)
  | enter (i : Nat)
  | move (i : Nat) (m : Move)
  | drop (i : Nat)
  | happen (e : Event)

variable {σ Call Held Out Move Event : Type}

def Stage.isHolding : Stage Held Out → Bool
  | .holding _ => true
  | _ => false

def Stage.after : Held ⊕ Out → Stage Held Out
  | .inl here => .holding here
  | .inr out => .done out

def Monitor.opened (object : σ) : Monitor σ Call Held Out := ⟨object, [], []⟩

def Monitor.setStage (s : Monitor σ Call Held Out) (i : Nat) (c : Call) (stage : Stage Held Out) :
    Monitor σ Call Held Out :=
  { s with calls := s.calls.set i (c, stage) }

/-- The lock is taken. -/
def Monitor.locked (s : Monitor σ Call Held Out) : Bool :=
  s.calls.any fun call => call.2.isHolding

def Object.step (object : Object σ Call Held Out Move Event) (s : Monitor σ Call Held Out) :
    Action Call Move Event → Option (Monitor σ Call Held Out)
  | .call c => some { s with calls := s.calls ++ [(c, .waiting)] }
  | .enter i =>
      match s.calls[i]? with
      | some (c, .waiting) =>
          if s.locked then none
          else
            let (after, stage) := object.enter s.object c
            some ⟨after, s.calls.set i (c, .after stage), s.turns ++ [i]⟩
      | _ => none
  | .move i m =>
      match s.calls[i]? with
      | some (c, .holding here) =>
          match object.move s.object here m with
          | some (after, stage) => some ⟨after, s.calls.set i (c, .after stage), s.turns⟩
          | none => none
      | _ => none
  | .drop i =>
      match s.calls[i]? with
      | some (c, .waiting) => some (s.setStage i c .dropped)
      | some (c, .holding _) => some (s.setStage i c .dropped)
      | _ => none
  | .happen e =>
      match object.happen s.object e with
      | some after => some { s with object := after }
      | none => none

/-! ## What a step does -/

/-- The ways a step goes. -/
inductive Step (object : Object σ Call Held Out Move Event) (s : Monitor σ Call Held Out) :
    Action Call Move Event → Monitor σ Call Held Out → Prop where
  | call (c : Call) : Step object s (.call c) { s with calls := s.calls ++ [(c, .waiting)] }
  | enter {i : Nat} {c : Call} {after : σ} {stage : Held ⊕ Out}
      (here : s.calls[i]? = some (c, .waiting)) (free : s.locked = false)
      (entered : object.enter s.object c = (after, stage)) :
      Step object s (.enter i) ⟨after, s.calls.set i (c, .after stage), s.turns ++ [i]⟩
  | move {i : Nat} {m : Move} {c : Call} {held : Held} {after : σ} {stage : Held ⊕ Out}
      (here : s.calls[i]? = some (c, .holding held))
      (moved : object.move s.object held m = some (after, stage)) :
      Step object s (.move i m) ⟨after, s.calls.set i (c, .after stage), s.turns⟩
  | drop {i : Nat} {c : Call} {stage : Stage Held Out} (here : s.calls[i]? = some (c, stage))
      (under : stage = .waiting ∨ ∃ held, stage = .holding held) :
      Step object s (.drop i) (s.setStage i c .dropped)
  | happen {e : Event} {after : σ} (happened : object.happen s.object e = some after) :
      Step object s (.happen e) { s with object := after }

variable {object : Object σ Call Held Out Move Event} {s t m : Monitor σ Call Held Out}
  {a : Action Call Move Event}

theorem step_cases (stepped : object.step s a = some t) : Step object s a t := by
  cases a with
  | call c =>
      cases stepped
      exact .call c
  | enter i =>
      simp only [Object.step] at stepped
      split at stepped
      · rename_i c here
        split at stepped
        · cases stepped
        · rename_i free
          cases stepped
          exact .enter here (by simpa using free) rfl
      · cases stepped
  | move i m =>
      simp only [Object.step] at stepped
      split at stepped
      · rename_i c held here
        split at stepped
        · rename_i after stage moved
          cases stepped
          exact .move here moved
        · cases stepped
      · cases stepped
  | drop i =>
      simp only [Object.step] at stepped
      split at stepped
      · rename_i c here
        cases stepped
        exact .drop here (.inl rfl)
      · rename_i c held here
        cases stepped
        exact .drop here (.inr ⟨held, rfl⟩)
      · cases stepped
  | happen e =>
      simp only [Object.step] at stepped
      split at stepped
      · rename_i after happened
        cases stepped
        exact .happen happened
      · cases stepped

/-- What nothing outside and no turn takes from the object, the object keeps. -/
theorem object_invariant {P : σ → Prop} (start : P s.object)
    (enter : ∀ {o c after stage}, P o → object.enter o c = (after, stage) → P after)
    (move : ∀ {o held m after stage}, P o → object.move o held m = some (after, stage) → P after)
    (happen : ∀ {o e after}, P o → object.happen o e = some after → P after)
    {actions : List (Action Call Move Event)} (ran : run object.step s actions = some t) :
    P t.object := by
  refine run_invariant (motive := fun s => P s.object) start ?_ ran
  intro s t a kept stepped
  cases step_cases stepped with
  | call c => exact kept
  | enter here free entered => exact enter kept entered
  | move here moved => exact move kept moved
  | drop here under => exact kept
  | happen happened => exact happen kept happened

/-- A call that is over was so before, or the step ended it: as it took the lock, or later. -/
theorem done_step {i : Nat} {c : Call} {out : Out} (stepped : object.step s a = some t)
    (there : t.calls[i]? = some (c, .done out)) :
    s.calls[i]? = some (c, .done out) ∨
      (∃ after, object.enter s.object c = (after, .inr out) ∧ t.object = after) ∨
        ∃ held m after, s.calls[i]? = some (c, .holding held) ∧
          object.move s.object held m = some (after, .inr out) ∧ t.object = after := by
  cases step_cases stepped with
  | call d =>
      rcases getElem?_concat_cases there with old | ⟨-, fresh⟩
      · exact .inl old
      · cases fresh
  | @enter j d after stage here free entered =>
      rcases getElem?_set_cases there with ⟨rfl, same⟩ | ⟨-, old⟩
      · cases stage with
        | inl held => cases same
        | inr out' =>
            cases same
            exact .inr (.inl ⟨after, entered, rfl⟩)
      · exact .inl old
  | @move j m d held after stage here moved =>
      rcases getElem?_set_cases there with ⟨rfl, same⟩ | ⟨-, old⟩
      · cases stage with
        | inl held => cases same
        | inr out' =>
            cases same
            exact .inr (.inr ⟨held, m, after, here, moved, rfl⟩)
      · exact .inl old
  | drop here under =>
      rcases getElem?_set_cases there with ⟨rfl, same⟩ | ⟨-, old⟩
      · cases same
      · exact .inl old
  | happen happened => exact .inl there

/-! ## Who can go on -/

theorem locked_iff : s.locked = true ↔
    ∃ (i : Nat) (c : Call) (held : Held), s.calls[i]? = some (c, .holding held) := by
  rw [Monitor.locked, List.any_eq_true]
  constructor
  · rintro ⟨⟨c, stage⟩, there, holds⟩
    obtain ⟨i, here⟩ := List.getElem?_of_mem there
    cases stage with
    | holding held => exact ⟨i, c, held, here⟩
    | _ => cases holds
  · rintro ⟨i, c, held, here⟩
    exact ⟨_, List.mem_of_getElem? here, rfl⟩

theorem not_locked {i : Nat} {c : Call} {held : Held} (free : s.locked = false) :
    s.calls[i]? ≠ some (c, .holding held) := by
  intro there
  rw [locked_iff.mpr ⟨i, c, held, there⟩] at free
  cases free

/-- No call can take the lock: one has it, or none waits for it. -/
theorem enter_none_iff : (∀ i, object.step s (.enter i) = none) ↔
    s.locked = true ∨ ∀ (i : Nat) (c : Call), s.calls[i]? ≠ some (c, .waiting) := by
  constructor
  · intro shut
    cases taken : s.locked with
    | true => exact .inl rfl
    | false =>
        refine .inr fun i c here => ?_
        have stays := shut i
        simp only [Object.step, here, taken, Bool.false_eq_true, if_false] at stays
        cases stays
  · rintro (taken | settled) i
    · simp only [Object.step, taken, if_true]
      split <;> rfl
    · simp only [Object.step]
      split
      · rename_i c here
        exact absurd here (settled i c)
      · rfl

/-- No call can go on by `m`. -/
theorem move_none_iff {m : Move} : (∀ i, object.step s (.move i m) = none) ↔
    ∀ (i : Nat) (c : Call) (held : Held), s.calls[i]? = some (c, .holding held) →
      object.move s.object held m = none := by
  constructor
  · intro idle i c held here
    have stays := idle i
    simp only [Object.step, here] at stays
    cases moved : object.move s.object held m with
    | none => rfl
    | some after =>
        rw [moved] at stays
        cases stays
  · intro idle i
    simp only [Object.step]
    split
    · rename_i c held here
      rw [idle i c held here]
    · rfl

/-! ## The order of the turns -/

theorem turns_step (stepped : object.step s a = some t) : s.turns <+: t.turns := by
  cases step_cases stepped with
  | enter here free entered => exact List.prefix_append _ _
  | _ => exact List.prefix_refl _

/-- A turn that has been taken stays in front of those to come. -/
theorem turns_of_run {actions : List (Action Call Move Event)}
    (ran : run object.step s actions = some t) : s.turns <+: t.turns :=
  run_invariant (motive := fun u => s.turns <+: u.turns) (List.prefix_refl _)
    (fun before stepped => before.trans (turns_step stepped)) ran

/-! ## The log -/

variable {β : Type}

/-- How a log of the object grows: a call that goes on has put `Midway` there so far, and
one that is over has put there what it has `Ended` with. -/
structure Logs (object : Object σ Call Held Out Move Event) (log : σ → List β)
    (Midway : Call → Held → List β → Prop) (Ended : Call → Out → List β → Prop) : Prop where
  enter : ∀ {o c after held}, object.enter o c = (after, .inl held) →
    ∃ xs, log after = log o ++ xs ∧ Midway c held xs
  refused : ∀ {o c after out}, object.enter o c = (after, .inr out) →
    ∃ xs, log after = log o ++ xs ∧ Ended c out xs
  move : ∀ {o c held m after held' xs}, object.move o held m = some (after, .inl held') →
    Midway c held xs → ∃ more, log after = log o ++ more ∧ Midway c held' (xs ++ more)
  finished : ∀ {o c held m after out xs}, object.move o held m = some (after, .inr out) →
    Midway c held xs → ∃ more, log after = log o ++ more ∧ Ended c out (xs ++ more)
  happen : ∀ {o e after}, object.happen o e = some after → log after = log o

/-- What call `i` has put in the log, by its stage. -/
def Entry (Midway : Call → Held → List β → Prop) (Ended : Call → Out → List β → Prop)
    (turns : List Nat) (i : Nat) (c : Call) (xs : List β) : Stage Held Out → Prop
  | .waiting => i ∉ turns
  | .holding held => turns.getLast? = some i ∧ Midway c held xs
  | .done out => i ∈ turns ∧ Ended c out xs
  | .dropped => i ∈ turns → ∃ held, Midway c held xs

/-- The log is the parts of the turns, one behind the other. -/
structure Ledger (log : σ → List β) (Midway : Call → Held → List β → Prop)
    (Ended : Call → Out → List β → Prop) (start : List β) (s : Monitor σ Call Held Out)
    (part : Nat → List β) : Prop where
  nodup : s.turns.Nodup
  known : ∀ i ∈ s.turns, i < s.calls.length
  log_eq : log s.object = start ++ s.turns.flatMap part
  entries : ∀ {i c stage}, s.calls[i]? = some (c, stage) →
    Entry Midway Ended s.turns i c (part i) stage

section Ledger

variable {log : σ → List β} {Midway : Call → Held → List β → Prop}
  {Ended : Call → Out → List β → Prop} {start : List β} {part : Nat → List β}

theorem ledger_opened (o : σ) :
    Ledger log Midway Ended (log o) (Monitor.opened o : Monitor σ Call Held Out) fun _ => [] where
  nodup := List.nodup_nil
  known := by
    intro i there
    cases there
  log_eq := (List.append_nil _).symm
  entries := by
    intro i c stage there
    cases there

/-- Only the call whose turn came last can hold the lock. -/
theorem Ledger.holder_unique (ledger : Ledger log Midway Ended start s part) {i j : Nat}
    {c d : Call} {held other : Held} (one : s.calls[i]? = some (c, .holding held))
    (two : s.calls[j]? = some (d, .holding other)) : i = j := by
  have last := (ledger.entries one).1
  rw [(ledger.entries two).1] at last
  exact (Option.some.inj last).symm

/-- A turn's part changes no other's. -/
theorem flatMap_update {turns : List Nat} {i : Nat} (absent : i ∉ turns) (xs : List β) :
    turns.flatMap (Function.update part i xs) = turns.flatMap part := by
  rw [List.flatMap_def, List.flatMap_def]
  congr 1
  apply List.map_congr_left
  intro j there
  have apart : j ≠ i := by
    rintro rfl
    exact absent there
  exact Function.update_of_ne apart _ _

theorem Ledger.call (ledger : Ledger log Midway Ended start s part) (c : Call) :
    Ledger log Midway Ended start { s with calls := s.calls ++ [(c, .waiting)] } part where
  nodup := ledger.nodup
  known := by
    intro i there
    have := ledger.known i there
    rw [List.length_append]
    omega
  log_eq := ledger.log_eq
  entries := by
    intro i d stage there
    rcases getElem?_concat_cases there with old | ⟨rfl, fresh⟩
    · exact ledger.entries old
    · cases fresh
      intro turn
      exact Nat.lt_irrefl _ (ledger.known _ turn)

theorem Ledger.enter (ledger : Ledger log Midway Ended start s part) {i : Nat} {c : Call}
    (here : s.calls[i]? = some (c, .waiting)) (free : s.locked = false) {after : σ}
    {stage : Stage Held Out} {xs : List β} (grown : log after = log s.object ++ xs)
    (entry : Entry Midway Ended (s.turns ++ [i]) i c xs stage) :
    Ledger log Midway Ended start ⟨after, s.calls.set i (c, stage), s.turns ++ [i]⟩
      (Function.update part i xs) where
  nodup := by
    have fresh : i ∉ s.turns := ledger.entries here
    exact List.nodup_append.mpr ⟨ledger.nodup, List.nodup_singleton i, by
      rintro j there k same rfl
      cases List.mem_singleton.mp same
      exact fresh there⟩
  known := by
    intro j there
    rw [List.length_set]
    rcases List.mem_append.mp there with old | same
    · exact ledger.known j old
    · cases List.mem_singleton.mp same
      exact (List.getElem?_eq_some_iff.mp here).1
  log_eq := by
    have fresh : i ∉ s.turns := ledger.entries here
    rw [List.flatMap_append, flatMap_update fresh, List.flatMap_singleton, Function.update_self,
      ← List.append_assoc, ← ledger.log_eq]
    exact grown
  entries := by
    intro j d other there
    rcases getElem?_set_cases there with ⟨rfl, same⟩ | ⟨apart, old⟩
    · cases same
      rw [Function.update_self]
      exact entry
    · rw [Function.update_of_ne apart]
      have before := ledger.entries old
      cases other with
      | waiting =>
          intro turn
          rcases List.mem_append.mp turn with old | same
          · exact before old
          · exact apart (List.mem_singleton.mp same)
      | holding held => exact absurd old (not_locked free)
      | done out => exact ⟨List.mem_append_left _ before.1, before.2⟩
      | dropped =>
          intro turn
          rcases List.mem_append.mp turn with old | same
          · exact before old
          · exact absurd (List.mem_singleton.mp same) apart

/-- The holder goes on, or is over: what it adds comes last. -/
theorem Ledger.move (ledger : Ledger log Midway Ended start s part) {i : Nat} {c : Call}
    {held : Held} (here : s.calls[i]? = some (c, .holding held)) {after : σ}
    {stage : Stage Held Out} {more : List β} (grown : log after = log s.object ++ more)
    (entry : Entry Midway Ended s.turns i c (part i ++ more) stage) :
    Ledger log Midway Ended start ⟨after, s.calls.set i (c, stage), s.turns⟩
      (Function.update part i (part i ++ more)) where
  nodup := ledger.nodup
  known := by
    intro j there
    rw [List.length_set]
    exact ledger.known j there
  log_eq := by
    obtain ⟨front, split⟩ := List.getLast?_eq_some_iff.mp (ledger.entries here).1
    have distinct := ledger.nodup
    have before := ledger.log_eq
    rw [split] at distinct before ⊢
    have absent : i ∉ front := by
      intro there
      exact (List.nodup_append.mp distinct).2.2 i there i (List.mem_singleton.mpr rfl) rfl
    rw [List.flatMap_append, List.flatMap_singleton] at before ⊢
    rw [flatMap_update absent, Function.update_self, ← List.append_assoc, ← List.append_assoc,
      List.append_assoc start, ← before]
    exact grown
  entries := by
    intro j d other there
    rcases getElem?_set_cases there with ⟨rfl, same⟩ | ⟨apart, old⟩
    · cases same
      rw [Function.update_self]
      exact entry
    · rw [Function.update_of_ne apart]
      exact ledger.entries old

theorem Ledger.drop (ledger : Ledger log Midway Ended start s part) {i : Nat} {c : Call}
    {stage : Stage Held Out} (here : s.calls[i]? = some (c, stage))
    (under : stage = .waiting ∨ ∃ held, stage = .holding held) :
    Ledger log Midway Ended start (s.setStage i c .dropped) part where
  nodup := ledger.nodup
  known := by
    intro j there
    have := ledger.known j there
    simpa [Monitor.setStage] using this
  log_eq := ledger.log_eq
  entries := by
    intro j d other there
    rcases getElem?_set_cases there with ⟨rfl, same⟩ | ⟨apart, old⟩
    · cases same
      intro turn
      have before := ledger.entries here
      rcases under with rfl | ⟨held, rfl⟩
      · exact absurd turn before
      · exact ⟨held, before.2⟩
    · exact ledger.entries old

theorem Ledger.step (logs : Logs object log Midway Ended)
    (ledger : Ledger log Midway Ended start s part) (stepped : object.step s a = some t) :
    ∃ part', Ledger log Midway Ended start t part' := by
  cases step_cases stepped with
  | call c => exact ⟨part, ledger.call c⟩
  | @enter i c after stage here free entered =>
      cases stage with
      | inl held =>
          obtain ⟨xs, grown, midway⟩ := logs.enter entered
          exact ⟨_, ledger.enter here free grown ⟨List.getLast?_concat, midway⟩⟩
      | inr out =>
          obtain ⟨xs, grown, ended⟩ := logs.refused entered
          exact ⟨_, ledger.enter here free grown
            ⟨List.mem_append_right _ (List.mem_singleton.mpr rfl), ended⟩⟩
  | @move i m c held after stage here moved =>
      obtain ⟨last, so_far⟩ := ledger.entries here
      cases stage with
      | inl held' =>
          obtain ⟨more, grown, midway⟩ := logs.move moved so_far
          exact ⟨_, ledger.move here grown ⟨last, midway⟩⟩
      | inr out =>
          obtain ⟨more, grown, ended⟩ := logs.finished moved so_far
          exact ⟨_, ledger.move here grown ⟨List.mem_of_getLast? last, ended⟩⟩
  | drop here under => exact ⟨part, ledger.drop here under⟩
  | happen happened =>
      refine ⟨part, ledger.nodup, ledger.known, ?_, ledger.entries⟩
      exact (logs.happen happened).trans ledger.log_eq

/-- Whatever the interleaving, the log of an object behind a lock is serial. -/
theorem ledger_of_run (logs : Logs object log Midway Ended) {o : σ}
    {actions : List (Action Call Move Event)} (ran : run object.step (.opened o) actions = some s) :
    ∃ part, Ledger log Midway Ended (log o) s part := by
  refine run_invariant (motive := fun s => ∃ part, Ledger log Midway Ended (log o) s part)
    ⟨_, ledger_opened o⟩ ?_ ran
  rintro s t a ⟨part, ledger⟩ stepped
  exact ledger.step logs stepped

end Ledger

end Blasthttp.Lib.Guarded
