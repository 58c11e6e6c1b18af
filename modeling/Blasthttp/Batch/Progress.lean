/-
# Blasthttp.Batch.Progress -- a batch can always go on

Given at least one permit: a batch that lacks results can take a step
(`sendBatch_enabled`, `stream_enabled`), since a task that waits for a permit waits for
one that holds it.  Without a permit a batch with configs gets stuck, and so
`progress_iff` has no other condition.
-/
import Blasthttp.Batch.SendBatchStream

namespace Blasthttp.Batch

open Blasthttp.Rust Blasthttp.Client Blasthttp.Lib.Places Blasthttp.Lib.Runs

set_option autoImplicit false

variable {Response : Type}

/-! ## The plain batch -/

/-- Some step can be taken; an unfinished send can end in some way. -/
def SendBatch.Enabled (sys : SendBatch Response) : Prop :=
  ∃ action, (sys.step action).isSome = true

/-- Some config has no result yet. -/
def SendBatch.Lacks (configs : List RequestConfig) (sys : SendBatch Response) : Prop :=
  sys.results.length < configs.length

/-- A task that has not ended can go on, but for the lack of a permit. -/
theorem task_enabled {sys : SendBatch Response} {i : Nat} {task : BatchTask Response}
    (there : sys.tasks[i]? = some task) (under : ∀ ending, task.stage ≠ .done ending)
    (free : task.stage = .waiting → sys.permits ≠ 0) : sys.Enabled := by
  obtain ⟨config, stage⟩ := task
  cases stage with
  | waiting =>
      obtain ⟨n, permits⟩ := Nat.exists_eq_succ_of_ne_zero (free rfl)
      refine ⟨.take i, ?_⟩
      simp only [SendBatch.step, there, permits]
      rfl
  | sending =>
      refine ⟨.finish i (.panicked []), ?_⟩
      simp only [SendBatch.step, there]
      rfl
  | ended ending =>
      refine ⟨.release i, ?_⟩
      simp only [SendBatch.step, there]
      rfl
  | done ending => exact absurd rfl (under ending)

theorem sendBatch_enabled {configs : List RequestConfig} {concurrency : Nat}
    {sys : SendBatch Response} (kept : sys.Kept configs concurrency) (positive : 0 < concurrency)
    (lacks : sys.Lacks configs) : sys.Enabled := by
  cases pending : sys.pending with
  | cons config rest =>
      cases paced : sys.paced with
      | false =>
          refine ⟨.pace, ?_⟩
          simp only [SendBatch.step, pending, paced]
          rfl
      | true =>
          refine ⟨.spawn, ?_⟩
          simp only [SendBatch.step, pending, paced]
          rfl
  | nil =>
      have order := kept.order
      rw [pending, List.append_nil] at order
      have inside : sys.results.length < sys.tasks.length := by
        have counted := congrArg List.length order
        rw [List.length_map] at counted
        rw [counted]
        exact lacks
      -- the task whose handle is joined next
      have there := List.getElem?_eq_getElem inside
      generalize sys.tasks[sys.results.length] = task at there
      cases stage : task.stage with
      | done ending =>
          refine ⟨.join, ?_⟩
          obtain ⟨config, stage'⟩ := task
          cases stage
          simp only [SendBatch.step, pending, there]
          rfl
      | sending => exact task_enabled there (by simp [stage]) (by simp [stage])
      | ended ending => exact task_enabled there (by simp [stage]) (by simp [stage])
      | waiting =>
          by_cases free : sys.permits = 0
          · -- all permits are held, so some task has one
            have permits := kept.permits
            have held : 0 < sys.holders := by omega
            obtain ⟨holder, inTasks, holds⟩ := List.countP_pos_iff.mp held
            obtain ⟨j, here⟩ := List.getElem?_of_mem inTasks
            apply task_enabled here
            · intro ending done
              rw [done] at holds
              cases holds
            · intro waits
              rw [waits] at holds
              cases holds
          · exact task_enabled there (by simp [stage]) (fun _ => free)

/-- The driver alone can spawn all that is pending. -/
theorem spawn_all {sys : SendBatch Response} {pending : List RequestConfig}
    (left : sys.pending = pending) (fresh : sys.paced = false) :
    ∃ actions, run SendBatch.step sys actions = some
      { sys with
        pending := []
        tasks := sys.tasks ++ pending.map fun config => ⟨config, .waiting⟩ } := by
  induction pending generalizing sys with
  | nil =>
      refine ⟨[], ?_⟩
      simp only [run, List.map_nil, List.append_nil]
      rw [← left]
  | cons config rest ih =>
      obtain ⟨actions, ran⟩ := @ih { sys with
        pending := rest
        paced := false
        tasks := sys.tasks ++ [⟨config, .waiting⟩] } rfl rfl
      refine ⟨.pace :: .spawn :: actions, ?_⟩
      simp only [run, SendBatch.step, left, fresh]
      rw [ran]
      simp

/-- Tasks that all wait for a permit, with none to be had. -/
theorem not_enabled_of_waiting {sys : SendBatch Response} (spawned : sys.pending = [])
    (empty : sys.permits = 0) (waits : ∀ task ∈ sys.tasks, task.stage = .waiting) :
    ¬ sys.Enabled := by
  rintro ⟨action, enabled⟩
  obtain ⟨sys', stepped⟩ := Option.isSome_iff_exists.mp enabled
  have waiting : ∀ {i : Nat} {task : BatchTask Response}, sys.tasks[i]? = some task →
      task.stage = .waiting := fun there => waits _ (List.mem_of_getElem? there)
  cases batch_step stepped with
  | paced next =>
      rw [spawned] at next
      cases next
  | spawned next =>
      rw [spawned] at next
      cases next
  | took there stage free =>
      rw [empty] at free
      cases free
  | finished there stage => cases (waiting there).symm.trans stage
  | released there stage => cases (waiting there).symm.trans stage
  | joined spawned there stage => cases (waiting there).symm.trans stage

theorem sendBatch_stuck {configs : List RequestConfig} (nonempty : configs ≠ [])
    {init : SendBatch Response} (started : SendBatch.start configs 0 = some init) :
    ∃ actions sys, run SendBatch.step init actions = some sys ∧ sys.Lacks configs ∧
      ¬ sys.Enabled := by
  have begun : init.permits = 0 ∧ init.pending = configs ∧ init.paced = false ∧ init.tasks = [] ∧
      init.results = [] := by
    cases started
    exact ⟨rfl, rfl, rfl, rfl, rfl⟩
  obtain ⟨empty, left, fresh, none, unjoined⟩ := begun
  obtain ⟨actions, ran⟩ := spawn_all left fresh
  refine ⟨actions, _, ran, ?_, not_enabled_of_waiting rfl empty ?_⟩
  · show init.results.length < configs.length
    rw [unjoined]
    exact List.length_pos_of_ne_nil nonempty
  · intro task there
    rw [none, List.nil_append] at there
    obtain ⟨config, -, rfl⟩ := List.mem_map.mp there
    rfl

/-! ## The stream -/

def SendBatchStream.Enabled (sys : SendBatchStream Response) : Prop :=
  ∃ action, (sys.step action).isSome = true

/-- The tasks whose send panicked. -/
def SendBatchStream.panics (sys : SendBatchStream Response) : Nat :=
  sys.tasks.countP fun task =>
    match task.stage with
    | .ended (.panicked _) => true
    | .delivered (.panicked _) => true
    | .done (.panicked _) => true
    | _ => false

/-- Some config has no result yet. -/
def SendBatchStream.Lacks (configs : List RequestConfig) (sys : SendBatchStream Response) : Prop :=
  sys.yielded.length < configs.length

/-- Some config has no result yet, and its send has not panicked. -/
def SendBatchStream.Awaits (configs : List RequestConfig) (sys : SendBatchStream Response) : Prop :=
  sys.yielded.length + sys.panics < configs.length

theorem streamTask_enabled {sys : SendBatchStream Response} {i : Nat} {task : StreamTask Response}
    (there : sys.tasks[i]? = some task) (under : ∀ ending, task.stage ≠ .done ending) :
    sys.Enabled := by
  obtain ⟨config, stage⟩ := task
  cases stage with
  | spawned =>
      refine ⟨.begin i, ?_⟩
      simp only [SendBatchStream.step, there]
      rfl
  | sending =>
      refine ⟨.finish i (.panicked []), ?_⟩
      simp only [SendBatchStream.step, there]
      rfl
  | ended ending =>
      cases ending with
      | returned result =>
          refine ⟨.deliver i, ?_⟩
          simp only [SendBatchStream.step, there]
          rfl
      | panicked joinError =>
          refine ⟨.release i, ?_⟩
          simp only [SendBatchStream.step, there, StreamStage.leaves]
          rfl
  | delivered ending =>
      refine ⟨.release i, ?_⟩
      simp only [SendBatchStream.step, there, StreamStage.leaves]
      rfl
  | done ending => exact absurd rfl (under ending)

/-- Where all tasks are done, each had an output or panicked. -/
theorem outputs_add_panics {sys : SendBatchStream Response}
    (done : ∀ task ∈ sys.tasks, ∃ ending, task.stage = .done ending) :
    (sys.tasks.filterMap StreamTask.output).length + sys.panics = sys.tasks.length := by
  unfold SendBatchStream.panics
  generalize sys.tasks = tasks at done
  induction tasks with
  | nil => rfl
  | cons task rest ih =>
      have later := ih fun task there => done task (List.mem_cons_of_mem _ there)
      obtain ⟨ending, stage⟩ := done task List.mem_cons_self
      obtain ⟨config, stage'⟩ := task
      cases stage
      cases ending with
      | returned result =>
          rw [List.filterMap_cons_some (show StreamTask.output ⟨config, _⟩ = some _ from rfl),
            List.countP_cons_of_neg (by simp), List.length_cons, List.length_cons]
          omega
      | panicked joinError =>
          rw [List.filterMap_cons_none (show StreamTask.output ⟨config, _⟩ = none from rfl),
            List.countP_cons_of_pos (by simp), List.length_cons]
          omega

/-- A task that holds its permit can go on. -/
theorem holder_enabled {sys : SendBatchStream Response} (held : 0 < sys.holders) : sys.Enabled := by
  obtain ⟨task, inTasks, under⟩ := List.countP_pos_iff.mp held
  obtain ⟨i, there⟩ := List.getElem?_of_mem inTasks
  apply streamTask_enabled there
  intro ending done
  rw [done] at under
  cases under

/-- Without a holder every task is done. -/
theorem done_of_holders {sys : SendBatchStream Response} (none : sys.holders = 0) :
    ∀ task ∈ sys.tasks, ∃ ending, task.stage = .done ending := by
  intro task there
  have finished := List.countP_eq_zero.mp none task there
  cases stage : task.stage with
  | done ending => exact ⟨ending, rfl⟩
  | _ =>
      rw [stage] at finished
      exact absurd rfl finished

/-- While a config is pending the driver can go on, or the permit it waits for is held by
a task that can. -/
theorem driver_enabled {configs : List RequestConfig} {concurrency : Nat}
    {sys : SendBatchStream Response} (kept : sys.Kept configs concurrency)
    (positive : 0 < concurrency) {config : RequestConfig} {rest : List RequestConfig}
    (pending : sys.pending = config :: rest) : sys.Enabled := by
  cases permit : sys.permit with
  | true =>
      refine ⟨.spawn, ?_⟩
      simp only [SendBatchStream.step, pending, permit]
      rfl
  | false =>
      cases paced : sys.paced with
      | false =>
          refine ⟨.pace, ?_⟩
          simp only [SendBatchStream.step, pending, paced]
          rfl
      | true =>
          cases free : sys.permits with
          | succ n =>
              refine ⟨.acquire, ?_⟩
              simp only [SendBatchStream.step, paced, permit, free]
              rfl
          | zero =>
              have permits := kept.permits
              rw [permit, free] at permits
              apply holder_enabled
              simp only [Bool.false_eq_true, if_false] at permits
              omega

theorem stream_enabled {configs : List RequestConfig} {concurrency : Nat}
    {sys : SendBatchStream Response} (kept : sys.Kept configs concurrency)
    (positive : 0 < concurrency) (awaits : sys.Awaits configs) : sys.Enabled := by
  cases channel : sys.channel with
  | cons result rest =>
      refine ⟨.receive, ?_⟩
      simp only [SendBatchStream.step, channel]
      rfl
  | nil =>
      cases pending : sys.pending with
      | cons config rest => exact driver_enabled kept positive pending
      | nil =>
          by_cases held : 0 < sys.holders
          · exact holder_enabled held
          · -- everything is done and received: nothing is lacking
            have all := outputs_add_panics (done_of_holders (Nat.eq_zero_of_not_pos held))
            have order := congrArg List.length kept.order
            have results := kept.results.length_eq
            rw [pending, List.append_nil, List.length_map] at order
            rw [channel, List.append_nil] at results
            unfold SendBatchStream.Awaits at awaits
            omega

/-- Without permits the driver waits for one at the first config. -/
theorem stream_stuck {configs : List RequestConfig} (nonempty : configs ≠ [])
    {init : SendBatchStream Response} (started : SendBatchStream.start configs 0 = some init) :
    ∃ actions sys, run SendBatchStream.step init actions = some sys ∧ sys.panics = 0 ∧
      sys.Lacks configs ∧ ¬ sys.Enabled := by
  obtain ⟨config, rest, rfl⟩ := List.exists_cons_of_ne_nil nonempty
  cases started
  refine ⟨[.pace], _, rfl, rfl, Nat.succ_pos _, ?_⟩
  rintro ⟨action, enabled⟩
  cases action with
  | pace => cases enabled
  | acquire => cases enabled
  | spawn => cases enabled
  | begin i => cases enabled
  | finish i ending => cases enabled
  | deliver i => cases enabled
  | release i => cases enabled
  | receive => cases enabled

/-! ## Both batches -/

/-- **A batch never gets stuck.** With the permits a batch starts with: every reachable
state of the plain one in which some config has no result, and every such state of the
stream before any panic, allows a step, if and only if there are no configs or there is
a permit; and with a permit, panics keep no other config of a stream from its result. -/
theorem progress_iff {configs : List RequestConfig} {concurrency : Nat}
    {plain : SendBatch Response} {stream : SendBatchStream Response}
    (started : SendBatch.start configs concurrency = some plain)
    (opened : SendBatchStream.start configs concurrency = some stream) :
    ((∀ actions sys, run SendBatch.step plain actions = some sys → sys.Lacks configs →
      sys.Enabled) ↔ configs = [] ∨ 0 < concurrency) ∧
    ((∀ actions sys, run SendBatchStream.step stream actions = some sys → sys.panics = 0 →
      sys.Lacks configs → sys.Enabled) ↔ configs = [] ∨ 0 < concurrency) ∧
    (0 < concurrency → ∀ actions sys, run SendBatchStream.step stream actions = some sys →
      sys.Awaits configs → sys.Enabled) := by
  refine ⟨⟨?_, ?_⟩, ⟨?_, ?_⟩, ?_⟩
  · intro always
    by_contra neither
    obtain ⟨nonempty, zero⟩ := not_or.mp neither
    have none : concurrency = 0 := by omega
    subst none
    obtain ⟨actions, sys, ran, lacks, stuck⟩ := sendBatch_stuck nonempty started
    exact stuck (always actions sys ran lacks)
  · rintro (rfl | positive) actions sys ran lacks
    · exact absurd lacks (Nat.not_lt_zero _)
    · exact sendBatch_enabled (kept_sendBatch_run started ran) positive lacks
  · intro always
    by_contra neither
    obtain ⟨nonempty, zero⟩ := not_or.mp neither
    have none : concurrency = 0 := by omega
    subst none
    obtain ⟨actions, sys, ran, calm, lacks, stuck⟩ := stream_stuck nonempty opened
    exact stuck (always actions sys ran calm lacks)
  · rintro (rfl | positive) actions sys ran calm lacks
    · exact absurd lacks (Nat.not_lt_zero _)
    · apply stream_enabled (kept_stream_run opened ran) positive
      unfold SendBatchStream.Awaits
      rw [calm]
      exact lacks
  · intro positive actions sys ran awaits
    exact stream_enabled (kept_stream_run opened ran) positive awaits

theorem progress_iff_two :
    (∀ actions sys, run SendBatch.step twoStart actions = some sys → sys.Lacks twoConfigs →
      sys.Enabled) ↔ twoConfigs = [] ∨ 0 < 1 :=
  (@progress_iff Nat twoConfigs 1 twoStart twoStream (by rfl) (by rfl)).1

def permitless : SendBatch Nat := (SendBatch.start twoConfigs 0).getD ⟨0, [], false, [], []⟩

def permitlessEnd : SendBatch Nat :=
  (run SendBatch.step permitless [.pace, .spawn, .pace, .spawn]).getD permitless

/-- Two configs and no permit: both tasks wait for ever. -/
theorem permitless_stuck :
    SendBatch.start twoConfigs 0 = some permitless ∧
      run SendBatch.step permitless [.pace, .spawn, .pace, .spawn] = some permitlessEnd ∧
      permitlessEnd.Lacks twoConfigs ∧ ¬ permitlessEnd.Enabled := by
  refine ⟨by rfl, by rfl, ?_, not_enabled_of_waiting (by rfl) (by rfl) ?_⟩
  · show 0 < 2
    decide
  · intro task there
    rcases List.mem_cons.mp there with rfl | there
    · rfl
    · rw [List.mem_singleton.mp there]

end Blasthttp.Batch
