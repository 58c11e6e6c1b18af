/-
# Blasthttp.Batch.SendBatch -- the plain batch

`send_batch` spawns a task for each config, paced by the limiter, and then joins them in
order; a task takes a permit of the semaphore, sends, and drops the permit when it
ends, however it ends.  The limiter is a wait before each spawn, and the tasks take
their steps in any order.

`sendBatch_results`: what is returned are the results of the configs, in order, and the
permits bound the sends under way.
-/
import Blasthttp.Lib.Places
import Blasthttp.Lib.Runs
import Blasthttp.Client.Request

namespace Blasthttp.Batch

open Blasthttp.Rust Blasthttp.Client Blasthttp.Lib.Places Blasthttp.Lib.Runs

set_option autoImplicit false

variable {Response : Type}

/-! ## Results -/

structure BatchResult (Response : Type) where
  url : Str
  result : Except ClientError Response

/-- How a call of `client.send` ends: with a result, or by unwinding its task, which leaves
a `JoinError` with this text. -/
inductive Ending (Response : Type) where
  | returned (result : Except ClientError Response)
  | panicked (joinError : Str)

/-- What `send_batch` makes of a joined task. -/
def joined (config : RequestConfig) : Ending Response → BatchResult Response
  | .returned result => ⟨config.url, result⟩
  | .panicked joinError =>
      ⟨"<unknown>".toList, .error ⟨"task panicked: ".toList ++ joinError, .other⟩⟩

/-- `Semaphore::MAX_PERMITS` where `usize` has 64 bits. -/
def maxPermits : Nat := (2 ^ 64 - 1) / 8

/-! ## The batch -/

inductive Stage (Response : Type) where
  /-- Spawned, without a permit. -/
  | waiting
  /-- In `client.send`. -/
  | sending
  /-- Out of it, the permit not dropped yet. -/
  | ended (ending : Ending Response)
  | done (ending : Ending Response)

structure BatchTask (Response : Type) where
  config : RequestConfig
  stage : Stage Response

structure SendBatch (Response : Type) where
  permits : Nat
  pending : List RequestConfig
  /-- The acquire for the next config has returned. -/
  paced : Bool
  tasks : List (BatchTask Response)
  results : List (BatchResult Response)

/-- `Semaphore::new` panics above its largest number of permits. -/
def SendBatch.start (configs : List RequestConfig) (concurrency : Nat) :
    Option (SendBatch Response) :=
  if maxPermits < concurrency then none
  else
    some
      { permits := concurrency
        pending := configs
        paced := false
        tasks := []
        results := [] }

inductive BatchAction (Response : Type) where
  /-- The limiter, if there is one, lets the next config through. -/
  | pace
  | spawn
  /-- A task takes a permit and calls `client.send`. -/
  | take (task : Nat)
  | finish (task : Nat) (ending : Ending Response)
  | release (task : Nat)
  | join

def SendBatch.setStage (sys : SendBatch Response) (i : Nat) (task : BatchTask Response)
    (stage : Stage Response) : SendBatch Response :=
  { sys with tasks := sys.tasks.set i { task with stage := stage } }

def SendBatch.step (sys : SendBatch Response) : BatchAction Response → Option (SendBatch Response)
  | .pace =>
      match sys.pending, sys.paced with
      | _ :: _, false => some { sys with paced := true }
      | _, _ => none
  | .spawn =>
      match sys.pending, sys.paced with
      | config :: rest, true =>
          some
            { sys with
              pending := rest
              paced := false
              tasks := sys.tasks ++ [⟨config, .waiting⟩] }
      | _, _ => none
  | .take i =>
      match sys.tasks[i]?, sys.permits with
      | some ⟨config, .waiting⟩, permits + 1 =>
          some ({ sys with permits := permits }.setStage i ⟨config, .waiting⟩ .sending)
      | _, _ => none
  | .finish i ending =>
      match sys.tasks[i]? with
      | some ⟨config, .sending⟩ => some (sys.setStage i ⟨config, .sending⟩ (.ended ending))
      | _ => none
  | .release i =>
      match sys.tasks[i]? with
      | some ⟨config, .ended ending⟩ =>
          some ({ sys with permits := sys.permits + 1 }.setStage i ⟨config, .ended ending⟩
            (.done ending))
      | _ => none
  | .join =>
      match sys.pending, sys.tasks[sys.results.length]? with
      | [], some ⟨config, .done ending⟩ =>
          some { sys with results := sys.results ++ [joined config ending] }
      | _, _ => none

/-- The loop over the handles is over. -/
def SendBatch.returned (sys : SendBatch Response) : Bool :=
  sys.pending.isEmpty && sys.results.length = sys.tasks.length

/-! ## Counting permits -/

def Stage.isSending : Stage Response → Bool
  | .sending => true
  | _ => false

/-- A task between its permit and the drop of it. -/
def Stage.holds : Stage Response → Bool
  | .sending => true
  | .ended _ => true
  | _ => false

/-- The calls of `client.send` under way. -/
def SendBatch.inFlight (sys : SendBatch Response) : Nat :=
  sys.tasks.countP fun task => task.stage.isSending

def SendBatch.holders (sys : SendBatch Response) : Nat :=
  sys.tasks.countP fun task => task.stage.holds

theorem inFlight_le_holders (sys : SendBatch Response) : sys.inFlight ≤ sys.holders := by
  apply List.countP_mono_left
  intro task _ sending
  cases stage : task.stage with
  | sending => rfl
  | _ =>
      rw [stage] at sending
      cases sending

/-! ## What a step can do -/

inductive BatchStep (sys : SendBatch Response) : SendBatch Response → Prop
  | paced {config : RequestConfig} {rest : List RequestConfig} (next : sys.pending = config :: rest) :
      BatchStep sys { sys with paced := true }
  | spawned {config : RequestConfig} {rest : List RequestConfig}
      (next : sys.pending = config :: rest) :
      BatchStep sys
        { sys with
          pending := rest
          paced := false
          tasks := sys.tasks ++ [⟨config, .waiting⟩] }
  | took {i permits : Nat} {task : BatchTask Response} (there : sys.tasks[i]? = some task)
      (stage : task.stage = .waiting) (free : sys.permits = permits + 1) :
      BatchStep sys ({ sys with permits := permits }.setStage i task .sending)
  | finished {i : Nat} {task : BatchTask Response} {ending : Ending Response}
      (there : sys.tasks[i]? = some task) (stage : task.stage = .sending) :
      BatchStep sys (sys.setStage i task (.ended ending))
  | released {i : Nat} {task : BatchTask Response} {ending : Ending Response}
      (there : sys.tasks[i]? = some task) (stage : task.stage = .ended ending) :
      BatchStep sys ({ sys with permits := sys.permits + 1 }.setStage i task (.done ending))
  | joined {task : BatchTask Response} {ending : Ending Response} (spawned : sys.pending = [])
      (there : sys.tasks[sys.results.length]? = some task) (stage : task.stage = .done ending) :
      BatchStep sys { sys with results := sys.results ++ [Batch.joined task.config ending] }

theorem batch_step {sys sys' : SendBatch Response} {action : BatchAction Response}
    (stepped : sys.step action = some sys') : BatchStep sys sys' := by
  cases action with
  | pace =>
      simp only [SendBatch.step] at stepped
      split at stepped
      · rename_i next _
        cases stepped
        exact .paced next
      · cases stepped
  | spawn =>
      simp only [SendBatch.step] at stepped
      split at stepped
      · rename_i next _
        cases stepped
        exact .spawned next
      · cases stepped
  | take i =>
      simp only [SendBatch.step] at stepped
      split at stepped
      · rename_i there free
        cases stepped
        exact .took there rfl free
      · cases stepped
  | finish i ending =>
      simp only [SendBatch.step] at stepped
      split at stepped
      · rename_i there
        cases stepped
        exact .finished there rfl
      · cases stepped
  | release i =>
      simp only [SendBatch.step] at stepped
      split at stepped
      · rename_i there
        cases stepped
        exact .released there rfl
      · cases stepped
  | join =>
      simp only [SendBatch.step] at stepped
      split at stepped
      · rename_i spawned there
        cases stepped
        exact .joined spawned there rfl
      · cases stepped

/-! ## Every run -/

/-- What holds between the steps of a batch. -/
structure SendBatch.Kept (configs : List RequestConfig) (concurrency : Nat)
    (sys : SendBatch Response) : Prop where
  order : sys.tasks.map BatchTask.config ++ sys.pending = configs
  permits : sys.permits + sys.holders = concurrency
  results : ∀ i < sys.results.length, ∃ task ending, sys.tasks[i]? = some task ∧
    task.stage = .done ending ∧ sys.results[i]? = some (joined task.config ending)

theorem kept_sendBatch_start {configs : List RequestConfig} {concurrency : Nat}
    {sys : SendBatch Response} (started : SendBatch.start configs concurrency = some sys) :
    sys.Kept configs concurrency := by
  unfold SendBatch.start at started
  split at started
  · cases started
  · cases started
    refine ⟨rfl, rfl, ?_⟩
    intro i inside
    cases inside

/-- A task that goes on: its config stays, and the permits move with it. -/
theorem SendBatch.Kept.setStage {configs : List RequestConfig} {concurrency n : Nat}
    {sys : SendBatch Response} (kept : sys.Kept configs concurrency) {i : Nat}
    {task : BatchTask Response} (there : sys.tasks[i]? = some task) {stage : Stage Response}
    (under : ∀ ending, task.stage ≠ .done ending)
    (balance : n + (if stage.holds then 1 else 0) =
      sys.permits + (if task.stage.holds then 1 else 0)) :
    SendBatch.Kept configs concurrency ({ sys with permits := n }.setStage i task stage) := by
  refine ⟨?_, ?_, ?_⟩
  · show (sys.tasks.set i { task with stage := stage }).map BatchTask.config ++ _ = _
    rw [map_set_same (x := { task with stage := stage }) there rfl]
    exact kept.order
  · have counted := countP_set_balance (p := fun task => task.stage.holds) there
      { task with stage := stage }
    have before := kept.permits
    show n + (sys.tasks.set i { task with stage := stage }).countP _ = concurrency
    unfold SendBatch.holders at before
    simp only at counted
    omega
  · intro j inside
    obtain ⟨old, ending, found, done, result⟩ := kept.results j inside
    refine ⟨old, ending, ?_, done, result⟩
    have other : i ≠ j := by
      rintro rfl
      cases there.symm.trans found
      exact under ending done
    exact (List.getElem?_set_ne other).trans found

theorem kept_batch_step {configs : List RequestConfig} {concurrency : Nat}
    {sys sys' : SendBatch Response} (kept : sys.Kept configs concurrency)
    (stepped : BatchStep sys sys') : sys'.Kept configs concurrency := by
  cases stepped with
  | paced next => exact ⟨kept.order, kept.permits, kept.results⟩
  | @spawned config rest next =>
      refine ⟨?_, ?_, ?_⟩
      · have order := kept.order
        rw [next] at order
        show (sys.tasks ++ [_]).map BatchTask.config ++ rest = configs
        rw [List.map_append, List.append_assoc]
        exact order
      · show sys.permits + (sys.tasks ++ [_]).countP _ = concurrency
        rw [List.countP_append]
        exact kept.permits
      · intro j inside
        obtain ⟨old, ending, found, done, result⟩ := kept.results j inside
        exact ⟨old, ending, getElem?_concat_old found, done, result⟩
  | took there stage free =>
      refine kept.setStage there ?_ ?_
      · intro ending clash
        rw [stage] at clash
        cases clash
      · rw [stage, free]
        rfl
  | finished there stage =>
      refine kept.setStage (n := sys.permits) there ?_ ?_
      · intro ending clash
        rw [stage] at clash
        cases clash
      · rw [stage]
        rfl
  | released there stage =>
      refine kept.setStage there ?_ ?_
      · intro ending clash
        rw [stage] at clash
        cases clash
      · rw [stage]
        rfl
  | @joined task ending spawned there stage =>
      refine ⟨kept.order, kept.permits, ?_⟩
      intro j inside
      rw [List.length_append, List.length_singleton] at inside
      rcases Nat.lt_succ_iff_lt_or_eq.mp inside with old | rfl
      · obtain ⟨held, ending', found, done, result⟩ := kept.results j old
        exact ⟨held, ending', found, done, getElem?_concat_old result⟩
      · exact ⟨task, ending, there, stage, List.getElem?_concat_length⟩

theorem kept_sendBatch_run {configs : List RequestConfig} {concurrency : Nat}
    {init sys : SendBatch Response} (started : SendBatch.start configs concurrency = some init)
    {actions : List (BatchAction Response)} (ran : run SendBatch.step init actions = some sys) :
    sys.Kept configs concurrency :=
  run_invariant (motive := SendBatch.Kept configs concurrency) (kept_sendBatch_start started)
    (fun kept stepped => kept_batch_step kept (batch_step stepped)) ran

/-- How the send for the config at place `i` ended. -/
def SendBatch.endingOf (sys : SendBatch Response) (i : Nat) : Option (Ending Response) :=
  match sys.tasks[i]? with
  | some ⟨_, .ended ending⟩ => some ending
  | some ⟨_, .done ending⟩ => some ending
  | _ => none

/-- What a batch with these endings returns. -/
def SendBatch.Returns (configs : List RequestConfig) (sys : SendBatch Response) : Prop :=
  sys.results.length = configs.length ∧
    ∀ (i : Nat) (config : RequestConfig), configs[i]? = some config →
      ∃ ending, sys.endingOf i = some ending ∧ sys.results[i]? = some (joined config ending)

theorem SendBatch.Kept.returns {configs : List RequestConfig} {concurrency : Nat}
    {sys : SendBatch Response} (kept : sys.Kept configs concurrency)
    (returned : sys.returned = true) : sys.Returns configs := by
  unfold SendBatch.returned at returned
  simp only [Bool.and_eq_true, List.isEmpty_iff, decide_eq_true_eq] at returned
  obtain ⟨spawned, all⟩ := returned
  have order := kept.order
  rw [spawned, List.append_nil] at order
  refine ⟨by rw [all, ← order, List.length_map], ?_⟩
  intro i config there
  rw [← order, List.getElem?_map] at there
  obtain ⟨task, found, rfl⟩ := Option.map_eq_some_iff.mp there
  have inside : i < sys.results.length := by
    rw [all]
    exact (List.getElem?_eq_some_iff.mp found).1
  obtain ⟨task', ending, found', done, result⟩ := kept.results i inside
  cases found.symm.trans found'
  refine ⟨ending, ?_, result⟩
  unfold SendBatch.endingOf
  rw [found]
  cases task
  cases done
  rfl

/-- **The plain batch.** In every run, with any limiter, endings and order of the tasks, at
most `concurrency` sends are under way; and if it returns, it returns one result for
each config, in the order of the configs: what its own send ended with. -/
theorem sendBatch_results {configs : List RequestConfig} {concurrency : Nat}
    {init sys : SendBatch Response} (started : SendBatch.start configs concurrency = some init)
    {actions : List (BatchAction Response)} (ran : run SendBatch.step init actions = some sys) :
    sys.inFlight ≤ concurrency ∧ (sys.returned = true → sys.Returns configs) := by
  have kept := kept_sendBatch_run started ran
  refine ⟨?_, kept.returns⟩
  have holders := inFlight_le_holders sys
  have permits := kept.permits
  omega

/-! Two configs on one permit; the second send panics. -/

def twoConfigs : List RequestConfig :=
  [RequestConfig.new "https://a.example".toList, RequestConfig.new "https://b.example".toList]

def twoStart : SendBatch Nat := (SendBatch.start twoConfigs 1).getD ⟨0, [], false, [], []⟩

def twoActions : List (BatchAction Nat) :=
  [.pace, .spawn, .pace, .spawn, .take 1, .finish 1 (.panicked "boom".toList), .release 1, .take 0,
    .finish 0 (.returned (.ok 200)), .release 0, .join, .join]

def twoEnd : SendBatch Nat := (run SendBatch.step twoStart twoActions).getD twoStart

theorem sendBatch_results_two :
    twoEnd.inFlight ≤ 1 ∧ twoEnd.Returns twoConfigs := by
  have results := @sendBatch_results Nat twoConfigs 1 twoStart twoEnd (by rfl) twoActions (by rfl)
  exact ⟨results.1, results.2 (by rfl)⟩

end Blasthttp.Batch
