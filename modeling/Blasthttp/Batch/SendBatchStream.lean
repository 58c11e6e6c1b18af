/-
# Blasthttp.Batch.SendBatchStream -- the streaming batch

The driver of `send_batch_stream` waits for the limiter, then for a permit, and hands
the permit to the task it spawns; the task sends, puts its result into the channel, and
drops the permit and its end of the channel.  The consumer polls until the channel is
empty with every sender gone.  The state begins at the first poll, which spawns the
driver.

`stream_agrees_iff`: what a stream yields is what the plain batch returns exactly when no
send panicked, since a task that unwinds puts nothing into the channel.
-/
import Blasthttp.Batch.SendBatch

namespace Blasthttp.Batch

open Blasthttp.Rust Blasthttp.Client Blasthttp.Lib.Places Blasthttp.Lib.Runs

set_option autoImplicit false

variable {Response : Type}

/-! ## The stream -/

inductive StreamStage (Response : Type) where
  /-- Spawned with its permit. -/
  | spawned
  | sending
  | ended (ending : Ending Response)
  /-- The result is in the channel. -/
  | delivered (ending : Ending Response)
  | done (ending : Ending Response)

structure StreamTask (Response : Type) where
  config : RequestConfig
  stage : StreamStage Response

structure SendBatchStream (Response : Type) where
  permits : Nat
  pending : List RequestConfig
  paced : Bool
  /-- The driver has the permit for the next config. -/
  permit : Bool
  tasks : List (StreamTask Response)
  channel : List (BatchResult Response)
  yielded : List (BatchResult Response)

def SendBatchStream.start (configs : List RequestConfig) (concurrency : Nat) :
    Option (SendBatchStream Response) :=
  if maxPermits < concurrency then none
  else
    some
      { permits := concurrency
        pending := configs
        paced := false
        permit := false
        tasks := []
        channel := []
        yielded := [] }

inductive StreamAction (Response : Type) where
  | pace
  /-- The driver gets a permit; `acquire_owned` fails only on a closed semaphore, and
  nothing closes it. -/
  | acquire
  | spawn
  | begin (task : Nat)
  | finish (task : Nat) (ending : Ending Response)
  | deliver (task : Nat)
  /-- The task is over: its permit and its sender are dropped. -/
  | release (task : Nat)
  | receive

def SendBatchStream.setStage (sys : SendBatchStream Response) (i : Nat) (task : StreamTask Response)
    (stage : StreamStage Response) : SendBatchStream Response :=
  { sys with tasks := sys.tasks.set i { task with stage := stage } }

def SendBatchStream.push (sys : SendBatchStream Response) (result : BatchResult Response) :
    SendBatchStream Response :=
  { sys with channel := sys.channel ++ [result] }

/-- Where a task drops its permit: behind its delivery, or as it unwinds. -/
def StreamStage.leaves : StreamStage Response → Option (Ending Response)
  | .ended (.panicked joinError) => some (.panicked joinError)
  | .delivered ending => some ending
  | _ => none

def SendBatchStream.step (sys : SendBatchStream Response) :
    StreamAction Response → Option (SendBatchStream Response)
  | .pace =>
      match sys.pending, sys.paced with
      | _ :: _, false => some { sys with paced := true }
      | _, _ => none
  | .acquire =>
      match sys.paced, sys.permit, sys.permits with
      | true, false, permits + 1 =>
          some
            { sys with
              permits := permits
              permit := true }
      | _, _, _ => none
  | .spawn =>
      match sys.pending, sys.permit with
      | config :: rest, true =>
          some
            { sys with
              pending := rest
              paced := false
              permit := false
              tasks := sys.tasks ++ [⟨config, .spawned⟩] }
      | _, _ => none
  | .begin i =>
      match sys.tasks[i]? with
      | some ⟨config, .spawned⟩ => some (sys.setStage i ⟨config, .spawned⟩ .sending)
      | _ => none
  | .finish i ending =>
      match sys.tasks[i]? with
      | some ⟨config, .sending⟩ => some (sys.setStage i ⟨config, .sending⟩ (.ended ending))
      | _ => none
  | .deliver i =>
      match sys.tasks[i]? with
      | some ⟨config, .ended (.returned result)⟩ =>
          some
            ((sys.push ⟨config.url, result⟩).setStage i ⟨config, .ended (.returned result)⟩
              (.delivered (.returned result)))
      | _ => none
  | .release i =>
      match sys.tasks[i]? with
      | none => none
      | some task =>
          match task.stage.leaves with
          | none => none
          | some ending =>
              some ({ sys with permits := sys.permits + 1 }.setStage i task (.done ending))
  | .receive =>
      match sys.channel with
      | [] => none
      | result :: rest =>
          some
            { sys with
              channel := rest
              yielded := sys.yielded ++ [result] }

def StreamStage.isSending : StreamStage Response → Bool
  | .sending => true
  | _ => false

def StreamStage.isDone : StreamStage Response → Bool
  | .done _ => true
  | _ => false

/-- The stream is polled to its end: every sender is gone and the channel is empty. -/
def SendBatchStream.ended (sys : SendBatchStream Response) : Bool :=
  sys.pending.isEmpty && sys.tasks.all (fun task => task.stage.isDone) && sys.channel.isEmpty

def SendBatchStream.inFlight (sys : SendBatchStream Response) : Nat :=
  sys.tasks.countP fun task => task.stage.isSending

/-- The tasks that have not dropped their permit. -/
def SendBatchStream.holders (sys : SendBatchStream Response) : Nat :=
  sys.tasks.countP fun task => !task.stage.isDone

/-! ## What a step can do -/

inductive StreamStep (sys : SendBatchStream Response) : SendBatchStream Response → Prop
  | paced {config : RequestConfig} {rest : List RequestConfig} (next : sys.pending = config :: rest) :
      StreamStep sys { sys with paced := true }
  | acquired {n : Nat} (ready : sys.paced = true) (without : sys.permit = false)
      (free : sys.permits = n + 1) :
      StreamStep sys
        { sys with
          permits := n
          permit := true }
  | spawned {config : RequestConfig} {rest : List RequestConfig}
      (next : sys.pending = config :: rest) (held : sys.permit = true) :
      StreamStep sys
        { sys with
          pending := rest
          paced := false
          permit := false
          tasks := sys.tasks ++ [⟨config, .spawned⟩] }
  | began {i : Nat} {task : StreamTask Response} (there : sys.tasks[i]? = some task)
      (stage : task.stage = .spawned) : StreamStep sys (sys.setStage i task .sending)
  | finished {i : Nat} {task : StreamTask Response} {ending : Ending Response}
      (there : sys.tasks[i]? = some task) (stage : task.stage = .sending) :
      StreamStep sys (sys.setStage i task (.ended ending))
  | delivered {i : Nat} {task : StreamTask Response} {result : Except ClientError Response}
      (there : sys.tasks[i]? = some task) (stage : task.stage = .ended (.returned result)) :
      StreamStep sys
        ((sys.push ⟨task.config.url, result⟩).setStage i task (.delivered (.returned result)))
  | released {i : Nat} {task : StreamTask Response} {ending : Ending Response}
      (there : sys.tasks[i]? = some task) (leaves : task.stage.leaves = some ending) :
      StreamStep sys ({ sys with permits := sys.permits + 1 }.setStage i task (.done ending))
  | received {result : BatchResult Response} {rest : List (BatchResult Response)}
      (first : sys.channel = result :: rest) :
      StreamStep sys
        { sys with
          channel := rest
          yielded := sys.yielded ++ [result] }

theorem stream_step {sys sys' : SendBatchStream Response} {action : StreamAction Response}
    (stepped : sys.step action = some sys') : StreamStep sys sys' := by
  cases action with
  | pace =>
      simp only [SendBatchStream.step] at stepped
      split at stepped
      · rename_i next _
        cases stepped
        exact .paced next
      · cases stepped
  | acquire =>
      simp only [SendBatchStream.step] at stepped
      split at stepped
      · rename_i ready without free
        cases stepped
        exact .acquired ready without free
      · cases stepped
  | spawn =>
      simp only [SendBatchStream.step] at stepped
      split at stepped
      · rename_i next held
        cases stepped
        exact .spawned next held
      · cases stepped
  | begin i =>
      simp only [SendBatchStream.step] at stepped
      split at stepped
      · rename_i there
        cases stepped
        exact .began there rfl
      · cases stepped
  | finish i ending =>
      simp only [SendBatchStream.step] at stepped
      split at stepped
      · rename_i there
        cases stepped
        exact .finished there rfl
      · cases stepped
  | deliver i =>
      simp only [SendBatchStream.step] at stepped
      split at stepped
      · rename_i there
        cases stepped
        exact .delivered there rfl
      · cases stepped
  | release i =>
      simp only [SendBatchStream.step] at stepped
      split at stepped
      · cases stepped
      · rename_i task there
        split at stepped
        · cases stepped
        · rename_i ending leaves
          cases stepped
          exact .released there leaves
  | receive =>
      simp only [SendBatchStream.step] at stepped
      split at stepped
      · cases stepped
      · rename_i result rest first
        cases stepped
        exact .received first

/-! ## Every run -/

/-- What a task has put into the channel. -/
def StreamTask.output (task : StreamTask Response) : Option (BatchResult Response) :=
  match task.stage with
  | .delivered (.returned result) => some ⟨task.config.url, result⟩
  | .done (.returned result) => some ⟨task.config.url, result⟩
  | _ => none

structure SendBatchStream.Kept (configs : List RequestConfig) (concurrency : Nat)
    (sys : SendBatchStream Response) : Prop where
  order : sys.tasks.map StreamTask.config ++ sys.pending = configs
  permits : sys.permits + (if sys.permit then 1 else 0) + sys.holders = concurrency
  results : (sys.yielded ++ sys.channel).Perm (sys.tasks.filterMap StreamTask.output)
  paced : sys.paced = true → sys.pending ≠ []
  permit : sys.permit = true → sys.paced = true

theorem kept_stream_start {configs : List RequestConfig} {concurrency : Nat}
    {sys : SendBatchStream Response} (started : SendBatchStream.start configs concurrency = some sys) :
    sys.Kept configs concurrency := by
  unfold SendBatchStream.start at started
  split at started
  · cases started
  · cases started
    refine ⟨rfl, rfl, List.Perm.refl _, ?_, ?_⟩
    · intro clash
      cases clash
    · intro clash
      cases clash

/-- A task that goes on without delivering: the permits move with it. -/
theorem SendBatchStream.Kept.setStage {configs : List RequestConfig} {concurrency n : Nat}
    {sys : SendBatchStream Response} (kept : sys.Kept configs concurrency) {i : Nat}
    {task : StreamTask Response} (there : sys.tasks[i]? = some task) {stage : StreamStage Response}
    (same : StreamTask.output { task with stage := stage } = task.output)
    (balance : n + (if !stage.isDone then 1 else 0) =
      sys.permits + (if !task.stage.isDone then 1 else 0)) :
    SendBatchStream.Kept configs concurrency ({ sys with permits := n }.setStage i task stage) := by
  refine ⟨?_, ?_, ?_, kept.paced, kept.permit⟩
  · show (sys.tasks.set i { task with stage := stage }).map StreamTask.config ++ _ = _
    rw [map_set_same (x := { task with stage := stage }) there rfl]
    exact kept.order
  · have counted := countP_set_balance (p := fun task : StreamTask Response => !task.stage.isDone)
      there { task with stage := stage }
    have before := kept.permits
    show n + (if sys.permit then 1 else 0) +
      (sys.tasks.set i { task with stage := stage }).countP _ = concurrency
    unfold SendBatchStream.holders at before
    simp only at counted
    omega
  · show (sys.yielded ++ sys.channel).Perm
      ((sys.tasks.set i { task with stage := stage }).filterMap StreamTask.output)
    rw [filterMap_set_same there same]
    exact kept.results

theorem leaves_output {task : StreamTask Response} {ending : Ending Response}
    (leaves : task.stage.leaves = some ending) :
    StreamTask.output { task with stage := .done ending } = task.output ∧
      task.stage.isDone = false := by
  obtain ⟨config, stage⟩ := task
  cases stage with
  | ended was =>
      cases was with
      | returned result => cases leaves
      | panicked joinError =>
          cases leaves
          exact ⟨rfl, rfl⟩
  | delivered was =>
      cases leaves
      cases ending <;> exact ⟨rfl, rfl⟩
  | _ => cases leaves

/-- A spawned task holds the permit that was acquired for it. -/
theorem SendBatchStream.Kept.spawn {configs : List RequestConfig} {concurrency : Nat}
    {sys : SendBatchStream Response} (kept : sys.Kept configs concurrency) {config : RequestConfig}
    {rest : List RequestConfig} (next : sys.pending = config :: rest) (held : sys.permit = true) :
    SendBatchStream.Kept configs concurrency
      { sys with
        pending := rest
        paced := false
        permit := false
        tasks := sys.tasks ++ [⟨config, .spawned⟩] } := by
  refine ⟨?_, ?_, ?_, (fun clash => by cases clash), (fun clash => by cases clash)⟩
  · have order := kept.order
    rw [next] at order
    show (sys.tasks ++ [_]).map StreamTask.config ++ rest = configs
    rw [List.map_append, List.append_assoc]
    exact order
  · have balance := kept.permits
    rw [held] at balance
    show sys.permits + 0 + (sys.tasks ++ [_]).countP _ = concurrency
    rw [List.countP_append]
    show sys.permits + 0 + (sys.holders + 1) = concurrency
    simp only [if_true] at balance
    omega
  · show (sys.yielded ++ sys.channel).Perm ((sys.tasks ++ [_]).filterMap StreamTask.output)
    rw [List.filterMap_append]
    show (sys.yielded ++ sys.channel).Perm (sys.tasks.filterMap StreamTask.output ++ [])
    rw [List.append_nil]
    exact kept.results

/-- A result goes into the channel as its task becomes one that has an output. -/
theorem SendBatchStream.Kept.deliver {configs : List RequestConfig} {concurrency : Nat}
    {sys : SendBatchStream Response} (kept : sys.Kept configs concurrency) {i : Nat}
    {task : StreamTask Response} {result : Except ClientError Response}
    (there : sys.tasks[i]? = some task) (stage : task.stage = .ended (.returned result)) :
    SendBatchStream.Kept configs concurrency
      ((sys.push ⟨task.config.url, result⟩).setStage i task (.delivered (.returned result))) := by
  have before : task.output = none := by
    unfold StreamTask.output
    rw [stage]
  have entry := filterMap_set_perm (f := StreamTask.output)
    (x := { task with stage := .delivered (.returned result) }) there before rfl
  refine ⟨?_, ?_, ?_, kept.paced, kept.permit⟩
  · show (sys.tasks.set i _).map StreamTask.config ++ sys.pending = configs
    rw [map_set_same (x := { task with stage := .delivered (.returned result) }) there rfl]
    exact kept.order
  · have counted := countP_set_balance
      (p := fun task : StreamTask Response => !task.stage.isDone) there
      { task with stage := .delivered (.returned result) }
    rw [stage] at counted
    show sys.permits + (if sys.permit then 1 else 0) + (sys.tasks.set i _).countP _ = concurrency
    rw [Nat.add_right_cancel counted]
    exact kept.permits
  · show (sys.yielded ++ (sys.channel ++ [_])).Perm
      ((sys.tasks.set i _).filterMap StreamTask.output)
    rw [← List.append_assoc]
    refine List.Perm.trans ?_ entry.symm
    exact (List.perm_append_singleton _ _).trans (kept.results.cons _)

theorem kept_stream_step {configs : List RequestConfig} {concurrency : Nat}
    {sys sys' : SendBatchStream Response} (kept : sys.Kept configs concurrency)
    (stepped : StreamStep sys sys') : sys'.Kept configs concurrency := by
  cases stepped with
  | @paced config rest next =>
      refine ⟨kept.order, kept.permits, kept.results, ?_, fun _ => rfl⟩
      intro _ none
      rw [next] at none
      cases none
  | acquired ready without free =>
      refine ⟨kept.order, ?_, kept.results, kept.paced, fun _ => ready⟩
      have balance := kept.permits
      rw [without, free] at balance
      exact balance
  | spawned next held => exact kept.spawn next held
  | began there stage =>
      refine kept.setStage (n := sys.permits) there ?_ ?_
      · unfold StreamTask.output
        rw [stage]
      · rw [stage]
        rfl
  | finished there stage =>
      refine kept.setStage (n := sys.permits) there ?_ ?_
      · unfold StreamTask.output
        rw [stage]
      · rw [stage]
        rfl
  | delivered there stage => exact kept.deliver there stage
  | released there leaves =>
      obtain ⟨same, under⟩ := leaves_output leaves
      refine kept.setStage there same ?_
      rw [under]
      rfl
  | @received result rest first =>
      refine ⟨kept.order, kept.permits, ?_, kept.paced, kept.permit⟩
      have results := kept.results
      rw [first] at results
      show (sys.yielded ++ [result] ++ rest).Perm _
      rw [List.append_assoc]
      exact results

theorem kept_stream_run {configs : List RequestConfig} {concurrency : Nat}
    {init sys : SendBatchStream Response}
    (started : SendBatchStream.start configs concurrency = some init)
    {actions : List (StreamAction Response)}
    (ran : run SendBatchStream.step init actions = some sys) : sys.Kept configs concurrency :=
  run_invariant (motive := SendBatchStream.Kept configs concurrency) (kept_stream_start started)
    (fun kept stepped => kept_stream_step kept (stream_step stepped)) ran

theorem stream_inFlight_le (sys : SendBatchStream Response) : sys.inFlight ≤ sys.holders := by
  apply List.countP_mono_left
  intro task _ sending
  cases stage : task.stage with
  | sending => rfl
  | _ =>
      rw [stage] at sending
      cases sending

/-! ## Against the plain batch -/

/-- How the send for the config at place `i` ended. -/
def SendBatchStream.endingOf (sys : SendBatchStream Response) (i : Nat) : Option (Ending Response) :=
  match sys.tasks[i]? with
  | some ⟨_, .ended ending⟩ => some ending
  | some ⟨_, .delivered ending⟩ => some ending
  | some ⟨_, .done ending⟩ => some ending
  | _ => none

/-- The stream has ended: the channel is drained, and what was yielded came from the
tasks, one for each config. -/
theorem SendBatchStream.Kept.ended {configs : List RequestConfig} {concurrency : Nat}
    {sys : SendBatchStream Response} (kept : sys.Kept configs concurrency)
    (ended : sys.ended = true) :
    sys.tasks.map StreamTask.config = configs ∧
      sys.yielded.Perm (sys.tasks.filterMap StreamTask.output) ∧
      ∀ task ∈ sys.tasks, ∃ ending, task.stage = .done ending := by
  unfold SendBatchStream.ended at ended
  simp only [Bool.and_eq_true, List.isEmpty_iff, List.all_eq_true] at ended
  obtain ⟨⟨spawned, over_⟩, drained⟩ := ended
  have order := kept.order
  have results := kept.results
  rw [spawned, List.append_nil] at order
  rw [drained, List.append_nil] at results
  refine ⟨order, results, ?_⟩
  intro task there
  have finished := over_ task there
  cases stage : task.stage with
  | done ending => exact ⟨ending, rfl⟩
  | _ =>
      rw [stage] at finished
      cases finished

theorem endingOf_done {sys : SendBatchStream Response} {i : Nat} {task : StreamTask Response}
    (there : sys.tasks[i]? = some task) {ending : Ending Response}
    (done : task.stage = .done ending) : sys.endingOf i = some ending := by
  unfold SendBatchStream.endingOf
  rw [there]
  obtain ⟨config, stage⟩ := task
  cases done
  rfl

/-- An ended stream that yields a result for every config had no panic. -/
theorem SendBatchStream.Kept.no_panic {configs : List RequestConfig} {concurrency : Nat}
    {sys : SendBatchStream Response} (kept : sys.Kept configs concurrency)
    (ended : sys.ended = true) (all : sys.yielded.length = configs.length) (i : Nat)
    (joinError : Str) : sys.endingOf i ≠ some (.panicked joinError) := by
  obtain ⟨order, results, done⟩ := kept.ended ended
  intro panicked
  -- every task has an output, as there are as many as configs
  have full : (sys.tasks.filterMap StreamTask.output).length = sys.tasks.length := by
    rw [← results.length_eq, all, ← order, List.length_map]
  rw [List.length_filterMap_eq_countP] at full
  have every := List.countP_eq_length.mp full
  cases there : sys.tasks[i]? with
  | none =>
      unfold SendBatchStream.endingOf at panicked
      rw [there] at panicked
      cases panicked
  | some task =>
      obtain ⟨ending, stage⟩ := done task (List.mem_of_getElem? there)
      cases (endingOf_done there stage).symm.trans panicked
      have output := every task (List.mem_of_getElem? there)
      unfold StreamTask.output at output
      rw [stage] at output
      cases output

/-- Without a panic the tasks of an ended stream have the results of the plain batch, each
in its place. -/
theorem SendBatchStream.Kept.outputs {configs : List RequestConfig} {concurrency : Nat}
    {sys : SendBatchStream Response} (kept : sys.Kept configs concurrency)
    (ended : sys.ended = true) {plain : SendBatch Response} (returns : plain.Returns configs)
    (same : ∀ i, plain.endingOf i = sys.endingOf i)
    (fine : ∀ i joinError, sys.endingOf i ≠ some (.panicked joinError)) :
    sys.tasks.map StreamTask.output = plain.results.map some := by
  obtain ⟨order, -, done⟩ := kept.ended ended
  obtain ⟨counted, each⟩ := returns
  apply List.ext_getElem?
  intro i
  rw [List.getElem?_map, List.getElem?_map]
  cases there : sys.tasks[i]? with
  | none =>
      have past : configs[i]? = none := by
        rw [← order, List.getElem?_map, there]
        rfl
      rw [List.getElem?_eq_none]
      · rfl
      · rw [counted]
        exact List.getElem?_eq_none_iff.mp past
  | some task =>
      obtain ⟨ending, stage⟩ := done task (List.mem_of_getElem? there)
      have here : configs[i]? = some task.config := by
        rw [← order, List.getElem?_map, there]
        rfl
      obtain ⟨ending', ended', result⟩ := each i task.config here
      have known := endingOf_done there stage
      cases (known.symm.trans (same i).symm).trans ended'
      rw [result]
      cases ending with
      | returned value =>
          simp only [Option.map_some, StreamTask.output, stage]
          rfl
      | panicked joinError => exact absurd known (fine i joinError)

/-- What an ended stream yields is what a plain batch with the same endings returns, if
and only if none of them is a panic. -/
theorem SendBatchStream.Kept.yields_iff {configs : List RequestConfig} {concurrency : Nat}
    {sys : SendBatchStream Response} (kept : sys.Kept configs concurrency)
    (ended : sys.ended = true) {plain : SendBatch Response} (returns : plain.Returns configs)
    (same : ∀ i, plain.endingOf i = sys.endingOf i) :
    (sys.yielded.length = configs.length ∧ sys.yielded.Perm plain.results) ↔
      ∀ i joinError, sys.endingOf i ≠ some (.panicked joinError) := by
  constructor
  · rintro ⟨all, -⟩
    exact kept.no_panic ended all
  · intro fine
    have results := (kept.ended ended).2.1
    have outputs : sys.tasks.filterMap StreamTask.output = plain.results := by
      have both := congrArg (List.filterMap id) (kept.outputs ended returns same fine)
      rw [List.filterMap_map, List.filterMap_map] at both
      rw [show id ∘ StreamTask.output = StreamTask.output from rfl] at both
      rw [both]
      exact List.filterMap_some
    rw [outputs] at results
    exact ⟨by rw [results.length_eq, returns.1], results⟩

/-- **Streaming against plain.** In every run of the stream at most `concurrency` sends are
under way; and a stream polled to its end yields what `send_batch` returns in any run
whose sends end in the same way, one result for each config, if and only if no send
panicked. -/
theorem stream_agrees_iff {configs : List RequestConfig} {concurrency : Nat}
    {init sys : SendBatchStream Response}
    (started : SendBatchStream.start configs concurrency = some init)
    {actions : List (StreamAction Response)}
    (ran : run SendBatchStream.step init actions = some sys) :
    sys.inFlight ≤ concurrency ∧
    (sys.ended = true → ∀ (concurrency' : Nat) (plainInit plain : SendBatch Response)
      (plainActions : List (BatchAction Response)),
      SendBatch.start configs concurrency' = some plainInit →
      run SendBatch.step plainInit plainActions = some plain → plain.returned = true →
      (∀ i, plain.endingOf i = sys.endingOf i) →
        ((sys.yielded.length = configs.length ∧ sys.yielded.Perm plain.results) ↔
          ∀ i joinError, sys.endingOf i ≠ some (.panicked joinError))) := by
  have kept := kept_stream_run started ran
  refine ⟨?_, ?_⟩
  · have holders := stream_inFlight_le sys
    have permits := kept.permits
    omega
  · intro ended concurrency' plainInit plain plainActions begun reached returned same
    have returns := (kept_sendBatch_run begun reached).returns returned
    exact kept.yields_iff ended returns same

/-! The two configs of the plain run, with the same panic. -/

def twoStream : SendBatchStream Nat :=
  (SendBatchStream.start twoConfigs 1).getD ⟨0, [], false, false, [], [], []⟩

def twoStreamActions : List (StreamAction Nat) :=
  [.pace, .acquire, .spawn, .begin 0, .finish 0 (.returned (.ok 200)), .deliver 0, .release 0, .pace,
    .acquire, .spawn, .receive, .begin 1, .finish 1 (.panicked "boom".toList), .release 1]

def twoStreamEnd : SendBatchStream Nat :=
  (run SendBatchStream.step twoStream twoStreamActions).getD twoStream

theorem two_same_endings : ∀ i, twoEnd.endingOf i = twoStreamEnd.endingOf i
  | 0 => by rfl
  | 1 => by rfl
  | _ + 2 => by rfl

theorem stream_agrees_iff_two :
    (twoStreamEnd.yielded.length = twoConfigs.length ∧
        twoStreamEnd.yielded.Perm twoEnd.results) ↔
      ∀ i joinError, twoStreamEnd.endingOf i ≠ some (.panicked joinError) := by
  have agrees := @stream_agrees_iff Nat twoConfigs 1 twoStream twoStreamEnd (by rfl)
    twoStreamActions (by rfl)
  exact agrees.2 (by rfl) 1 twoStart twoEnd twoActions (by rfl) (by rfl) (by rfl) two_same_endings

/-- The stream ends without the result of the second config. -/
theorem two_stream_loses :
    run SendBatchStream.step twoStream twoStreamActions = some twoStreamEnd ∧
      twoStreamEnd.ended = true ∧ twoEnd.returned = true ∧
      (∀ i, twoEnd.endingOf i = twoStreamEnd.endingOf i) ∧
      twoStreamEnd.yielded.length = 1 ∧ ¬ twoStreamEnd.yielded.Perm twoEnd.results := by
  refine ⟨by rfl, by rfl, by rfl, two_same_endings, by rfl, ?_⟩
  intro same
  have lengths := same.length_eq
  have one : twoStreamEnd.yielded.length = 1 := by rfl
  have two : twoEnd.results.length = 2 := by rfl
  omega

end Blasthttp.Batch
