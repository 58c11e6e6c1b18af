/-
# Blasthttp.Client.CertSlot -- whose certificate a response shows

A cached client has one slot for the certificate of its last handshake, and
`send_inner` reads it when the response is in, whichever connection carried it.
`certInfo_served_iff`: over a run every response shows the certificate of the
connection that served it exactly when every final read finds, as the last handshake
on that client, one with the same certificate.
-/
import Blasthttp.Client.RedirectWalk

namespace Blasthttp.Client

open Blasthttp.Rust Blasthttp.Http Blasthttp.Lib.Runs

set_option autoImplicit false

/-! ## Certificates and handshakes -/

/-- The certificate the connection of an answer presented; none over plain TCP. -/
def System.servedCert (sys : System) (x : Exchange) : Option CertInfo :=
  match x.connection with
  | none => none
  | some i =>
      match sys.connections[i]? with
      | some connection => connection.attempt.cert.join
      | none => none

/-- What the last TLS handshake made by the client with this slot showed; none if it
never made one. -/
def System.lastHandshake (sys : System) (slot : Nat) : Option CertInfo :=
  ((sys.connections.filter fun connection => connection.slot = slot).filterMap
    fun connection => connection.attempt.cert).getLast?.join

/-- What the last handshake on the client of a dispatch showed. -/
def System.lastShown (sys : System) (dispatch : Dispatch) : Option CertInfo :=
  match dispatch.via with
  | .pooled cached => sys.lastHandshake cached.certSlot
  | .forward _ => none

/-- The slots hold the certificates of the last handshakes. -/
def System.SlotsCurrent (sys : System) : Prop := ∀ slot, sys.certs slot = sys.lastHandshake slot

/-- The response of a finished task shows the certificate of the connection that
carried its last hop. -/
def System.CertRight (sys : System) (task : Task) : Prop :=
  ∀ response, task.phase = .done (.ok response) →
    ∃ last, task.answers.getLast? = some last ∧ response.certInfo = sys.servedCert last

/-- A task about to read the slot will find there what its connection presented. -/
def System.SlotServes (sys : System) (i : Nat) : Prop :=
  ∀ task exchange peerIp, sys.tasks[i]? = some task → task.phase = .closing exchange peerIp →
    sys.lastShown exchange.dispatch = sys.servedCert exchange

theorem lastHandshake_record (sys : System) (slot target : Nat) (origin : Uri)
    (attempt : Attempt) :
    (sys.record slot origin attempt).lastHandshake target =
      if slot = target then
        match attempt.cert with
        | some cert => cert
        | none => sys.lastHandshake target
      else sys.lastHandshake target := by
  unfold System.lastHandshake System.record
  simp only
  rw [List.filter_append, List.filterMap_append]
  by_cases same : slot = target
  · rw [if_pos same]
    cases shown : attempt.cert with
    | none => simp [same, shown]
    | some cert => simp [same, shown]
  · rw [if_neg same]
    simp [same]

theorem slotsCurrent_record {sys : System} (current : sys.SlotsCurrent) (slot : Nat) (origin : Uri)
    (attempt : Attempt) : (sys.record slot origin attempt).SlotsCurrent := by
  intro target
  rw [lastHandshake_record]
  unfold System.record
  simp only
  cases attempt.cert with
  | none =>
      change sys.certs target = _
      rw [current target]
      simp
  | some cert =>
      simp only
      by_cases same : slot = target
      · rw [if_pos same, same, Function.update_self]
      · rw [if_neg same, Function.update_of_ne (Ne.symm same), current target]

/-- What a step leaves of the slots and connections of a run. -/
theorem step_slots {env : Env} {sys sys' : System} {action : Action}
    (stepped : sys.step env action = some sys') :
    (sys'.certs = sys.certs ∧ sys'.peers = sys.peers ∧ sys'.connections = sys.connections) ∨
      ∃ slot origin attempt, sys' = sys.record slot origin attempt := by
  rcases step_cases stepped with ⟨config, rfl, rfl⟩ |
    ⟨i, hop, network, dispatch, cached, rfl, -, -, rfl⟩ | ⟨task, client, task', -, -, rfl⟩
  · refine .inl ?_
    unfold System.startTask
    split
    · exact ⟨rfl, rfl, rfl⟩
    · split
      · exact ⟨rfl, rfl, rfl⟩
      · exact ⟨rfl, rfl, rfl⟩
  · exact .inr ⟨_, _, _, rfl⟩
  · exact .inl ⟨rfl, rfl, rfl⟩

theorem slotsCurrent_run {env : Env} {actions : List Action} {sys : System}
    (ran : run (System.step env) System.init actions = some sys) : sys.SlotsCurrent := by
  refine run_invariant (motive := System.SlotsCurrent) ?_ ?_ ran
  · intro slot
    rfl
  · intro sys sys' action current stepped
    rcases step_slots stepped with ⟨certs, -, connections⟩ | ⟨slot, origin, attempt, rfl⟩
    · intro slot
      rw [certs, current slot]
      unfold System.lastHandshake
      rw [connections]
    · exact slotsCurrent_record current slot origin attempt

/-! ## What later steps leave alone -/

theorem step_connections {env : Env} {sys sys' : System} {action : Action}
    (stepped : sys.step env action = some sys') : sys.connections <+: sys'.connections := by
  rcases step_slots stepped with ⟨-, -, connections⟩ | ⟨slot, origin, attempt, rfl⟩
  · exact ⟨[], by rw [List.append_nil, connections]⟩
  · exact List.prefix_append _ _

/-- An answer came over a connection that is there. -/
def System.Carried (sys : System) (x : Exchange) : Prop :=
  ∀ i, x.connection = some i → i < sys.connections.length

theorem servedCert_grows {sys sys' : System} (grows : sys.connections <+: sys'.connections)
    {x : Exchange} (carried : sys.Carried x) : sys'.servedCert x = sys.servedCert x := by
  unfold System.servedCert
  cases used : x.connection with
  | none => rfl
  | some i =>
      have inside := carried i used
      obtain ⟨later, whole⟩ := grows
      simp only
      rw [← whole, List.getElem?_append_left inside]

theorem delivers_carried {sys : System} {x : Exchange}
    (delivers : sys.delivers x.dispatch x.connection = true) : sys.Carried x := by
  intro i used
  rw [used] at delivers
  unfold System.delivers at delivers
  cases via : x.dispatch.via with
  | forward proxyUri =>
      rw [via] at delivers
      cases delivers
  | pooled cached =>
      rw [via] at delivers
      simp only at delivers
      cases there : sys.connections[i]? with
      | none =>
          rw [there] at delivers
          cases delivers
      | some connection => exact (List.getElem?_eq_some_iff.mp there).1

theorem move_answers {env : Env} {sys : System} {task task' : Task} {action : Action}
    {client : HyperClient} (moved : Move env sys task action client task') {x : Exchange}
    (answer : x ∈ task'.answers) :
    x ∈ task.answers ∨
      (task.phase = .waiting x.dispatch ∧ sys.delivers x.dispatch x.connection = true) := by
  cases moved with
  | @dispatched i connected _ result phase sent =>
      cases result with
      | error fault => exact .inl answer
      | ok dispatch => exact .inl answer
  | answered phase delivers =>
      rcases List.mem_append.mp (answer : x ∈ task.answers ++ [_]) with old | new
      · exact .inl old
      · rw [List.mem_singleton.mp new]
        exact .inr ⟨phase, delivers⟩
  | @settled i clock exchange phase =>
      refine .inl ?_
      unfold Task.settle at answer
      split at answer
      · split at answer
        · exact answer
        · exact answer
      · exact answer
  | _ => exact .inl answer

theorem delivers_grows {sys sys' : System} (grows : sys.connections <+: sys'.connections)
    {x : Exchange} (delivers : sys.delivers x.dispatch x.connection = true) :
    sys'.delivers x.dispatch x.connection = true := by
  obtain ⟨later, whole⟩ := grows
  have carried := delivers_carried delivers
  unfold System.delivers at delivers ⊢
  split at delivers
  · rfl
  · rename_i cached i via used
    rw [← whole, List.getElem?_append_left (carried i used)]
    exact delivers
  · cases delivers

/-- Every answer of a run came over a connection that carries it. -/
theorem delivered_run {env : Env} {actions : List Action} {sys : System}
    (ran : run (System.step env) System.init actions = some sys) {i : Nat} {task : Task}
    (there : sys.tasks[i]? = some task) {x : Exchange} (answer : x ∈ task.answers) :
    sys.delivers x.dispatch x.connection = true := by
  have kept := run_invariant
    (motive := fun sys : System => ∀ (i : Nat) (task : Task), sys.tasks[i]? = some task →
      ∀ x ∈ task.answers, sys.delivers x.dispatch x.connection = true) ?_ ?_ ran
  · exact kept i task there x answer
  · intro i task nothing
    cases nothing
  · intro sys sys' action all stepped
    have grows := step_connections stepped
    rcases step_cases stepped with ⟨config, rfl, rfl⟩ |
      ⟨i, hop, network, dispatch, cached, rfl, -, -, rfl⟩ | ⟨task, client, task', held, moved, rfl⟩
    · intro i task there x answer
      rcases startTask_tasks there with old | ⟨uri, -, rfl⟩
      · exact delivers_grows grows (all i task old x answer)
      · cases answer
    · intro i task there x answer
      exact delivers_grows grows (all i task there x answer)
    · intro j other here x answer
      rcases System.setTask_tasks here with ⟨-, rfl⟩ | old
      · rcases move_answers moved answer with before | ⟨-, delivers⟩
        · exact all _ task held x before
        · exact delivers
      · exact all j other old x answer

theorem carried_run {env : Env} {actions : List Action} {sys : System}
    (ran : run (System.step env) System.init actions = some sys) {i : Nat} {task : Task}
    (there : sys.tasks[i]? = some task) {x : Exchange} (answer : x ∈ task.answers) :
    sys.Carried x :=
  delivers_carried (delivered_run ran there answer)

/-- A task out of the loop holds its last answer. -/
def HoldsLast (task : Task) : Prop :=
  match task.phase with
  | .answered x => task.answers.getLast? = some x
  | .closing x _ => task.answers.getLast? = some x
  | _ => True

theorem holdsLast_run {env : Env} {actions : List Action} {sys : System}
    (ran : run (System.step env) System.init actions = some sys) {i : Nat} {task : Task}
    (there : sys.tasks[i]? = some task) : HoldsLast task := by
  refine (tasks_invariant (motive := HoldsLast) ?_ ?_ ran).2 i task there
  · intro config uri _
    exact True.intro
  · intro sys task task' action client _ holds moved
    cases moved with
    | @dispatched i connected _ result phase sent => cases result <;> exact True.intro
    | answered phase delivers => exact List.getLast?_concat
    | failed phase => exact True.intro
    | @settled i clock x phase =>
        unfold HoldsLast at holds
        rw [phase] at holds
        unfold Task.settle
        split
        · split
          · exact True.intro
          · exact True.intro
        · exact holds
    | finished phase => exact True.intro
    | dropped phase => exact True.intro

/-! ## One step -/

/-- The response a phase holds. -/
def Phase.returned : Phase → Option Response
  | .done (.ok response) => some response
  | _ => none

theorem certRight_of_under {sys : System} {task : Task} (under : task.phase.returned = none) :
    sys.CertRight task := by
  intro response phase
  rw [phase] at under
  cases under

/-- A move that is not the last one neither starts from nor ends in a response. -/
theorem move_under {env : Env} {sys : System} {task task' : Task} {action : Action}
    {client : HyperClient} (moved : Move env sys task action client task')
    (other : ∀ i, action ≠ .finish i) :
    task.phase.returned = none ∧ task'.phase.returned = none := by
  cases moved with
  | @dispatched i connected _ result phase sent =>
      refine ⟨by rw [phase]; rfl, ?_⟩
      cases result <;> rfl
  | answered phase delivers => exact ⟨by rw [phase]; rfl, rfl⟩
  | failed phase => exact ⟨by rw [phase]; rfl, rfl⟩
  | @settled i clock x phase =>
      refine ⟨by rw [phase]; rfl, ?_⟩
      unfold Task.settle
      split
      · split <;> rfl
      · rfl
  | @finished i x peerIp phase => exact absurd rfl (other i)
  | dropped phase =>
      refine ⟨?_, rfl⟩
      cases under : task.phase with
      | done result => exact absurd under (phase result)
      | _ => rfl

/-- All responses of a system show the right certificate. -/
def System.AllRight (sys : System) : Prop :=
  ∀ (i : Nat) (task : Task), sys.tasks[i]? = some task → sys.CertRight task

/-- Replacing one task: what all had, all have when the new one does. -/
theorem forall_setTask {sys : System} {i : Nat} {task task' : Task}
    (there : sys.tasks[i]? = some task) {motive : Task → Prop} (before : motive task) :
    (∀ (j : Nat) (held : Task), (sys.setTask i task').tasks[j]? = some held → motive held) ↔
      (∀ (j : Nat) (held : Task), sys.tasks[j]? = some held → motive held) ∧ motive task' := by
  have inside : i < sys.tasks.length := (List.getElem?_eq_some_iff.mp there).1
  constructor
  · intro all
    refine ⟨?_, all i task' (List.getElem?_set_self inside)⟩
    intro j held found
    by_cases same : i = j
    · subst same
      rw [there] at found
      cases found
      exact before
    · exact all j held ((List.getElem?_set_ne same).trans found)
  · rintro ⟨all, new⟩ j held found
    rcases System.setTask_tasks found with ⟨-, rfl⟩ | old
    · exact new
    · exact all j held old

/-- What a final read yields is right exactly when the last handshake fits. -/
theorem finish_right {sys : System} (current : sys.SlotsCurrent) {task : Task} {x : Exchange}
    {peerIp : Option IpAddr} (last : task.answers.getLast? = some x) :
    sys.CertRight
        { task with
          phase := .done (.ok (task.walk.response task.config x.response
            (sys.certInfo x.dispatch) peerIp)) } ↔
      sys.lastShown x.dispatch = sys.servedCert x := by
  have read : sys.certInfo x.dispatch = sys.lastShown x.dispatch := by
    unfold System.certInfo System.lastShown
    cases x.dispatch.via with
    | forward proxyUri => rfl
    | pooled cached => exact current cached.certSlot
  rw [← read]
  constructor
  · intro right
    obtain ⟨y, same, shown⟩ := right _ rfl
    change task.answers.getLast? = some y at same
    rw [last] at same
    cases same
    exact shown
  · intro fits response phase
    cases phase
    exact ⟨x, last, fits⟩

/-- A new task has no response. -/
theorem allRight_startTask (env : Env) (sys : System) (config : RequestConfig) :
    (sys.startTask env config).AllRight ↔ sys.AllRight := by
  have same : ∀ task, (sys.startTask env config).CertRight task ↔ sys.CertRight task := by
    intro task
    unfold System.CertRight System.servedCert
    rw [startTask_connections]
  constructor
  · intro all j held found
    exact (same held).mp (all j held (startTask_old found))
  · intro all j held found
    rcases startTask_tasks found with old | ⟨uri, -, rfl⟩
    · exact (same held).mpr (all j held old)
    · exact certRight_of_under rfl

/-- At a final read, what the slot was last given decides. -/
theorem slotServes_iff {sys : System} {i : Nat} {task : Task} {x : Exchange}
    {peerIp : Option IpAddr} (there : sys.tasks[i]? = some task)
    (phase : task.phase = .closing x peerIp) :
    sys.SlotServes i ↔ sys.lastShown x.dispatch = sys.servedCert x := by
  constructor
  · intro all
    exact all task x peerIp there phase
  · intro fits task' x' peerIp' there' phase'
    cases there.symm.trans there'
    rw [phase] at phase'
    cases phase'
    exact fits

/-- A step keeps all responses right exactly when it is not a final read of another
connection's certificate. -/
theorem allRight_step {env : Env} {actions : List Action} {sys sys' : System} {action : Action}
    (ran : run (System.step env) System.init actions = some sys)
    (stepped : sys.step env action = some sys') :
    sys'.AllRight ↔ sys.AllRight ∧ ∀ i, action = .finish i → sys.SlotServes i := by
  rcases step_cases stepped with ⟨config, rfl, rfl⟩ |
    ⟨i, hop, network, dispatch, cached, rfl, -, -, rfl⟩ | ⟨task, client, task', there, moved, rfl⟩
  · rw [allRight_startTask, and_iff_left]
    intro i clash
    cases clash
  · -- a connection that is opened carried none of the answers
    have same : ∀ (j : Nat) (task : Task), sys.tasks[j]? = some task →
        ((sys.record cached.certSlot dispatch.uri
          (cached.inner.connect network dispatch.uri)).CertRight task ↔ sys.CertRight task) := by
      intro j task found
      refine forall_congr' fun response => forall_congr' fun _ => exists_congr fun last =>
        and_congr_right fun isLast => ?_
      have carried := carried_run ran found (List.mem_of_getLast? isLast)
      rw [servedCert_grows (step_connections stepped) carried]
    constructor
    · intro all
      exact ⟨fun j held found => (same j held found).mp (all j held found),
        fun i clash => by cases clash⟩
    · rintro ⟨all, -⟩ j held found
      exact (same j held found).mpr (all j held found)
  · by_cases final : ∃ i, action = .finish i
    · obtain ⟨i, rfl⟩ := final
      cases moved with
      | @finished _ x peerIp phase =>
          have last : task.answers.getLast? = some x := by
            have holds := holdsLast_run ran there
            unfold HoldsLast at holds
            rw [phase] at holds
            exact holds
          have old : sys.CertRight task := certRight_of_under (by rw [phase]; rfl)
          have one := @finish_right sys (slotsCurrent_run ran) task x peerIp last
          refine Iff.trans (forall_setTask (motive := sys.CertRight) there old)
            (and_congr_right fun _ => one.trans ((slotServes_iff there phase).symm.trans ?_))
          constructor
          · rintro here i' same
            cases same
            exact here
          · intro every
            exact every i rfl
    · have other : ∀ i, action ≠ .finish i := fun i same => final ⟨i, same⟩
      obtain ⟨before, after⟩ := move_under moved other
      refine Iff.trans (forall_setTask (motive := sys.CertRight) there (certRight_of_under before))
        (and_congr_right fun _ => iff_of_true (certRight_of_under after) ?_)
      exact fun i same => absurd same (other i)

/-! ## Every run -/

/-- **Whose certificate a response shows.** In every run of requests on one client, all
responses show the certificate of the connection that served their last hop (none
for a plain one) if and only if at every final read the last handshake on the client
showed that certificate. -/
theorem certInfo_served_iff {env : Env} {actions : List Action} {sys : System}
    (ran : run (System.step env) System.init actions = some sys) :
    sys.AllRight ↔
      ∀ front i back before, actions = front ++ .finish i :: back →
        run (System.step env) System.init front = some before → before.SlotServes i := by
  have along : ∀ actions, (∀ front i back before, actions = front ++ .finish i :: back →
      run (System.step env) System.init front = some before → before.SlotServes i) ↔
        Along (System.step env) (fun sys action => ∀ i, action = .finish i → sys.SlotServes i)
          System.init actions := by
    intro actions
    constructor
    · rintro every front action back before rfl reached i rfl
      exact every front i back before rfl reached
    · intro every front i back before split reached
      exact every front _ back before split reached i rfl
  rw [along]
  refine run_induction (motive := fun actions sys => sys.AllRight ↔
    Along (System.step env) (fun sys action => ∀ i, action = .finish i → sys.SlotServes i)
      System.init actions) ?_ ?_ ran
  · exact iff_of_true (fun i task nothing => by cases nothing) along_nil
  · intro actions sys sys' action ran ih stepped
    rw [allRight_step ran stepped, ih, along_concat ran]

/-! A request that is redirected from https to http. -/

def exampleCert : CertInfo where
  commonName := some "example.com".toList
  sans := ["example.com".toList]
  emails := []
  issuer := none
  notBefore := none
  notAfter := none
  fingerprintSha256 := none

def certNetwork : Network := { openNetwork with handshake := fun _ _ => .ok (some exampleCert) }

def downgradeActions : List Action :=
  [.start walkConfig, .dispatch 0 fun _ _ => .ok (), .connect 0 0 certNetwork,
    .respond 0 (some 0) (movedAnswer "http://example.com/"), .settle 0 fun _ => 0,
    .dispatch 0 fun _ _ => .ok (), .connect 0 1 certNetwork, .respond 0 (some 1) okAnswer,
    .settle 0 fun _ => 0, .finish 0]

def downgradeEnd : System :=
  (run (System.step exampleEnv) System.init downgradeActions).getD System.init

theorem certInfo_served_iff_downgrade :
    downgradeEnd.AllRight ↔
      ∀ front i back before, downgradeActions = front ++ .finish i :: back →
        run (System.step exampleEnv) System.init front = some before → before.SlotServes i :=
  certInfo_served_iff (by rfl)

/-- The plain last hop shows the certificate of the first one. -/
theorem downgrade_shows_certificate :
    run (System.step exampleEnv) System.init downgradeActions = some downgradeEnd ∧
      ∃ task response last, downgradeEnd.tasks[0]? = some task ∧
        task.phase = .done (.ok response) ∧ task.answers.getLast? = some last ∧
        last.dispatch.uri.isHttps = false ∧ downgradeEnd.servedCert last = none ∧
        response.certInfo = some exampleCert ∧ ¬ downgradeEnd.CertRight task := by
  refine ⟨by rfl, _, _, _, rfl, rfl, rfl, by rfl, by rfl, by rfl, ?_⟩
  intro right
  obtain ⟨last, isLast, shown⟩ := right _ rfl
  cases isLast
  cases shown

end Blasthttp.Client
