/-
# Blasthttp.Client.Deadline -- how long a `send` can take

Each attempt runs under the timeout of the request, and the waits between them are capped,
so a call of `send` is over after a time that its configuration alone bounds, whatever the
network does; an attempt that stalls uses up its timeout once and is not made again
(`send_deadline`).  The timers are the runtime's, and late: they look at the clock only when
the task yields, and wake it some time after.  Times are in nanoseconds.
-/
import Blasthttp.Client.Send

namespace Blasthttp.Client

open Blasthttp.Rust

set_option autoImplicit false

/-! ## Timers -/

/-- What `send_inner` does if nothing stops it: it is back after a while, or never. -/
abbrev Course := Option (Nat × Except ClientError Response)

/-- The timers of the runtime. -/
structure Timer where
  /-- `tokio::time::timeout` around a course: the outcome and the time until it. -/
  timeout : Nat → Course → Outcome × Nat
  /-- `tokio::time::sleep`: the time until it is over. -/
  sleep : Duration → Nat

/-- `Duration::from_secs(config.timeout())`. -/
def timeoutNanos (config : RequestConfig) : Nat := config.timeout.toNat * 10 ^ 9

def attemptOutcome (timer : Timer) (config : RequestConfig) (courses : Nat → Course) (n : Nat) :
    Outcome :=
  (timer.timeout (timeoutNanos config) (courses n)).1

def SendAction.nanos (timer : Timer) (config : RequestConfig) (courses : Nat → Course) :
    SendAction → Nat
  | .sleep wait => timer.sleep wait
  | .attempt n => (timer.timeout (timeoutNanos config) (courses n.toNat)).2

/-- `send`, with the time it takes. -/
def sendTimed (timer : Timer) (config : RequestConfig) (courses : Nat → Course) :
    Nat × Except ClientError Response :=
  let (actions, result) := send config (attemptOutcome timer config courses)
  ((actions.map (SendAction.nanos timer config courses)).sum, result)

/-- The course does not end by this time. -/
def Stalls (limit : Nat) : Course → Prop
  | some (time, _) => limit < time
  | none => True

/-- Timers that are at most `late` behind.  What makes them late is how long a course goes on
without a yield, in which a timeout does not look at the clock and the course may still
end, and how long the runtime takes to wake a task. -/
structure Timer.Within (timer : Timer) (late : Nat) (config : RequestConfig)
    (courses : Nat → Course) : Prop where
  back : ∀ n, (timer.timeout (timeoutNanos config) (courses n)).2 ≤ timeoutNanos config + late
  elapsed : ∀ n, Stalls (timeoutNanos config + late) (courses n) →
    (timer.timeout (timeoutNanos config) (courses n)).1 = .timedOut
  woken : ∀ wait, timer.sleep wait ≤ wait.nanos + late

/-- A clock that ticks every millisecond: timers go off at its ticks. -/
def tick (nanos : Nat) : Nat := (nanos + 999999) / 1000000 * 1000000

def tickTimer : Timer where
  timeout limit course :=
    match course with
    | some (time, result) =>
        if time ≤ tick limit then (.finished result, time) else (.timedOut, tick limit)
    | none => (.timedOut, tick limit)
  sleep wait := tick wait.nanos

theorem tick_le (nanos : Nat) : tick nanos ≤ nanos + 1000000 := by
  unfold tick
  omega

theorem tickTimer_within (config : RequestConfig) (courses : Nat → Course) :
    tickTimer.Within 1000000 config courses where
  back := by
    intro n
    have bound := tick_le (timeoutNanos config)
    simp only [tickTimer]
    split
    · split
      · rename_i early
        exact early.trans bound
      · exact bound
    · exact bound
  elapsed := by
    intro n stalls
    have bound := tick_le (timeoutNanos config)
    cases course : courses n with
    | none => rfl
    | some back =>
        obtain ⟨time, result⟩ := back
        rw [course] at stalls
        have late : timeoutNanos config + 1000000 < time := stalls
        simp only [tickTimer]
        rw [if_neg (by omega)]
  woken := fun wait => tick_le wait.nanos

section Deadline

variable {timer : Timer} {config : RequestConfig} {courses : Nat → Course} {late : Nat}

theorem attempt_nanos (timely : timer.Within late config courses) (n : UInt32) :
    SendAction.nanos timer config courses (.attempt n) ≤ timeoutNanos config + late :=
  timely.back n.toNat

theorem sleep_nanos (timely : timer.Within late config courses) (wait : Duration) :
    SendAction.nanos timer config courses (.sleep wait) ≤ wait.nanos + late :=
  timely.woken wait

theorem retry_nanos (timely : timer.Within late config courses) (n : Nat) :
    ((retry config n).map (SendAction.nanos timer config courses)).sum ≤
      (config.retryWaitMax.nanos + late) + (timeoutNanos config + late) := by
  have wait := retryBackoff_le (UInt32.ofNat n) config.retryWaitMin config.retryWaitMax
  have capped : cappedExponential (UInt32.ofNat n) config.retryWaitMin config.retryWaitMax ≤
      config.retryWaitMax.nanos := by
    rw [cappedExponential]
    exact Nat.min_le_right _ _
  have slept := (sleep_nanos timely _).trans (Nat.add_le_add_right (wait.trans capped) late)
  rw [retry, List.map_cons, List.map_cons, List.map_nil, List.sum_cons, List.sum_cons,
    List.sum_nil, Nat.add_zero]
  exact Nat.add_le_add slept (attempt_nanos timely _)

/-! ## The whole call -/

theorem schedule_nanos (timely : timer.Within late config courses) (k : Nat) :
    ((schedule config k).map (SendAction.nanos timer config courses)).sum ≤
      (k + 1) * (timeoutNanos config + late) + k * (config.retryWaitMax.nanos + late) := by
  induction k with
  | zero =>
      have attempt := attempt_nanos timely 0
      simpa [schedule] using attempt
  | succ k ih =>
      have grown : schedule config (k + 1) = schedule config k ++ retry config k := by
        simp [schedule, List.range_succ]
      have more := retry_nanos timely k
      have timeouts : (k + 1 + 1) * (timeoutNanos config + late) =
          (k + 1) * (timeoutNanos config + late) + (timeoutNanos config + late) := Nat.succ_mul _ _
      have waits : (k + 1) * (config.retryWaitMax.nanos + late) =
          k * (config.retryWaitMax.nanos + late) + (config.retryWaitMax.nanos + late) :=
        Nat.succ_mul _ _
      rw [grown, List.map_append, List.sum_append]
      omega

/-- The attempts of a schedule are those up to its last one. -/
theorem attempt_mem_schedule {config : RequestConfig} {k : Nat} (small : k < 2 ^ 32) {m : UInt32} :
    SendAction.attempt m ∈ schedule config k ↔ m.toNat ≤ k := by
  constructor
  · intro there
    rcases List.mem_cons.mp there with same | later
    · cases same
      exact Nat.zero_le k
    · obtain ⟨n, below, made⟩ := List.mem_flatMap.mp later
      have below := List.mem_range.mp below
      rcases List.mem_cons.mp made with sleep | same
      · cases sleep
      · cases List.mem_singleton.mp same
        rw [UInt32.toNat_ofNat_of_lt' (show n + 1 < 2 ^ 32 by omega)]
        exact below
  · intro within
    cases number : m.toNat with
    | zero =>
        have first : m = 0 := UInt32.toNat_inj.mp number
        rw [first]
        exact List.mem_cons_self
    | succ n =>
        have same : m = UInt32.ofNat (n + 1) := by
          rw [← number, UInt32.ofNat_toNat]
        refine List.mem_cons_of_mem _ (List.mem_flatMap.mpr ⟨n, List.mem_range.mpr (by omega), ?_⟩)
        rw [same]
        exact List.mem_cons_of_mem _ (List.mem_singleton.mpr rfl)

/-- The schedule a call keeps to. -/
theorem send_schedule (config : RequestConfig) (outcomes : Nat → Outcome)
    (valid : config.validateProxy = .ok ()) :
    ∃ k, LastAttempt outcomes config.maxRetries.toNat k ∧
      send config outcomes = (schedule config k, (outcomes k).result config) := by
  obtain ⟨k, last, -, ran⟩ :=
    sendLoop_returns config outcomes config.maxRetries.toNat 0 none (Nat.zero_add _)
      fun i below => absurd below (Nat.not_lt_zero i)
  refine ⟨k, last, ?_⟩
  unfold send
  rw [valid]
  simp only [ran, Nat.sub_zero, ← List.range_eq_range']
  rfl

/-- **A send has a deadline.**  However the attempts go, the call is over after at most a timeout
for each attempt and the longest wait before each retry, and what its timers are late.
An attempt that stalls is the last one, and the call fails with a timeout. -/
theorem send_deadline (timely : timer.Within late config courses) :
    (sendTimed timer config courses).1 ≤
      (config.maxRetries.toNat + 1) * (timeoutNanos config + late) +
        config.maxRetries.toNat * (config.retryWaitMax.nanos + late) ∧
    ∀ n m : UInt32, Stalls (timeoutNanos config + late) (courses n.toNat) →
      .attempt n ∈ (send config (attemptOutcome timer config courses)).1 →
      .attempt m ∈ (send config (attemptOutcome timer config courses)).1 →
      m.toNat ≤ n.toNat ∧
        (sendTimed timer config courses).2 = .error (timedOutError config) := by
  cases valid : config.validateProxy with
  | error e =>
      have nothing : send config (attemptOutcome timer config courses) =
          ([], .error ⟨e, .other⟩) := by
        unfold send
        rw [valid]
      refine ⟨?_, ?_⟩
      · simp [sendTimed, nothing]
      · intro n m _ made
        rw [nothing] at made
        cases made
  | ok _ =>
      obtain ⟨k, last, sent⟩ := send_schedule config (attemptOutcome timer config courses) valid
      have word := config.maxRetries.toNat_lt
      have within := last.within
      have small : k < 2 ^ 32 := by omega
      unfold sendTimed
      rw [sent]
      refine ⟨?_, ?_⟩
      · refine (schedule_nanos timely k).trans (Nat.add_le_add ?_ ?_)
        · exact Nat.mul_le_mul_right _ (by omega)
        · exact Nat.mul_le_mul_right _ within
      · intro n m stalls made also
        rw [attempt_mem_schedule small] at made also
        have outcome : attemptOutcome timer config courses n.toNat = .timedOut :=
          timely.elapsed n.toNat stalls
        have ends : k = n.toNat := by
          by_contra apart
          have retried := last.retried n.toNat (by omega)
          rw [outcome] at retried
          exact retried
        subst ends
        refine ⟨also, ?_⟩
        simp only [outcome]
        rfl

end Deadline

/-! Five retries are allowed; the first connection is refused at once, the second hangs. -/

def patientConfig : RequestConfig :=
  { RequestConfig.new "http://a.example/".toList with retries := some 5 }

def hangingCourses : Nat → Course
  | 0 => some (0, .error ⟨"connection refused".toList, .connection⟩)
  | _ => none

theorem send_deadline_hanging :
    .attempt 1 ∈ (send patientConfig (attemptOutcome tickTimer patientConfig hangingCourses)).1 ∧
      (sendTimed tickTimer patientConfig hangingCourses).1 ≤
        (patientConfig.maxRetries.toNat + 1) * (timeoutNanos patientConfig + 1000000) +
          patientConfig.maxRetries.toNat * (patientConfig.retryWaitMax.nanos + 1000000) ∧
      (sendTimed tickTimer patientConfig hangingCourses).2 =
        .error (timedOutError patientConfig) := by
  have second :
      .attempt 1 ∈ (send patientConfig (attemptOutcome tickTimer patientConfig hangingCourses)).1 := by
    decide +kernel
  have deadline := send_deadline (tickTimer_within patientConfig hangingCourses)
  exact ⟨second, deadline.1, (deadline.2 1 1 trivial second second).2⟩

end Blasthttp.Client
