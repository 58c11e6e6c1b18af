/-
# Blasthttp.Client.Send -- the retry loop of `HyperClient::send`

Each attempt is `send_inner` under the overall timeout, and what comes of it is an
`Outcome`; the outcomes are given, one for each attempt.  The loop leaves behind what it
did (`SendAction`) and how it ended.  Which attempt is the last depends on the outcomes
alone (`LastAttempt`), and what is done up to it is the `schedule`.
-/
import Blasthttp.Client.Backoff
import Blasthttp.Client.SendInner

namespace Blasthttp.Client

open Blasthttp.Rust

set_option autoImplicit false

def ErrorKind.isRetryable : ErrorKind → Bool
  | .connection => true
  | .status 429 => true
  | _ => false

/-! ## Attempts -/

/-- `timeout(timeout_duration, self.send_inner(config, &log)).await`. -/
inductive Outcome where
  | finished (result : Except ClientError Response)
  | timedOut

/-- What the `match` on an outcome does: return, or go on with `last_err` set. -/
inductive AfterAttempt where
  | returns (result : Except ClientError Response)
  | retries (lastErr : ClientError)

def timedOutError (config : RequestConfig) : ClientError :=
  ⟨"request timed out after ".toList ++ decimalText config.timeout.toNat ++ "s".toList, .timeout⟩

def afterAttempt (config : RequestConfig) (attempt : UInt32) : Outcome → AfterAttempt
  | .finished (.ok response) =>
      let status := response.status.toNat
      if (ErrorKind.status status).isRetryable && attempt < config.maxRetries then
        .retries ⟨"server returned ".toList ++ decimalText status ++ " for ".toList ++ config.url,
          .status status⟩
      else .returns (.ok response)
  | .finished (.error e) =>
      if e.kind.isRetryable && attempt < config.maxRetries then .retries e
      else .returns (.error e)
  | .timedOut => .returns (.error (timedOutError config))

/-! ## The loop -/

inductive SendAction where
  | sleep (wait : Duration)
  | attempt (n : UInt32)
  deriving DecidableEq

/-- How the loop ended: by a `return` in it, or by running out of attempts. -/
inductive LoopEnd where
  | returned (result : Except ClientError Response)
  | exhausted (lastErr : Option ClientError)

def backoffBefore (config : RequestConfig) (attempt : UInt32) : List SendAction :=
  if 0 < attempt then
    [.sleep (retryBackoff (attempt - 1) config.retryWaitMin config.retryWaitMax)]
  else []

/-- The loop of `send`, with the attempts still to make. -/
def sendLoop (config : RequestConfig) (outcomes : Nat → Outcome) :
    Option ClientError → List UInt32 → List SendAction × LoopEnd
  | lastErr, [] => ([], .exhausted lastErr)
  | _, attempt :: rest =>
      let before := backoffBefore config attempt ++ [.attempt attempt]
      match afterAttempt config attempt (outcomes attempt.toNat) with
      | .returns result => (before, .returned result)
      | .retries lastErr =>
          let (actions, ended) := sendLoop config outcomes (some lastErr) rest
          (before ++ actions, ended)

/-- `first, first + 1, ..`, `count` of them. -/
def attemptsFrom (first count : Nat) : List UInt32 := (List.range' first count).map UInt32.ofNat

/-- `HttpClient::send`. -/
def send (config : RequestConfig) (outcomes : Nat → Outcome) :
    List SendAction × Except ClientError Response :=
  match config.validateProxy with
  | .error e => ([], .error ⟨e, .other⟩)
  | .ok () =>
      match sendLoop config outcomes none (attemptsFrom 0 (config.maxRetries.toNat + 1)) with
      | (actions, .returned result) => (actions, result)
      | (actions, .exhausted lastErr) =>
          (actions, .error (lastErr.getD ⟨"all retries exhausted".toList, .other⟩))

/-! ## The last attempt -/

/-- A 429 response and an error of kind `Connection` or `Status(429)`. -/
def Outcome.Retryable : Outcome → Prop
  | .finished (.ok response) => response.status = 429
  | .finished (.error e) => e.kind = .connection ∨ e.kind = .status 429
  | .timedOut => False

/-- What an outcome is to the caller. -/
def Outcome.result (config : RequestConfig) : Outcome → Except ClientError Response
  | .finished result => result
  | .timedOut => .error (timedOutError config)

/-- `k` is the least index whose outcome is not retryable, or `limit` if there is none
below it. -/
structure LastAttempt (outcomes : Nat → Outcome) (limit k : Nat) : Prop where
  within : k ≤ limit
  retried : ∀ i < k, (outcomes i).Retryable
  final : k < limit → ¬ (outcomes k).Retryable

theorem LastAttempt.unique {outcomes : Nat → Outcome} {limit j k : Nat}
    (one : LastAttempt outcomes limit j) (other : LastAttempt outcomes limit k) : j = k := by
  rcases Nat.lt_trichotomy j k with less | same | more
  · have within := other.within
    exact absurd (other.retried j less) (one.final (by omega))
  · exact same
  · have within := one.within
    exact absurd (one.retried k more) (other.final (by omega))

theorem isRetryable_iff {kind : ErrorKind} :
    kind.isRetryable = true ↔ kind = .connection ∨ kind = .status 429 := by
  unfold ErrorKind.isRetryable
  split
  · simp
  · simp
  · rename_i notConnection not429
    refine iff_of_false (by simp) ?_
    rintro (rfl | rfl)
    · exact notConnection rfl
    · exact not429 rfl

theorem isRetryable_status {status : UInt16} :
    (ErrorKind.status status.toNat).isRetryable = true ↔ status = 429 := by
  rw [isRetryable_iff, ← UInt16.toNat_inj]
  simp

/-- An outcome ends the loop exactly when it is not retryable or was the last one. -/
theorem afterAttempt_cases (config : RequestConfig) (attempt : UInt32) (outcome : Outcome) :
    (outcome.Retryable ∧ attempt < config.maxRetries ∧
      ∃ lastErr, afterAttempt config attempt outcome = .retries lastErr) ∨
    ((attempt < config.maxRetries → ¬ outcome.Retryable) ∧
      afterAttempt config attempt outcome = .returns (outcome.result config)) := by
  cases outcome with
  | timedOut => exact .inr ⟨fun _ retryable => retryable, rfl⟩
  | finished result =>
      cases result with
      | ok response =>
          unfold afterAttempt
          simp only [Bool.and_eq_true, decide_eq_true_eq, isRetryable_status]
          split
          · rename_i again
            exact .inl ⟨again.1, again.2, _, rfl⟩
          · rename_i ends
            exact .inr ⟨fun more retryable => ends ⟨retryable, more⟩, rfl⟩
      | error e =>
          unfold afterAttempt
          simp only [Bool.and_eq_true, decide_eq_true_eq, isRetryable_iff]
          split
          · rename_i again
            exact .inl ⟨again.1, again.2, _, rfl⟩
          · rename_i ends
            exact .inr ⟨fun more retryable => ends ⟨retryable, more⟩, rfl⟩

/-! ## What is done -/

/-- A retry: the wait, and the attempt behind it. -/
def retry (config : RequestConfig) (n : Nat) : List SendAction :=
  [.sleep (retryBackoff (UInt32.ofNat n) config.retryWaitMin config.retryWaitMax),
    .attempt (UInt32.ofNat (n + 1))]

/-- `k + 1` attempts with the waits between them. -/
def schedule (config : RequestConfig) (k : Nat) : List SendAction :=
  .attempt 0 :: (List.range k).flatMap (retry config)

theorem attemptsFrom_succ (first count : Nat) :
    attemptsFrom first (count + 1) = UInt32.ofNat first :: attemptsFrom (first + 1) count := rfl

theorem backoffBefore_succ (config : RequestConfig) {n : Nat} (small : n + 1 < 2 ^ 32) :
    backoffBefore config (UInt32.ofNat (n + 1)) ++ [.attempt (UInt32.ofNat (n + 1))] =
      retry config n := by
  have later : (0 : UInt32) < UInt32.ofNat (n + 1) := by
    rw [UInt32.lt_iff_toNat_lt, UInt32.toNat_ofNat_of_lt' small]
    exact Nat.succ_pos n
  have before : UInt32.ofNat (n + 1) - 1 = UInt32.ofNat n := by
    rw [UInt32.ofNat_add]
    simp
  unfold backoffBefore retry
  rw [if_pos later, before]
  rfl

/-- The loop at an attempt that returns. -/
theorem sendLoop_here {config : RequestConfig} {outcomes : Nat → Outcome} {attempt : Nat}
    (small : attempt < 2 ^ 32) {result : Except ClientError Response}
    (returns : afterAttempt config (UInt32.ofNat attempt) (outcomes attempt) = .returns result)
    (lastErr : Option ClientError) (count : Nat) :
    sendLoop config outcomes lastErr (attemptsFrom attempt (count + 1)) =
      (backoffBefore config (UInt32.ofNat attempt) ++ [.attempt (UInt32.ofNat attempt)],
        .returned result) := by
  rw [attemptsFrom_succ, sendLoop, UInt32.toNat_ofNat_of_lt' small]
  simp only [returns]

/-- The loop at an attempt that is retried. -/
theorem sendLoop_again {config : RequestConfig} {outcomes : Nat → Outcome} {attempt : Nat}
    (small : attempt < 2 ^ 32) {err : ClientError}
    (again : afterAttempt config (UInt32.ofNat attempt) (outcomes attempt) = .retries err)
    (lastErr : Option ClientError) {count : Nat} {actions : List SendAction} {ended : LoopEnd}
    (ran : sendLoop config outcomes (some err) (attemptsFrom (attempt + 1) count) =
      (actions, ended)) :
    sendLoop config outcomes lastErr (attemptsFrom attempt (count + 1)) =
      (backoffBefore config (UInt32.ofNat attempt) ++ [.attempt (UInt32.ofNat attempt)] ++ actions,
        ended) := by
  rw [attemptsFrom_succ, sendLoop, UInt32.toNat_ofNat_of_lt' small]
  simp only [again, ran]

/-- The loop from an attempt on, whose predecessors were all retried: it returns at the
last attempt.  The induction is on the attempts left. -/
theorem sendLoop_returns (config : RequestConfig) (outcomes : Nat → Outcome) (left : Nat) :
    ∀ (attempt : Nat) (lastErr : Option ClientError),
      attempt + left = config.maxRetries.toNat → (∀ i < attempt, (outcomes i).Retryable) →
      ∃ k, LastAttempt outcomes config.maxRetries.toNat k ∧ attempt ≤ k ∧
        sendLoop config outcomes lastErr (attemptsFrom attempt (left + 1)) =
          (backoffBefore config (UInt32.ofNat attempt) ++ .attempt (UInt32.ofNat attempt) ::
              (List.range' attempt (k - attempt)).flatMap (retry config),
            .returned ((outcomes k).result config)) := by
  have bound := config.maxRetries.toNat_lt
  induction left with
  | zero =>
      intro attempt lastErr reaches retried
      have small : attempt < 2 ^ 32 := by omega
      have last : ¬ UInt32.ofNat attempt < config.maxRetries := by
        rw [UInt32.lt_iff_toNat_lt, UInt32.toNat_ofNat_of_lt' small]
        omega
      rcases afterAttempt_cases config (UInt32.ofNat attempt) (outcomes attempt) with
        ⟨-, more, -⟩ | ⟨-, returns⟩
      · exact absurd more last
      · refine ⟨attempt, ⟨by omega, retried, fun less => by omega⟩, le_rfl, ?_⟩
        rw [sendLoop_here small returns, Nat.sub_self]
        rfl
  | succ left ih =>
      intro attempt lastErr reaches retried
      have small : attempt < 2 ^ 32 := by omega
      have more : UInt32.ofNat attempt < config.maxRetries := by
        rw [UInt32.lt_iff_toNat_lt, UInt32.toNat_ofNat_of_lt' small]
        omega
      rcases afterAttempt_cases config (UInt32.ofNat attempt) (outcomes attempt) with
        ⟨retryable, -, err, again⟩ | ⟨ends, returns⟩
      · have through : ∀ i < attempt + 1, (outcomes i).Retryable := by
          intro i below
          rcases Nat.lt_succ_iff_lt_or_eq.mp below with earlier | rfl
          · exact retried i earlier
          · exact retryable
        obtain ⟨k, last, later, ran⟩ := ih (attempt + 1) (some err) (by omega) through
        have rest : List.range' attempt (k - attempt) =
            attempt :: List.range' (attempt + 1) (k - (attempt + 1)) := by
          rw [← List.range'_succ]
          congr 1
          omega
        refine ⟨k, last, by omega, ?_⟩
        rw [sendLoop_again small again lastErr ran, rest, List.flatMap_cons,
          ← backoffBefore_succ config (by omega)]
        simp
      · refine ⟨attempt, ⟨by omega, retried, fun _ => ends more⟩, le_rfl, ?_⟩
        rw [sendLoop_here small returns, Nat.sub_self]
        rfl

/-- **The retry loop makes exactly the attempts it should.** With a proxy setting that
passes, `send` goes on to the last attempt, waits before each retry, and returns that
attempt's outcome from inside the loop. -/
theorem send_attempts (config : RequestConfig) (outcomes : Nat → Outcome)
    (valid : config.validateProxy = .ok ()) :
    ∃ k, LastAttempt outcomes config.maxRetries.toNat k ∧
      sendLoop config outcomes none (attemptsFrom 0 (config.maxRetries.toNat + 1)) =
        (schedule config k, .returned ((outcomes k).result config)) ∧
      send config outcomes = (schedule config k, (outcomes k).result config) := by
  obtain ⟨k, last, -, ran⟩ :=
    sendLoop_returns config outcomes config.maxRetries.toNat 0 none (Nat.zero_add _)
      fun i below => absurd below (Nat.not_lt_zero i)
  have done : sendLoop config outcomes none (attemptsFrom 0 (config.maxRetries.toNat + 1)) =
      (schedule config k, .returned ((outcomes k).result config)) := by
    rw [ran, Nat.sub_zero, ← List.range_eq_range']
    rfl
  refine ⟨k, last, done, ?_⟩
  unfold send
  rw [valid]
  simp only [done]

/-- A connection that is refused twice, with one retry left to make. -/
theorem send_attempts_refused :
    ∃ k, LastAttempt (fun _ => .finished (.error ⟨"refused".toList, .connection⟩))
        (RequestConfig.new "http://a/".toList).maxRetries.toNat k ∧
      sendLoop (RequestConfig.new "http://a/".toList)
          (fun _ => .finished (.error ⟨"refused".toList, .connection⟩)) none
          (attemptsFrom 0 ((RequestConfig.new "http://a/".toList).maxRetries.toNat + 1)) =
        (schedule (RequestConfig.new "http://a/".toList) k,
          .returned (.error ⟨"refused".toList, .connection⟩)) ∧
      send (RequestConfig.new "http://a/".toList)
          (fun _ => .finished (.error ⟨"refused".toList, .connection⟩)) =
        (schedule (RequestConfig.new "http://a/".toList) k,
          .error ⟨"refused".toList, .connection⟩) :=
  send_attempts (RequestConfig.new "http://a/".toList)
    (fun _ => .finished (.error ⟨"refused".toList, .connection⟩)) (by decide)

end Blasthttp.Client
