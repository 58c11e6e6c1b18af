/-
# Blasthttp.Batch.RateLimiter -- the lock-free rate limiter

`Limits` is a clock with any number of limiters and any number of calls of `acquire` on
them, each at one of the points where another task may come in between.  A call that
wins its exchange has the slot `Round.base`; the cursor is past every slot taken, so
slots of one limiter are an interval apart (`Spaced`), and a call never returns a
millisecond or more before its slot (`Timed`).

All times are nanoseconds of the monotonic clock.
-/
import Blasthttp.Lib.Places
import Blasthttp.Lib.Runs
import Blasthttp.Lib.Spacing
import Mathlib

namespace Blasthttp.Batch

open Blasthttp.Lib.Places Blasthttp.Lib.Runs Blasthttp.Lib.Spacing

set_option autoImplicit false

/-! ## The limiter -/

/-- `u64::MAX`. -/
def maxNs : Nat := 2 ^ 64 - 1

/-- `RateLimiter`.  `new` rounds the interval up to a nanosecond. -/
structure RateLimiter where
  intervalNs : Nat
  start : Nat
  nextNs : Nat
  positive : 0 < intervalNs
  fits : nextNs ≤ maxNs

def RateLimiter.new (intervalNs : Nat) (positive : 0 < intervalNs) (clock : Nat) : RateLimiter where
  intervalNs := intervalNs
  start := clock
  nextNs := 0
  positive := positive
  fits := Nat.zero_le _

/-- `as_nanos() as u64`. -/
def nowNs (elapsed : Nat) : Nat := elapsed % 2 ^ 64

/-- What a round of the loop in `acquire` has read. -/
structure Round where
  current : Nat
  elapsed : Nat

/-- The slot, if the round's exchange succeeds. -/
def Round.base (round : Round) : Nat := max round.current (nowNs round.elapsed)

def Round.next (round : Round) (intervalNs : Nat) : Nat := min (round.base + intervalNs) maxNs

/-- The exchange that succeeds. -/
def RateLimiter.exchange (limiter : RateLimiter) (round : Round) : RateLimiter :=
  { limiter with
    nextNs := round.next limiter.intervalNs
    fits := Nat.min_le_right _ _ }

def subMsSkipThresholdNs : Nat := 1000000

/-! ## Calls of `acquire` -/

inductive Phase where
  /-- At the top of the loop. -/
  | looping
  | loaded (current : Nat)
  | read (round : Round)
  /-- Out of the loop. -/
  | taken (round : Round)
  /-- The slot is past, or too near for a sleep. -/
  | passing (round : Round)
  | sleeping (round : Round) (wake : Nat)
  | returned (round : Round) (time : Nat)

structure Acquire where
  limiter : Nat
  began : Nat
  phase : Phase

/-- The round whose exchange succeeded. -/
def Phase.round : Phase → Option Round
  | .taken round => some round
  | .passing round => some round
  | .sleeping round _ => some round
  | .returned round _ => some round
  | _ => none

structure Limits where
  clock : Nat
  limiters : List RateLimiter
  acquires : List Acquire

def Limits.init : Limits where
  clock := 0
  limiters := []
  acquires := []

inductive Action where
  | tick (ns : Nat)
  | new (intervalNs : Nat) (positive : 0 < intervalNs)
  | acquire (limiter : Nat)
  /-- A relaxed load: it may see an older value of the cursor. -/
  | load (call seen : Nat)
  | read (call : Nat)
  | exchange (call : Nat) (spurious : Bool)
  | check (call : Nat)
  | resume (call : Nat)

/-- The second reading of the clock, and the branch it decides. -/
def Round.check (round : Round) (clock start : Nat) : Phase :=
  let now := nowNs (clock - start)
  if round.base ≤ now then .passing round
  else
    let deficit := round.base - now
    if subMsSkipThresholdNs ≤ deficit then .sleeping round (clock + deficit) else .passing round

/-- The next piece of a call, with its limiter after it. -/
def advance (clock : Nat) (limiter : RateLimiter) (phase : Phase) :
    Action → Option (RateLimiter × Phase)
  | .load _ seen =>
      match phase with
      | .looping => if seen ≤ limiter.nextNs then some (limiter, .loaded seen) else none
      | _ => none
  | .read _ =>
      match phase with
      | .loaded current => some (limiter, .read ⟨current, clock - limiter.start⟩)
      | _ => none
  | .exchange _ spurious =>
      match phase with
      | .read round =>
          if !spurious && limiter.nextNs = round.current then
            some (limiter.exchange round, .taken round)
          else some (limiter, .looping)
      | _ => none
  | .check _ =>
      match phase with
      | .taken round => some (limiter, round.check clock limiter.start)
      | _ => none
  | .resume _ =>
      match phase with
      | .passing round => some (limiter, .returned round clock)
      | .sleeping round wake => if wake ≤ clock then some (limiter, .returned round clock) else none
      | _ => none
  | _ => none

def Action.call : Action → Nat
  | .load call _ => call
  | .read call => call
  | .exchange call _ => call
  | .check call => call
  | .resume call => call
  | _ => 0

/-- The state with a call and its limiter moved on. -/
def Limits.put (sys : Limits) (i : Nat) (call : Acquire) (limiter : RateLimiter) (phase : Phase) :
    Limits :=
  { sys with
    limiters := sys.limiters.set call.limiter limiter
    acquires := sys.acquires.set i { call with phase := phase } }

def Limits.step (sys : Limits) : Action → Option Limits
  | .tick ns => some { sys with clock := sys.clock + ns }
  | .new intervalNs positive =>
      some { sys with limiters := sys.limiters ++ [RateLimiter.new intervalNs positive sys.clock] }
  | .acquire k =>
      if k < sys.limiters.length then
        some { sys with acquires := sys.acquires ++ [⟨k, sys.clock, .looping⟩] }
      else none
  | action =>
      match sys.acquires[action.call]? with
      | none => none
      | some call =>
          match sys.limiters[call.limiter]? with
          | none => none
          | some limiter =>
              match advance sys.clock limiter call.phase action with
              | none => none
              | some (limiter, phase) => some (sys.put action.call call limiter phase)

/-! ## What a step can do -/

inductive Advance (clock : Nat) (limiter : RateLimiter) : Phase → RateLimiter → Phase → Prop
  | loads {seen : Nat} : Advance clock limiter .looping limiter (.loaded seen)
  | reads {current : Nat} :
      Advance clock limiter (.loaded current) limiter (.read ⟨current, clock - limiter.start⟩)
  | fails {round : Round} : Advance clock limiter (.read round) limiter .looping
  | takes {round : Round} (same : limiter.nextNs = round.current) :
      Advance clock limiter (.read round) (limiter.exchange round) (.taken round)
  | checks {round : Round} :
      Advance clock limiter (.taken round) limiter (round.check clock limiter.start)
  | passes {round : Round} :
      Advance clock limiter (.passing round) limiter (.returned round clock)
  | wakes {round : Round} {wake : Nat} (slept : wake ≤ clock) :
      Advance clock limiter (.sleeping round wake) limiter (.returned round clock)

theorem advance_spec {clock : Nat} {limiter limiter' : RateLimiter} {phase phase' : Phase}
    {action : Action} (next : advance clock limiter phase action = some (limiter', phase')) :
    Advance clock limiter phase limiter' phase' := by
  cases action with
  | tick ns => cases next
  | new intervalNs positive => cases next
  | acquire k => cases next
  | load i seen =>
      cases phase with
      | looping =>
          simp only [advance] at next
          split at next
          · cases next
            exact .loads
          · cases next
      | _ => cases next
  | read i =>
      cases phase with
      | loaded current =>
          cases next
          exact .reads
      | _ => cases next
  | exchange i spurious =>
      cases phase with
      | read round =>
          simp only [advance] at next
          split at next
          · rename_i won
            cases next
            exact .takes (by simpa using (Bool.and_eq_true_iff.mp won).2)
          · cases next
            exact .fails
      | _ => cases next
  | check i =>
      cases phase with
      | taken round =>
          cases next
          exact .checks
      | _ => cases next
  | resume i =>
      cases phase with
      | passing round =>
          cases next
          exact .passes
      | sleeping round wake =>
          simp only [advance] at next
          split at next
          · rename_i slept
            cases next
            exact .wakes slept
          · cases next
      | _ => cases next

/-- Every step lets time pass, makes a limiter, begins a call, or moves one on. -/
theorem step_cases {sys sys' : Limits} {action : Action} (stepped : sys.step action = some sys') :
    (∃ ns, sys' = { sys with clock := sys.clock + ns }) ∨
    (∃ intervalNs positive, sys' =
      { sys with limiters := sys.limiters ++ [RateLimiter.new intervalNs positive sys.clock] }) ∨
    (∃ k < sys.limiters.length, sys' =
      { sys with acquires := sys.acquires ++ [⟨k, sys.clock, .looping⟩] }) ∨
    (∃ i call limiter limiter' phase, sys.acquires[i]? = some call ∧
      sys.limiters[call.limiter]? = some limiter ∧
      Advance sys.clock limiter call.phase limiter' phase ∧
      sys' = sys.put i call limiter' phase) := by
  have moves : ∀ a : Action, (match sys.acquires[a.call]? with
      | none => none
      | some call =>
          match sys.limiters[call.limiter]? with
          | none => none
          | some limiter =>
              match advance sys.clock limiter call.phase a with
              | none => none
              | some (limiter, phase) => some (sys.put a.call call limiter phase)) = some sys' →
      ∃ i call limiter limiter' phase, sys.acquires[i]? = some call ∧
        sys.limiters[call.limiter]? = some limiter ∧
        Advance sys.clock limiter call.phase limiter' phase ∧
        sys' = sys.put i call limiter' phase := by
    intro a moved
    split at moved
    · cases moved
    · rename_i call there
      split at moved
      · cases moved
      · rename_i limiter held
        split at moved
        · cases moved
        · rename_i limiter' phase next
          cases moved
          exact ⟨_, call, limiter, limiter', phase, there, held, advance_spec next, rfl⟩
  cases action with
  | tick ns =>
      cases stepped
      exact .inl ⟨ns, rfl⟩
  | new intervalNs positive =>
      cases stepped
      exact .inr (.inl ⟨intervalNs, positive, rfl⟩)
  | acquire k =>
      simp only [Limits.step] at stepped
      split at stepped
      · rename_i known
        cases stepped
        exact .inr (.inr (.inl ⟨k, known, rfl⟩))
      · cases stepped
  | load i seen => exact .inr (.inr (.inr (moves _ stepped)))
  | read i => exact .inr (.inr (.inr (moves _ stepped)))
  | exchange i spurious => exact .inr (.inr (.inr (moves _ stepped)))
  | check i => exact .inr (.inr (.inr (moves _ stepped)))
  | resume i => exact .inr (.inr (.inr (moves _ stepped)))

/-! ## Times -/

theorem nowNs_le (elapsed : Nat) : nowNs elapsed ≤ elapsed := Nat.mod_le _ _

/-- What the times in a phase have to do with the slot. -/
def Phase.Timed (began clock start : Nat) : Phase → Prop
  | .looping => True
  | .loaded _ => True
  | .read round => began ≤ start + round.elapsed
  | .taken round => began ≤ start + round.elapsed
  | .passing round =>
      began ≤ start + round.elapsed ∧ start + round.base < clock + subMsSkipThresholdNs
  | .sleeping round wake => began ≤ start + round.elapsed ∧ start + round.base ≤ wake
  | .returned round time =>
      began ≤ start + round.elapsed ∧ start + round.base < time + subMsSkipThresholdNs

/-- A round is read after the call began. -/
theorem Phase.Timed.began_le {began clock start : Nat} {phase : Phase} {round : Round}
    (timed : phase.Timed began clock start) (won : phase.round = some round) :
    began ≤ start + round.elapsed := by
  cases phase with
  | taken r =>
      cases won
      exact timed
  | passing r =>
      cases won
      exact timed.1
  | sleeping r wake =>
      cases won
      exact timed.1
  | returned r time =>
      cases won
      exact timed.1
  | _ => cases won

structure Acquire.Timed (call : Acquire) (clock start : Nat) : Prop where
  started : start ≤ call.began
  begun : call.began ≤ clock
  phase : call.phase.Timed call.began clock start

theorem Acquire.Timed.later {call : Acquire} {clock start : Nat} (timed : call.Timed clock start)
    (ns : Nat) : call.Timed (clock + ns) start := by
  refine ⟨timed.started, timed.begun.trans (Nat.le_add_right _ _), ?_⟩
  have held := timed.phase
  cases phase : call.phase with
  | passing round =>
      rw [phase] at held
      have near := held.2
      exact ⟨held.1, by omega⟩
  | _ =>
      rw [phase] at held
      exact held

theorem Round.check_timed {round : Round} {began clock start : Nat}
    (read : began ≤ start + round.elapsed) (begun : start ≤ clock) :
    (round.check clock start).Timed began clock start := by
  have now := nowNs_le (clock - start)
  have threshold : 0 < subMsSkipThresholdNs := by decide
  unfold Round.check
  simp only
  split
  · exact ⟨read, by omega⟩
  · split
    · exact ⟨read, by omega⟩
    · exact ⟨read, by omega⟩

theorem Advance.timed {call : Acquire} {clock : Nat} {limiter limiter' : RateLimiter}
    {phase : Phase} (timed : call.Timed clock limiter.start)
    (moved : Advance clock limiter call.phase limiter' phase) :
    Acquire.Timed { call with phase := phase } clock limiter'.start := by
  have held := timed.phase
  have started := timed.started
  have begun := timed.begun
  have threshold : 0 < subMsSkipThresholdNs := by decide
  generalize was : call.phase = before at moved held
  cases moved with
  | loads => exact ⟨started, begun, trivial⟩
  | reads =>
      refine ⟨started, begun, ?_⟩
      show call.began ≤ limiter.start + (clock - limiter.start)
      omega
  | fails => exact ⟨started, begun, trivial⟩
  | takes same => exact ⟨started, begun, held⟩
  | checks => exact ⟨started, begun, Round.check_timed held (started.trans begun)⟩
  | passes => exact ⟨started, begun, held⟩
  | wakes slept =>
      have slot := held.2
      exact ⟨started, begun, held.1, by omega⟩

/-- The limiter a call is on never changes but for its cursor. -/
theorem Advance.limiter {clock : Nat} {limiter limiter' : RateLimiter} {phase phase' : Phase}
    (moved : Advance clock limiter phase limiter' phase') :
    limiter'.intervalNs = limiter.intervalNs ∧ limiter'.start = limiter.start := by
  cases moved <;> exact ⟨rfl, rfl⟩

theorem put_acquires {sys : Limits} {i j : Nat} {call held : Acquire} {limiter : RateLimiter}
    {phase : Phase} (there : (sys.put i call limiter phase).acquires[j]? = some held) :
    (j = i ∧ held = { call with phase := phase }) ∨ (j ≠ i ∧ sys.acquires[j]? = some held) :=
  getElem?_set_cases there

theorem put_limiters {sys : Limits} {i k : Nat} {call : Acquire} {limiter held : RateLimiter}
    {phase : Phase} (there : (sys.put i call limiter phase).limiters[k]? = some held) :
    (k = call.limiter ∧ held = limiter) ∨ (k ≠ call.limiter ∧ sys.limiters[k]? = some held) :=
  getElem?_set_cases there

/-- Every call is on a limiter, and its times fit. -/
structure Limits.Timed (sys : Limits) : Prop where
  started : ∀ (k : Nat) (limiter : RateLimiter), sys.limiters[k]? = some limiter →
    limiter.start ≤ sys.clock
  calls : ∀ (i : Nat) (call : Acquire), sys.acquires[i]? = some call →
    ∃ limiter, sys.limiters[call.limiter]? = some limiter ∧ call.Timed sys.clock limiter.start

/-- Moving a call on keeps what is fixed about every limiter. -/
theorem put_limiter {sys : Limits} {call : Acquire} {limiter limiter' : RateLimiter}
    (there : sys.limiters[call.limiter]? = some limiter)
    (same : limiter'.intervalNs = limiter.intervalNs ∧ limiter'.start = limiter.start)
    {k : Nat} {old : RateLimiter} (held : sys.limiters[k]? = some old) (i : Nat) (phase : Phase) :
    ∃ now, (sys.put i call limiter' phase).limiters[k]? = some now ∧
      now.intervalNs = old.intervalNs ∧ now.start = old.start := by
  unfold Limits.put
  by_cases here : call.limiter = k
  · subst here
    rw [there] at held
    cases held
    exact ⟨limiter', getElem?_set_here there limiter', same⟩
  · exact ⟨old, (List.getElem?_set_ne here).trans held, rfl, rfl⟩

/-- The times of a call, against the limiter it is on. -/
theorem Limits.Timed.on {sys : Limits} (timed : sys.Timed) {i k : Nat} {call : Acquire}
    {limiter : RateLimiter} (there : sys.acquires[i]? = some call) (same : call.limiter = k)
    (held : sys.limiters[k]? = some limiter) : call.Timed sys.clock limiter.start := by
  obtain ⟨limiter', held', fits⟩ := timed.calls i call there
  rw [same, held] at held'
  cases held'
  exact fits

theorem step_timed {sys sys' : Limits} {action : Action} (timed : sys.Timed)
    (stepped : sys.step action = some sys') : sys'.Timed := by
  rcases step_cases stepped with ⟨ns, rfl⟩ | ⟨intervalNs, positive, rfl⟩ | ⟨k, known, rfl⟩ |
    ⟨i, call, limiter, limiter', phase, there, held, moved, rfl⟩
  · refine ⟨?_, ?_⟩
    · intro k limiter held
      exact (timed.started k limiter held).trans (Nat.le_add_right _ _)
    · intro i call there
      obtain ⟨limiter, held, fits⟩ := timed.calls i call there
      exact ⟨limiter, held, fits.later ns⟩
  · refine ⟨?_, ?_⟩
    · intro k limiter held
      rcases getElem?_concat_cases held with old | ⟨-, rfl⟩
      · exact timed.started k limiter old
      · exact Nat.le_refl _
    · intro i call there
      obtain ⟨limiter, held, fits⟩ := timed.calls i call there
      exact ⟨limiter, getElem?_concat_old held, fits⟩
  · refine ⟨timed.started, ?_⟩
    intro i call there
    rcases getElem?_concat_cases there with old | ⟨-, rfl⟩
    · exact timed.calls i call old
    · have held := List.getElem?_eq_getElem known
      exact ⟨_, held, timed.started k _ held, Nat.le_refl _, trivial⟩
  · have fixed := moved.limiter
    refine ⟨?_, ?_⟩
    · intro k now here
      rcases put_limiters here with ⟨-, rfl⟩ | ⟨-, old⟩
      · rw [fixed.2]
        exact timed.started _ limiter held
      · exact timed.started k now old
    · intro j other here
      rcases put_acquires here with ⟨-, rfl⟩ | ⟨-, old⟩
      · have fits := timed.on there rfl held
        exact ⟨limiter', getElem?_set_here held limiter', moved.timed fits⟩
      · obtain ⟨limiter'', held', fits⟩ := timed.calls j other old
        obtain ⟨now, found, -, start⟩ := put_limiter held fixed held' i phase
        rw [← start] at fits
        exact ⟨now, found, fits⟩

theorem timed_run {actions : List Action} {sys : Limits}
    (ran : run Limits.step Limits.init actions = some sys) : sys.Timed := by
  refine run_invariant (motive := Limits.Timed) ?_ step_timed ran
  refine ⟨?_, ?_⟩
  · intro k limiter nothing
    cases nothing
  · intro i call nothing
    cases nothing

/-! ## Slots -/

/-- Call `i`, on limiter `k`, took its slot in this round. -/
def Limits.Took (sys : Limits) (k i : Nat) (round : Round) : Prop :=
  ∃ call, sys.acquires[i]? = some call ∧ call.limiter = k ∧ call.phase.round = some round

/-- The cursor is past every slot taken, and slots follow one another at the interval. -/
structure Limits.Spaced (sys : Limits) : Prop where
  below : ∀ {k i : Nat} {limiter : RateLimiter} {round : Round},
    sys.limiters[k]? = some limiter → sys.Took k i round →
      round.next limiter.intervalNs ≤ limiter.nextNs
  apart : ∀ {k i j : Nat} {limiter : RateLimiter} {a b : Round},
    sys.limiters[k]? = some limiter → i ≠ j → sys.Took k i a → sys.Took k j b →
      a.next limiter.intervalNs ≤ b.base ∨ b.next limiter.intervalNs ≤ a.base

/-- Steps that take no slot and leave the cursors alone. -/
theorem Limits.Spaced.of_took {sys sys' : Limits} (spaced : sys.Spaced)
    (took : ∀ {k i : Nat} {round : Round}, sys'.Took k i round → sys.Took k i round)
    (limiters : ∀ {k i : Nat} {limiter : RateLimiter} {round : Round},
      sys'.limiters[k]? = some limiter → sys.Took k i round → sys.limiters[k]? = some limiter) :
    sys'.Spaced := by
  refine ⟨?_, ?_⟩
  · intro k i limiter round held taken
    exact spaced.below (limiters held (took taken)) (took taken)
  · intro k i j limiter a b held other first second
    exact spaced.apart (limiters held (took first)) other (took first) (took second)

theorem took_put {sys : Limits} {i j k : Nat} {call : Acquire} {limiter : RateLimiter}
    {phase : Phase} {round : Round} (taken : (sys.put i call limiter phase).Took k j round) :
    (j = i ∧ call.limiter = k ∧ phase.round = some round) ∨ (j ≠ i ∧ sys.Took k j round) := by
  obtain ⟨held, there, on, won⟩ := taken
  rcases put_acquires there with ⟨rfl, rfl⟩ | ⟨other, old⟩
  · exact .inl ⟨rfl, on, won⟩
  · exact .inr ⟨other, held, old, on, won⟩

/-- A call that moves on without winning an exchange. -/
theorem Advance.kept {clock : Nat} {limiter limiter' : RateLimiter} {phase phase' : Phase}
    (moved : Advance clock limiter phase limiter' phase') :
    (limiter' = limiter ∧ ∀ round, phase'.round = some round → phase.round = some round) ∨
      ∃ round, phase.round = none ∧ phase'.round = some round ∧
        limiter.nextNs = round.current ∧ limiter' = limiter.exchange round := by
  cases moved with
  | takes same => exact .inr ⟨_, rfl, rfl, same, rfl⟩
  | checks =>
      refine .inl ⟨rfl, ?_⟩
      intro round won
      simp only [Round.check] at won
      split at won
      · exact won
      · split at won
        · exact won
        · exact won
  | passes => exact .inl ⟨rfl, fun round won => won⟩
  | wakes slept => exact .inl ⟨rfl, fun round won => won⟩
  | _ => exact .inl ⟨rfl, fun round won => by cases won⟩

/-- The slot of an exchange is past all the slots before it. -/
theorem exchange_next {limiter : RateLimiter} {round : Round}
    (same : limiter.nextNs = round.current) :
    limiter.nextNs ≤ round.base ∧ limiter.nextNs ≤ (limiter.exchange round).nextNs := by
  have base : limiter.nextNs ≤ round.base := by
    rw [same]
    exact Nat.le_max_left _ _
  refine ⟨base, ?_⟩
  apply Nat.le_min.mpr
  exact ⟨base.trans (Nat.le_add_right _ _), limiter.fits⟩

/-- The winner's slot is behind all slots before it, and the cursor moves past it. -/
theorem Limits.Spaced.exchange {sys : Limits} (spaced : sys.Spaced) {i : Nat} {call : Acquire}
    {limiter : RateLimiter} {phase : Phase} {round : Round}
    (held : sys.limiters[call.limiter]? = some limiter) (won : phase.round = some round)
    (same : limiter.nextNs = round.current) :
    (sys.put i call (limiter.exchange round) phase).Spaced := by
  obtain ⟨base, next⟩ := exchange_next same
  refine ⟨?_, ?_⟩
  · intro k j now taken here slot
    rcases put_limiters here with ⟨rfl, rfl⟩ | ⟨elsewhere, old⟩
    · rcases took_put slot with ⟨-, -, won'⟩ | ⟨-, earlier⟩
      · cases won.symm.trans won'
        exact Nat.le_refl _
      · exact (spaced.below held earlier).trans next
    · rcases took_put slot with ⟨-, on, -⟩ | ⟨-, earlier⟩
      · exact absurd on.symm elsewhere
      · exact spaced.below old earlier
  · intro k j j' now a b here distinct first second
    rcases put_limiters here with ⟨rfl, rfl⟩ | ⟨elsewhere, old⟩
    · rcases took_put first with ⟨rfl, -, wonA⟩ | ⟨otherA, earlierA⟩
      · cases won.symm.trans wonA
        rcases took_put second with ⟨rfl, -, -⟩ | ⟨-, earlierB⟩
        · exact absurd rfl distinct
        · exact .inr ((spaced.below held earlierB).trans base)
      · rcases took_put second with ⟨rfl, -, wonB⟩ | ⟨-, earlierB⟩
        · cases won.symm.trans wonB
          exact .inl ((spaced.below held earlierA).trans base)
        · have apart := spaced.apart held distinct earlierA earlierB
          exact apart
    · rcases took_put first with ⟨-, on, -⟩ | ⟨-, earlierA⟩
      · exact absurd on.symm elsewhere
      · rcases took_put second with ⟨-, on, -⟩ | ⟨-, earlierB⟩
        · exact absurd on.symm elsewhere
        · exact spaced.apart old distinct earlierA earlierB

theorem step_spaced {sys sys' : Limits} {action : Action} (timed : sys.Timed) (spaced : sys.Spaced)
    (stepped : sys.step action = some sys') : sys'.Spaced := by
  rcases step_cases stepped with ⟨ns, rfl⟩ | ⟨intervalNs, positive, rfl⟩ | ⟨k, known, rfl⟩ |
    ⟨i, call, limiter, limiter', phase, there, held, moved, rfl⟩
  · exact spaced.of_took (fun taken => taken) (fun held _ => held)
  · refine spaced.of_took (fun taken => taken) ?_
    rintro k i limiter round here ⟨call, there, rfl, -⟩
    obtain ⟨old, held, -⟩ := timed.calls i call there
    rw [show sys.limiters[call.limiter]? = some old from held]
    exact (getElem?_concat_old held).symm.trans here
  · refine spaced.of_took ?_ (fun held _ => held)
    rintro k i round ⟨call, there, on, won⟩
    rcases getElem?_concat_cases there with old | ⟨-, rfl⟩
    · exact ⟨call, old, on, won⟩
    · cases won
  · rcases moved.kept with ⟨rfl, kept⟩ | ⟨round, before, won, same, rfl⟩
    · refine spaced.of_took ?_ ?_
      · intro k j round taken
        rcases took_put taken with ⟨rfl, on, won⟩ | ⟨-, old⟩
        · exact ⟨call, there, on, kept round won⟩
        · exact old
      · intro k j limiter round here _
        rcases put_limiters here with ⟨rfl, rfl⟩ | ⟨-, old⟩
        · exact held
        · exact old
    · exact spaced.exchange held won same

theorem spaced_run {actions : List Action} {sys : Limits}
    (ran : run Limits.step Limits.init actions = some sys) : sys.Spaced := by
  refine (run_invariant (motive := fun sys => sys.Timed ∧ sys.Spaced) ?_ ?_ ran).2
  · refine ⟨@timed_run [] Limits.init rfl, ?_, ?_⟩
    · intro k i limiter round nothing
      cases nothing
    · intro k i j limiter a b nothing
      cases nothing
  · rintro sys sys' action ⟨timed, spaced⟩ stepped
    exact ⟨step_timed timed stepped, step_spaced timed spaced stepped⟩

/-! ## The bound -/

/-- No exchange on limiter `k` took its cursor to the end, the elapsed time counted in
full. -/
def Limits.Unsaturated (sys : Limits) (k : Nat) (limiter : RateLimiter) : Prop :=
  ∀ i round, sys.Took k i round → max round.current round.elapsed + limiter.intervalNs < maxNs

theorem unsaturated_round {round : Round} {intervalNs : Nat}
    (room : max round.current round.elapsed + intervalNs < maxNs) :
    round.elapsed ≤ round.base ∧ round.next intervalNs = round.base + intervalNs := by
  have whole : nowNs round.elapsed = round.elapsed := by
    unfold nowNs
    apply Nat.mod_eq_of_lt
    have inside := Nat.le_max_right round.current round.elapsed
    unfold maxNs at room
    omega
  unfold Round.next Round.base
  rw [whole]
  exact ⟨Nat.le_max_right _ _, Nat.min_eq_left room.le⟩

/-- The call returned by time `t`. -/
def Acquire.returnedBy (call : Acquire) (t : Nat) : Bool :=
  match call.phase with
  | .returned _ time => time ≤ t
  | _ => false

/-- The calls on limiter `k` that began at `s` or later and returned by `t`. -/
def Limits.released (sys : Limits) (k s t : Nat) : List Acquire :=
  sys.acquires.filter fun call => call.limiter = k && s ≤ call.began && call.returnedBy t

theorem returnedBy_iff {call : Acquire} {t : Nat} :
    call.returnedBy t = true ↔ ∃ round time, call.phase = .returned round time ∧ time ≤ t := by
  unfold Acquire.returnedBy
  cases call.phase <;> simp

/-- A released call has its slot in the window, up to the skipped millisecond. -/
theorem released_slot {sys : Limits} (timed : sys.Timed) {k s t : Nat} {limiter : RateLimiter}
    (held : sys.limiters[k]? = some limiter) (room : sys.Unsaturated k limiter) {call : Acquire}
    (released : call ∈ sys.released k s t) :
    ∃ round, call.phase.round = some round ∧ s ≤ limiter.start + round.base ∧
      limiter.start + round.base < t + subMsSkipThresholdNs := by
  obtain ⟨there, counted⟩ := List.mem_filter.mp released
  simp only [Bool.and_eq_true, decide_eq_true_eq] at counted
  obtain ⟨⟨on, since⟩, returned⟩ := counted
  obtain ⟨round, time, phase, by_⟩ := returnedBy_iff.mp returned
  obtain ⟨i, there⟩ := List.getElem?_of_mem there
  have won : call.phase.round = some round := by rw [phase]; rfl
  have slot := (unsaturated_round (room i round ⟨call, there, on, won⟩)).1
  have times := (timed.on there on held).phase
  rw [phase] at times
  obtain ⟨read, near⟩ := times
  exact ⟨round, won, by omega, by omega⟩

/-- Slots of one limiter, counted in full, are an interval apart. -/
theorem took_apart {sys : Limits} (spaced : sys.Spaced) {k : Nat} {limiter : RateLimiter}
    (held : sys.limiters[k]? = some limiter) (room : sys.Unsaturated k limiter) {i j : Nat}
    (distinct : i ≠ j) {a b : Round} (first : sys.Took k i a) (second : sys.Took k j b) :
    Apart limiter.intervalNs a.base b.base := by
  have apart := spaced.apart held distinct first second
  rw [(unsaturated_round (room i a first)).2, (unsaturated_round (room j b second)).2] at apart
  exact apart

/-- The slot a call took on this limiter. -/
def RateLimiter.slot (limiter : RateLimiter) (call : Acquire) : Nat :=
  limiter.start + (call.phase.round.map Round.base).getD 0

theorem released_apart {sys : Limits} (timed : sys.Timed) (spaced : sys.Spaced) {k s t : Nat}
    {limiter : RateLimiter} (held : sys.limiters[k]? = some limiter)
    (room : sys.Unsaturated k limiter) :
    ((sys.released k s t).map limiter.slot).Pairwise (Apart limiter.intervalNs) := by
  have every : sys.acquires.Pairwise fun a b => a.limiter = k → b.limiter = k →
      ∀ ra rb, a.phase.round = some ra → b.phase.round = some rb →
        Apart limiter.intervalNs ra.base rb.base := by
    apply List.pairwise_iff_getElem.mpr
    intro i j inI inJ before onA onB ra rb wonA wonB
    exact took_apart spaced held room (Nat.ne_of_lt before)
      ⟨_, List.getElem?_eq_getElem inI, onA, wonA⟩ ⟨_, List.getElem?_eq_getElem inJ, onB, wonB⟩
  apply List.pairwise_map.mpr
  apply (every.filter _).imp_of_mem
  intro a b inA inB apart
  obtain ⟨ra, wonA, -⟩ := released_slot timed held room inA
  obtain ⟨rb, wonB, -⟩ := released_slot timed held room inB
  have on : ∀ {call : Acquire}, call ∈ sys.released k s t → call.limiter = k := by
    intro call released
    have counted := (List.mem_filter.mp released).2
    simp only [Bool.and_eq_true, decide_eq_true_eq] at counted
    exact counted.1.1
  have both := apart (on inA) (on inB) ra rb wonA wonB
  unfold RateLimiter.slot
  rw [wonA, wonB]
  rcases both with near | near
  · exact .inl (by simp; omega)
  · exact .inr (by simp; omega)

theorem released_length {sys : Limits} (timed : sys.Timed) (spaced : sys.Spaced) {k s t : Nat}
    (ordered : s ≤ t) {limiter : RateLimiter} (held : sys.limiters[k]? = some limiter)
    (room : sys.Unsaturated k limiter) :
    (sys.released k s t).length ≤ 1 + (t - s + subMsSkipThresholdNs) / limiter.intervalNs := by
  have counted := length_le_of_apart (s := s) (w := t - s + subMsSkipThresholdNs)
    limiter.positive (@released_apart sys timed spaced k s t limiter held room) ?_
  · rw [List.length_map] at counted
    exact counted
  · intro x there
    obtain ⟨call, released, rfl⟩ := List.mem_map.mp there
    obtain ⟨round, won, since, near⟩ := released_slot timed held room released
    unfold RateLimiter.slot
    rw [won]
    simp only [Option.map_some, Option.getD_some]
    omega

/-- **The rate limiter under any interleaving.** In every run, on a limiter whose cursor
did not saturate: distinct calls take slots at least an interval apart, no slot is
earlier than its call began, no call returns a millisecond or more before its slot, and
so few calls begin at `s` or later and return by `t`. -/
theorem acquire_spacing {actions : List Action} {sys : Limits}
    (ran : run Limits.step Limits.init actions = some sys) {k : Nat} {limiter : RateLimiter}
    (held : sys.limiters[k]? = some limiter) (room : sys.Unsaturated k limiter) :
    (∀ i j a b, i ≠ j → sys.Took k i a → sys.Took k j b →
      Apart limiter.intervalNs a.base b.base) ∧
    (∀ (i : Nat) (call : Acquire) (round : Round), sys.acquires[i]? = some call →
      call.limiter = k → call.phase.round = some round →
        call.began ≤ limiter.start + round.base) ∧
    (∀ (i : Nat) (call : Acquire) (round : Round) (time : Nat), sys.acquires[i]? = some call →
      call.limiter = k → call.phase = .returned round time →
        limiter.start + round.base < time + 1000000) ∧
    ∀ s t, s ≤ t →
      (sys.released k s t).length ≤ 1 + (t - s + 1000000) / limiter.intervalNs := by
  have timed := timed_run ran
  have spaced := spaced_run ran
  refine ⟨?_, ?_, ?_, ?_⟩
  · intro i j a b distinct first second
    exact took_apart spaced held room distinct first second
  · intro i call round there same won
    have slot := (unsaturated_round (room i round ⟨call, there, same, won⟩)).1
    have read := (timed.on there same held).phase.began_le won
    omega
  · intro i call round time there same phase
    have times := (timed.on there same held).phase
    rw [phase] at times
    exact times.2
  · intro s t ordered
    exact released_length timed spaced ordered held room

/-! Two calls at 10 requests a second: the second waits for its slot. -/

def pacedActions : List Action :=
  [.new 100000000 (by decide), .acquire 0, .load 0 0, .read 0, .exchange 0 false, .check 0,
    .resume 0, .tick 5, .acquire 0, .load 1 100000000, .read 1, .exchange 1 true, .load 1 100000000,
    .read 1, .exchange 1 false, .check 1, .tick 99999995, .resume 1]

def pacedEnd : Limits := (run Limits.step Limits.init pacedActions).getD Limits.init

theorem pacedEnd_acquires : pacedEnd.acquires =
    [⟨0, 0, .returned ⟨0, 0⟩ 0⟩, ⟨0, 5, .returned ⟨100000000, 5⟩ 100000000⟩] := by
  rfl

theorem pacedEnd_unsaturated (limiter : RateLimiter)
    (held : pacedEnd.limiters[0]? = some limiter) : pacedEnd.Unsaturated 0 limiter := by
  have interval : limiter.intervalNs = 100000000 := by
    cases held
    rfl
  intro i round took
  obtain ⟨call, there, -, won⟩ := took
  rw [pacedEnd_acquires] at there
  rw [interval]
  rcases i with _ | _ | i
  · cases there
    cases won
    decide
  · cases there
    cases won
    decide
  · cases there

theorem acquire_spacing_paced :
    ∃ limiter, pacedEnd.limiters[0]? = some limiter ∧ limiter.intervalNs = 100000000 ∧
      (∀ i j a b, i ≠ j → pacedEnd.Took 0 i a → pacedEnd.Took 0 j b →
        Apart limiter.intervalNs a.base b.base) ∧
      (pacedEnd.released 0 0 100000000).length ≤ 1 + (100000000 - 0 + 1000000) / 100000000 := by
  have spacing := @acquire_spacing pacedActions pacedEnd (by rfl) 0 _ (by rfl)
    (pacedEnd_unsaturated _ (by rfl))
  exact ⟨_, by rfl, by rfl, spacing.1, spacing.2.2.2 0 100000000 (by decide)⟩

end Blasthttp.Batch
