/-
# Blasthttp.Batch.SharedLimit -- calls on a client with a rate limit

A client with `set_rate_limit` hands its limiter to every `request`, `send_batch` and
`send_batch_stream`; `merge_limiters` puts one of the call's own in its place when the
per-call period is the longer one.  `sharedLimit_iff`: all dispatches come from the
shared limiter, and keep its bound together, exactly when no call that dispatches has
such a per-call limit.
-/
import Blasthttp.Batch.RateLimiter

namespace Blasthttp.Batch

open Blasthttp.Lib.Places Blasthttp.Lib.Runs Blasthttp.Lib.Spacing

set_option autoImplicit false

variable {Rate : Type}

/-! ## Merging limits -/

/-- What floating point makes of a positive rate: the interval of `RateLimiter::new`, and
the nanoseconds of `Duration::from_secs_f64(1.0 / rps)`, which can panic. -/
structure RateArith (Rate : Type) where
  intervalNs : Rate → Nat
  positive : ∀ rate, 0 < intervalNs rate
  periodNs : Rate → Option Nat

inductive Merged (Rate : Type) where
  | shared
  | own (rate : Rate)
  | unlimited

/-- `merge_limiters`, given the interval of the shared limiter; none if it panics. -/
def mergeLimiters (arith : RateArith Rate) (shared : Option Nat) (perCall : Option Rate) :
    Option (Merged Rate) :=
  match shared, perCall with
  | some sharedInterval, some perCallRps =>
      match arith.periodNs perCallRps with
      | none => none
      | some perCallInterval =>
          if sharedInterval < perCallInterval then some (.own perCallRps) else some .shared
  | some _, none => some .shared
  | none, some rps => some (.own rps)
  | none, none => some .unlimited

/-! ## Calls on one client -/

/-- The dispatching side of a call, with the acquire it waits for. -/
structure Caller (Rate : Type) where
  perCall : Option Rate
  limiter : Option Nat
  configs : Nat
  pacing : Option Nat

/-- A request handed on, with the times its acquire began and returned. -/
structure Dispatched where
  caller : Nat
  acquire : Option Nat
  began : Nat
  released : Nat

/-- The shared limiter is the first one. -/
structure Traffic (Rate : Type) where
  limits : Limits
  callers : List (Caller Rate)
  dispatches : List Dispatched

def Traffic.start (intervalNs : Nat) (positive : 0 < intervalNs) : Traffic Rate where
  limits := { Limits.init with limiters := [RateLimiter.new intervalNs positive 0] }
  callers := []
  dispatches := []

inductive TrafficAction (Rate : Type) where
  /-- A step of an acquire, or one by another user of the limiters. -/
  | limits (action : Action)
  /-- `request` is a call with one config and no limit of its own. -/
  | call (perCall : Option Rate) (configs : Nat)
  | pace (caller : Nat)
  | dispatch (caller : Nat)

def Traffic.addCaller (sys : Traffic Rate) (perCall : Option Rate) (configs : Nat)
    (limiter : Option Nat) : Traffic Rate :=
  { sys with callers := sys.callers ++ [⟨perCall, limiter, configs, none⟩] }

/-- A call whose limits cannot be merged panics before it dispatches. -/
def Traffic.enter (arith : RateArith Rate) (sys : Traffic Rate) (perCall : Option Rate)
    (configs : Nat) : Traffic Rate :=
  match mergeLimiters arith (sys.limits.limiters[0]?.map RateLimiter.intervalNs) perCall with
  | none => sys
  | some .shared => sys.addCaller perCall configs (some 0)
  | some .unlimited => sys.addCaller perCall configs none
  | some (.own rate) =>
      let own := RateLimiter.new (arith.intervalNs rate) (arith.positive rate) sys.limits.clock
      { sys with limits := { sys.limits with limiters := sys.limits.limiters ++ [own] } }.addCaller
        perCall configs (some sys.limits.limiters.length)

/-- The call waits for its limiter before the next config. -/
def Traffic.pace (sys : Traffic Rate) (c : Nat) (caller : Caller Rate) : Option (Traffic Rate) :=
  match caller.limiter, caller.pacing, caller.configs with
  | some k, none, _ + 1 =>
      match sys.limits.step (.acquire k) with
      | none => none
      | some limits =>
          some
            { sys with
              limits := limits
              callers :=
                sys.callers.set c { caller with pacing := some sys.limits.acquires.length } }
  | _, _, _ => none

def Traffic.sent (sys : Traffic Rate) (c : Nat) (caller : Caller Rate) (dispatch : Dispatched) :
    Traffic Rate :=
  { sys with
    callers :=
      sys.callers.set c { caller with
        configs := caller.configs - 1
        pacing := none }
    dispatches := sys.dispatches ++ [dispatch] }

/-- The next config goes out once its acquire has returned. -/
def Traffic.dispatch (sys : Traffic Rate) (c : Nat) (caller : Caller Rate) :
    Option (Traffic Rate) :=
  match caller.limiter, caller.pacing with
  | none, _ =>
      if caller.configs = 0 then none
      else some (sys.sent c caller ⟨c, none, sys.limits.clock, sys.limits.clock⟩)
  | some _, none => none
  | some _, some i =>
      match sys.limits.acquires[i]? with
      | some ⟨_, began, .returned _ time⟩ => some (sys.sent c caller ⟨c, some i, began, time⟩)
      | _ => none

def Traffic.step (arith : RateArith Rate) (sys : Traffic Rate) :
    TrafficAction Rate → Option (Traffic Rate)
  | .limits action =>
      match sys.limits.step action with
      | none => none
      | some limits => some { sys with limits := limits }
  | .call perCall configs => some (sys.enter arith perCall configs)
  | .pace c =>
      match sys.callers[c]? with
      | none => none
      | some caller => sys.pace c caller
  | .dispatch c =>
      match sys.callers[c]? with
      | none => none
      | some caller => sys.dispatch c caller

/-! ## Limiters and acquires stay -/

/-- What later steps of the limiters leave alone. -/
structure Limits.Grows (old new : Limits) : Prop where
  limiters : ∀ {k : Nat} {limiter : RateLimiter}, old.limiters[k]? = some limiter →
    ∃ now, new.limiters[k]? = some now ∧ now.intervalNs = limiter.intervalNs
  acquires : ∀ {i : Nat} {call : Acquire}, old.acquires[i]? = some call →
    ∃ now, new.acquires[i]? = some now ∧ now.limiter = call.limiter ∧ now.began = call.began ∧
      ∀ round time, call.phase = .returned round time → now.phase = .returned round time

theorem Limits.Grows.refl (sys : Limits) : sys.Grows sys where
  limiters := fun held => ⟨_, held, rfl⟩
  acquires := fun there => ⟨_, there, rfl, rfl, fun _ _ phase => phase⟩

theorem grows_step {sys sys' : Limits} {action : Action} (stepped : sys.step action = some sys') :
    sys.Grows sys' := by
  rcases step_cases stepped with ⟨ns, rfl⟩ | ⟨intervalNs, positive, rfl⟩ | ⟨k, known, rfl⟩ |
    ⟨i, call, limiter, limiter', phase, there, held, moved, rfl⟩
  · exact ⟨(Limits.Grows.refl sys).limiters, (Limits.Grows.refl sys).acquires⟩
  · refine ⟨?_, (Limits.Grows.refl sys).acquires⟩
    intro k limiter held
    exact ⟨limiter, getElem?_concat_old held, rfl⟩
  · refine ⟨(Limits.Grows.refl sys).limiters, ?_⟩
    intro i call there
    exact ⟨call, getElem?_concat_old there, rfl, rfl, fun _ _ phase => phase⟩
  · refine ⟨?_, ?_⟩
    · intro k old here
      obtain ⟨now, found, interval, -⟩ := put_limiter held moved.limiter here i phase
      exact ⟨now, found, interval⟩
    · intro j old here
      by_cases same : i = j
      · subst same
        rw [there] at here
        cases here
        refine ⟨{ call with phase := phase }, getElem?_set_here there _, rfl, rfl, ?_⟩
        intro round time returned
        rw [returned] at moved
        cases moved
      · exact ⟨old, (List.getElem?_set_ne same).trans here, rfl, rfl, fun _ _ phase => phase⟩

/-! ## What a step can do -/

/-- How a config of a call goes out: without a limiter, or with its acquire. -/
inductive Goes (limits : Limits) (caller : Caller Rate) : Dispatched → Prop
  | unpaced {c : Nat} (unlimited : caller.limiter = none) :
      Goes limits caller ⟨c, none, limits.clock, limits.clock⟩
  | paced {c k i : Nat} {call : Acquire} {round : Round} {time : Nat}
      (limited : caller.limiter = some k) (pacing : caller.pacing = some i)
      (there : limits.acquires[i]? = some call) (returned : call.phase = .returned round time) :
      Goes limits caller ⟨c, some i, call.began, time⟩

inductive TrafficStep (arith : RateArith Rate) (sys : Traffic Rate) : Traffic Rate → Prop
  | limits {action : Action} {limits : Limits} (stepped : sys.limits.step action = some limits) :
      TrafficStep arith sys { sys with limits := limits }
  | call {perCall : Option Rate} {configs : Nat} :
      TrafficStep arith sys (sys.enter arith perCall configs)
  | pace {c k : Nat} {caller : Caller Rate} {limits : Limits} (there : sys.callers[c]? = some caller)
      (limited : caller.limiter = some k) (stepped : sys.limits.step (.acquire k) = some limits) :
      TrafficStep arith sys
        { sys with
          limits := limits
          callers := sys.callers.set c { caller with pacing := some sys.limits.acquires.length } }
  | dispatch {c : Nat} {caller : Caller Rate} {dispatch : Dispatched}
      (there : sys.callers[c]? = some caller) (same : dispatch.caller = c)
      (goes : Goes sys.limits caller dispatch) : TrafficStep arith sys (sys.sent c caller dispatch)

theorem traffic_step {arith : RateArith Rate} {sys sys' : Traffic Rate}
    {action : TrafficAction Rate} (stepped : sys.step arith action = some sys') :
    TrafficStep arith sys sys' := by
  cases action with
  | limits action =>
      simp only [Traffic.step] at stepped
      split at stepped
      · cases stepped
      · rename_i limits moved
        cases stepped
        exact .limits moved
  | call perCall configs =>
      cases stepped
      exact .call
  | pace c =>
      simp only [Traffic.step] at stepped
      split at stepped
      · cases stepped
      · rename_i caller there
        unfold Traffic.pace at stepped
        split at stepped
        · rename_i k left limited pacing more
          split at stepped
          · cases stepped
          · rename_i limits moved
            cases stepped
            exact .pace there limited moved
        · cases stepped
  | dispatch c =>
      simp only [Traffic.step] at stepped
      split at stepped
      · cases stepped
      · rename_i caller there
        unfold Traffic.dispatch at stepped
        split at stepped
        · rename_i unlimited
          split at stepped
          · cases stepped
          · cases stepped
            exact .dispatch there rfl (.unpaced unlimited)
        · cases stepped
        · rename_i k i limited pacing
          split at stepped
          · rename_i on began round time found
            cases stepped
            exact .dispatch there rfl (.paced limited pacing found rfl)
          · cases stepped

/-! ## Which limiter a call has -/

/-- The call's own limit is none, or does not ask for a longer period than the shared
interval. -/
def Caller.Tempered (arith : RateArith Rate) (sharedNs : Nat) (caller : Caller Rate) : Prop :=
  ∀ rate, caller.perCall = some rate → ∀ period, arith.periodNs rate = some period →
    period ≤ sharedNs

/-- The shared limiter, or one of the call's own with a longer period. -/
def Caller.Merged (arith : RateArith Rate) (sharedNs : Nat) (limits : Limits)
    (caller : Caller Rate) : Prop :=
  (caller.limiter = some 0 ∧ caller.Tempered arith sharedNs) ∨
    ∃ rate period k limiter, caller.perCall = some rate ∧ arith.periodNs rate = some period ∧
      sharedNs < period ∧ caller.limiter = some (k + 1) ∧
      limits.limiters[k + 1]? = some limiter ∧ limiter.intervalNs = arith.intervalNs rate

theorem Caller.Merged.tempered_iff {arith : RateArith Rate} {sharedNs : Nat} {limits : Limits}
    {caller : Caller Rate} (merged : caller.Merged arith sharedNs limits) :
    caller.limiter = some 0 ↔ caller.Tempered arith sharedNs := by
  rcases merged with ⟨shared, tempered⟩ | ⟨rate, period, k, limiter, own, long, more, at_, -, -⟩
  · exact iff_of_true shared tempered
  · refine iff_of_false ?_ ?_
    · rw [at_]
      intro clash
      cases clash
    · intro tempered
      exact Nat.not_lt.mpr (tempered rate own period long) more

theorem Caller.Merged.grows {arith : RateArith Rate} {sharedNs : Nat} {old new : Limits}
    {caller : Caller Rate} (merged : caller.Merged arith sharedNs old) (grows : old.Grows new) :
    caller.Merged arith sharedNs new := by
  rcases merged with shared | ⟨rate, period, k, limiter, own, long, more, at_, held, interval⟩
  · exact .inl shared
  · obtain ⟨now, found, same⟩ := grows.limiters held
    exact .inr ⟨rate, period, k, now, own, long, more, at_, found, same.trans interval⟩

/-- What all calls and dispatches of a run have to do with the limiters. -/
structure Traffic.Kept (arith : RateArith Rate) (sharedNs : Nat) (sys : Traffic Rate) : Prop where
  shared : ∃ limiter, sys.limits.limiters[0]? = some limiter ∧ limiter.intervalNs = sharedNs
  merged : ∀ {c : Nat} {caller : Caller Rate}, sys.callers[c]? = some caller →
    caller.Merged arith sharedNs sys.limits
  pacing : ∀ {c i : Nat} {caller : Caller Rate}, sys.callers[c]? = some caller →
    caller.pacing = some i → ∃ call, sys.limits.acquires[i]? = some call ∧
      caller.limiter = some call.limiter
  alone : ∀ {c c' i : Nat} {caller caller' : Caller Rate}, sys.callers[c]? = some caller →
    sys.callers[c']? = some caller' → caller.pacing = some i → caller'.pacing = some i → c = c'
  sent : ∀ dispatch ∈ sys.dispatches, ∃ caller i call round,
    sys.callers[dispatch.caller]? = some caller ∧ dispatch.acquire = some i ∧
      sys.limits.acquires[i]? = some call ∧ caller.limiter = some call.limiter ∧
        call.phase = .returned round dispatch.released ∧ dispatch.began = call.began
  fresh : ∀ dispatch ∈ sys.dispatches, ∀ {c i : Nat} {caller : Caller Rate},
    sys.callers[c]? = some caller → caller.pacing = some i → dispatch.acquire ≠ some i
  distinct : (sys.dispatches.map Dispatched.acquire).Nodup

theorem kept_start (arith : RateArith Rate) (sharedNs : Nat) (positive : 0 < sharedNs) :
    (Traffic.start sharedNs positive).Kept arith sharedNs where
  shared := ⟨_, rfl, rfl⟩
  merged := fun there => by cases there
  pacing := fun there => by cases there
  alone := fun there => by cases there
  sent := fun _ there => by cases there
  fresh := fun _ there => by cases there
  distinct := List.nodup_nil

/-- Steps of the limiters alone. -/
theorem Traffic.Kept.grows {arith : RateArith Rate} {sharedNs : Nat} {sys : Traffic Rate}
    (kept : sys.Kept arith sharedNs) {limits : Limits} (grows : sys.limits.Grows limits) :
    Traffic.Kept arith sharedNs { sys with limits := limits } where
  shared := by
    obtain ⟨limiter, held, interval⟩ := kept.shared
    obtain ⟨now, found, same⟩ := grows.limiters held
    exact ⟨now, found, same.trans interval⟩
  merged := fun there => (kept.merged there).grows grows
  pacing := fun there pacing => by
    obtain ⟨call, found, on⟩ := kept.pacing there pacing
    obtain ⟨now, found', same, -⟩ := grows.acquires found
    exact ⟨now, found', on.trans (congrArg some same.symm)⟩
  alone := kept.alone
  sent := fun dispatch there => by
    obtain ⟨caller, i, call, round, from_, used, found, on, returned, began⟩ :=
      kept.sent dispatch there
    obtain ⟨now, found', same, began', stays⟩ := grows.acquires found
    exact ⟨caller, i, now, round, from_, used, found', on.trans (congrArg some same.symm),
      stays round _ returned, began.trans began'.symm⟩
  fresh := kept.fresh
  distinct := kept.distinct

/-- One more call, with no acquire under way. -/
theorem Traffic.Kept.addCaller {arith : RateArith Rate} {sharedNs : Nat} {sys : Traffic Rate}
    (kept : sys.Kept arith sharedNs) {perCall : Option Rate} {limiter : Option Nat} (configs : Nat)
    (merged : Caller.Merged arith sharedNs sys.limits ⟨perCall, limiter, configs, none⟩) :
    (sys.addCaller perCall configs limiter).Kept arith sharedNs where
  shared := kept.shared
  merged := fun there => by
    rcases getElem?_concat_cases there with old | ⟨-, rfl⟩
    · exact kept.merged old
    · exact merged
  pacing := fun there pacing => by
    rcases getElem?_concat_cases there with old | ⟨-, rfl⟩
    · exact kept.pacing old pacing
    · cases pacing
  alone := fun there there' pacing pacing' => by
    rcases getElem?_concat_cases there with old | ⟨-, rfl⟩
    · rcases getElem?_concat_cases there' with old' | ⟨-, rfl⟩
      · exact kept.alone old old' pacing pacing'
      · cases pacing'
    · cases pacing
  sent := fun dispatch there => by
    obtain ⟨caller, i, call, round, from_, rest⟩ := kept.sent dispatch there
    exact ⟨caller, i, call, round, getElem?_concat_old from_, rest⟩
  fresh := by
    intro dispatch sent c i caller there pacing
    rcases getElem?_concat_cases there with old | ⟨-, rfl⟩
    · exact kept.fresh dispatch sent old pacing
    · cases pacing
  distinct := kept.distinct

theorem Traffic.Kept.enter {arith : RateArith Rate} {sharedNs : Nat} {sys : Traffic Rate}
    (kept : sys.Kept arith sharedNs) (perCall : Option Rate) (configs : Nat) :
    (sys.enter arith perCall configs).Kept arith sharedNs := by
  obtain ⟨limiter, held, interval⟩ := kept.shared
  unfold Traffic.enter
  rw [held, Option.map_some, interval]
  cases perCall with
  | none => exact kept.addCaller configs (.inl ⟨rfl, fun rate clash => by cases clash⟩)
  | some rate =>
      simp only [mergeLimiters]
      cases long : arith.periodNs rate with
      | none => exact kept
      | some period =>
          by_cases more : sharedNs < period
          · simp only [more, if_true]
            have made : sys.limits.step
                (.new (arith.intervalNs rate) (arith.positive rate)) = some _ := rfl
            refine (kept.grows (grows_step made)).addCaller configs (.inr ?_)
            obtain ⟨k, length⟩ : ∃ k, sys.limits.limiters.length = k + 1 :=
              Nat.exists_eq_succ_of_ne_zero
                (Nat.ne_of_gt (List.getElem?_eq_some_iff.mp held).1)
            refine ⟨rate, period, k,
              RateLimiter.new (arith.intervalNs rate) (arith.positive rate) sys.limits.clock,
              rfl, long, more, congrArg some length, ?_, rfl⟩
            rw [← length]
            exact List.getElem?_concat_length
          · simp only [more, if_false]
            refine kept.addCaller configs (.inl ⟨rfl, ?_⟩)
            intro rate' same period' long'
            cases same
            rw [long] at long'
            cases long'
            exact Nat.le_of_not_lt more

/-- A caller that keeps its limits keeps its place among them. -/
theorem Traffic.Kept.merged_set {arith : RateArith Rate} {sharedNs : Nat} {sys : Traffic Rate}
    (kept : sys.Kept arith sharedNs) {c c' : Nat} {caller caller' after : Caller Rate}
    (there : sys.callers[c]? = some caller) (limiter : caller'.limiter = caller.limiter)
    (own : caller'.perCall = caller.perCall)
    (held : (sys.callers.set c caller')[c']? = some after) :
    after.Merged arith sharedNs sys.limits := by
  rcases getElem?_set_cases held with ⟨-, rfl⟩ | ⟨-, old⟩
  · have merged := kept.merged there
    unfold Caller.Merged Caller.Tempered at merged ⊢
    rw [limiter, own]
    exact merged
  · exact kept.merged old

/-- What was sent stays the caller's. -/
theorem Traffic.Kept.sent_set {arith : RateArith Rate} {sharedNs : Nat} {sys : Traffic Rate}
    (kept : sys.Kept arith sharedNs) {c : Nat} {caller caller' : Caller Rate}
    (there : sys.callers[c]? = some caller) (limiter : caller'.limiter = caller.limiter) :
    ∀ dispatch ∈ sys.dispatches, ∃ from_ i call round,
      (sys.callers.set c caller')[dispatch.caller]? = some from_ ∧ dispatch.acquire = some i ∧
        sys.limits.acquires[i]? = some call ∧ from_.limiter = some call.limiter ∧
          call.phase = .returned round dispatch.released ∧ dispatch.began = call.began := by
  intro dispatch sent
  obtain ⟨from_, i, call, round, found, used, began, on, rest⟩ := kept.sent dispatch sent
  by_cases same : c = dispatch.caller
  · subst same
    have both := there.symm.trans found
    cases both
    exact ⟨_, i, call, round, getElem?_set_here there _, used, began, limiter.trans on, rest⟩
  · exact ⟨from_, i, call, round, (List.getElem?_set_ne same).trans found, used, began, on, rest⟩

theorem Traffic.Kept.pace {arith : RateArith Rate} {sharedNs : Nat} {sys : Traffic Rate}
    (kept : sys.Kept arith sharedNs) {c k : Nat} {caller : Caller Rate} {limits : Limits}
    (there : sys.callers[c]? = some caller) (limited : caller.limiter = some k)
    (stepped : sys.limits.step (.acquire k) = some limits) :
    Traffic.Kept arith sharedNs
      { sys with
        limits := limits
        callers := sys.callers.set c { caller with pacing := some sys.limits.acquires.length } } := by
  have grown := kept.grows (grows_step stepped)
  have begun : limits.acquires[sys.limits.acquires.length]? = some ⟨k, sys.limits.clock, .looping⟩ := by
    simp only [Limits.step] at stepped
    split at stepped
    · cases stepped
      exact List.getElem?_concat_length
    · cases stepped
  -- an acquire under way before is another one
  have other : ∀ {c' : Nat} {caller' : Caller Rate} {i : Nat}, sys.callers[c']? = some caller' →
      caller'.pacing = some i → i ≠ sys.limits.acquires.length := by
    intro c' caller' i there' pacing same
    obtain ⟨call, found, -⟩ := kept.pacing there' pacing
    exact Nat.ne_of_lt (List.getElem?_eq_some_iff.mp found).1 same
  refine ⟨grown.shared, grown.merged_set there rfl rfl, ?_, ?_, grown.sent_set there rfl, ?_,
    grown.distinct⟩
  · intro c' i caller' there' pacing
    rcases getElem?_set_cases there' with ⟨-, rfl⟩ | ⟨-, old⟩
    · cases pacing
      exact ⟨_, begun, limited⟩
    · exact grown.pacing old pacing
  · intro c₁ c₂ i first second there₁ there₂ pacing₁ pacing₂
    rcases getElem?_set_cases there₁ with ⟨rfl, rfl⟩ | ⟨-, old₁⟩
    · rcases getElem?_set_cases there₂ with ⟨rfl, rfl⟩ | ⟨-, old₂⟩
      · rfl
      · cases pacing₁
        exact absurd rfl (other old₂ pacing₂)
    · rcases getElem?_set_cases there₂ with ⟨rfl, rfl⟩ | ⟨-, old₂⟩
      · cases pacing₂
        exact absurd rfl (other old₁ pacing₁)
      · exact kept.alone old₁ old₂ pacing₁ pacing₂
  · intro dispatch sent c' i caller' there' pacing
    rcases getElem?_set_cases there' with ⟨-, rfl⟩ | ⟨-, old⟩
    · cases pacing
      obtain ⟨from_, i, call, round, -, used, found, -⟩ := kept.sent dispatch sent
      rw [used]
      intro same
      cases same
      exact Nat.lt_irrefl _ (List.getElem?_eq_some_iff.mp found).1
    · exact kept.fresh dispatch sent old pacing

theorem Traffic.Kept.dispatch {arith : RateArith Rate} {sharedNs : Nat} {sys : Traffic Rate}
    (kept : sys.Kept arith sharedNs) {c : Nat} {caller : Caller Rate} {dispatch : Dispatched}
    (there : sys.callers[c]? = some caller) (same : dispatch.caller = c)
    (goes : Goes sys.limits caller dispatch) :
    (sys.sent c caller dispatch).Kept arith sharedNs := by
  cases goes with
  | unpaced unlimited =>
      rcases kept.merged there with ⟨shared, -⟩ | ⟨_, _, _, _, -, -, -, own, -⟩
      · rw [unlimited] at shared
        cases shared
      · rw [unlimited] at own
        cases own
  | @paced here k i call round time limited pacing found returned =>
      cases same
      refine ⟨kept.shared, kept.merged_set there rfl rfl, ?_, ?_, ?_, ?_, ?_⟩
      · intro c' i' caller' there' pacing'
        rcases getElem?_set_cases there' with ⟨-, rfl⟩ | ⟨-, old⟩
        · cases pacing'
        · exact kept.pacing old pacing'
      · intro c₁ c₂ i' first second there₁ there₂ pacing₁ pacing₂
        rcases getElem?_set_cases there₁ with ⟨rfl, rfl⟩ | ⟨-, old₁⟩
        · cases pacing₁
        · rcases getElem?_set_cases there₂ with ⟨rfl, rfl⟩ | ⟨-, old₂⟩
          · cases pacing₂
          · exact kept.alone old₁ old₂ pacing₁ pacing₂
      · intro dispatch sent
        rcases List.mem_append.mp sent with old | new
        · have limited' : { caller with
              configs := caller.configs - 1
              pacing := none }.limiter = caller.limiter := rfl
          exact kept.sent_set there limited' dispatch old
        · cases List.mem_singleton.mp new
          obtain ⟨call', found', on⟩ := kept.pacing there pacing
          cases found.symm.trans found'
          exact ⟨_, i, call, round, getElem?_set_here there _, rfl, found, on, returned, rfl⟩
      · intro dispatch sent c' i' caller' there' pacing'
        rcases getElem?_set_cases there' with ⟨-, rfl⟩ | ⟨other, old⟩
        · cases pacing'
        · rcases List.mem_append.mp sent with before | new
          · exact kept.fresh dispatch before old pacing'
          · cases List.mem_singleton.mp new
            rintro clash
            cases clash
            exact other (kept.alone old there pacing' pacing)
      · show (List.map Dispatched.acquire (sys.dispatches ++ [_])).Nodup
        rw [List.map_append, List.map_singleton]
        apply List.nodup_append.mpr
        refine ⟨kept.distinct, List.nodup_singleton _, ?_⟩
        intro a inA b inB
        obtain ⟨dispatch, sent, rfl⟩ := List.mem_map.mp inA
        rw [List.mem_singleton.mp inB]
        exact kept.fresh dispatch sent there pacing

theorem kept_run {arith : RateArith Rate} {sharedNs : Nat} {positive : 0 < sharedNs}
    {actions : List (TrafficAction Rate)} {sys : Traffic Rate}
    (ran : run (Traffic.step arith) (Traffic.start sharedNs positive) actions = some sys) :
    sys.Kept arith sharedNs := by
  refine run_invariant (motive := Traffic.Kept arith sharedNs)
    (kept_start arith sharedNs positive) ?_ ran
  intro sys sys' action kept stepped
  cases traffic_step stepped with
  | limits moved => exact kept.grows (grows_step moved)
  | call => exact kept.enter _ _
  | pace there limited moved => exact kept.pace there limited moved
  | dispatch there same goes => exact kept.dispatch there same goes

/-- The limiters of a run have run themselves. -/
theorem limits_run {arith : RateArith Rate} {sharedNs : Nat} {positive : 0 < sharedNs}
    {actions : List (TrafficAction Rate)} {sys : Traffic Rate}
    (ran : run (Traffic.step arith) (Traffic.start sharedNs positive) actions = some sys) :
    ∃ steps, run Limits.step Limits.init steps = some sys.limits := by
  refine run_invariant (motive := fun sys : Traffic Rate =>
    ∃ steps, run Limits.step Limits.init steps = some sys.limits) ?_ ?_ ran
  · exact ⟨[.new sharedNs positive], rfl⟩
  · rintro sys sys' action ⟨steps, reached⟩ stepped
    cases traffic_step stepped with
    | @limits action limits moved => exact ⟨steps ++ [action], run_concat.mpr ⟨_, reached, moved⟩⟩
    | @call perCall configs =>
        unfold Traffic.enter
        split
        · exact ⟨steps, reached⟩
        · exact ⟨steps, reached⟩
        · exact ⟨steps, reached⟩
        · rename_i rate _
          exact ⟨steps ++ [.new (arith.intervalNs rate) (arith.positive rate)],
            run_concat.mpr ⟨_, reached, rfl⟩⟩
    | @pace c k caller limits there limited moved =>
        exact ⟨steps ++ [.acquire k], run_concat.mpr ⟨_, reached, moved⟩⟩
    | dispatch there same goes => exact ⟨steps, reached⟩

/-! ## The shared limit -/

/-- The dispatch had a slot of the shared limiter. -/
def Traffic.FromShared (sys : Traffic Rate) (dispatch : Dispatched) : Prop :=
  ∃ i call round, dispatch.acquire = some i ∧ sys.limits.acquires[i]? = some call ∧
    call.limiter = 0 ∧ call.phase = .returned round dispatch.released ∧ dispatch.began = call.began

/-- The call a dispatch belongs to has no tighter limit of its own. -/
def Traffic.FromTempered (arith : RateArith Rate) (sharedNs : Nat) (sys : Traffic Rate)
    (dispatch : Dispatched) : Prop :=
  ∃ caller, sys.callers[dispatch.caller]? = some caller ∧ caller.Tempered arith sharedNs

/-- The dispatches begun at `s` or later and released by `t`. -/
def Traffic.released (sys : Traffic Rate) (s t : Nat) : List Dispatched :=
  sys.dispatches.filter fun dispatch => s ≤ dispatch.began && dispatch.released ≤ t

theorem fromShared_iff {arith : RateArith Rate} {sharedNs : Nat} {sys : Traffic Rate}
    (kept : sys.Kept arith sharedNs) {dispatch : Dispatched} (sent : dispatch ∈ sys.dispatches) :
    sys.FromShared dispatch ↔ sys.FromTempered arith sharedNs dispatch := by
  obtain ⟨caller, i, call, round, from_, used, found, on, returned, began⟩ :=
    kept.sent dispatch sent
  have choice := (kept.merged from_).tempered_iff
  constructor
  · rintro ⟨i', call', round', used', found', shared, -⟩
    cases used.symm.trans used'
    cases found.symm.trans found'
    rw [shared] at on
    exact ⟨caller, from_, choice.mp on⟩
  · rintro ⟨caller', from', tempered⟩
    cases from_.symm.trans from'
    have shared := on.symm.trans (choice.mpr tempered)
    cases call with
    | mk limiter began' phase =>
        cases shared
        exact ⟨i, _, round, used, found, rfl, returned, began⟩

/-- The slot a dispatch had, on this limiter. -/
def Traffic.slot (sys : Traffic Rate) (limiter : RateLimiter) (dispatch : Dispatched) : Nat :=
  ((dispatch.acquire.bind fun i => sys.limits.acquires[i]?).map limiter.slot).getD 0

theorem dispatched_length {arith : RateArith Rate} {sharedNs : Nat} {sys : Traffic Rate}
    (kept : sys.Kept arith sharedNs) (timed : sys.limits.Timed) (spaced : sys.limits.Spaced)
    (shared : ∀ dispatch ∈ sys.dispatches, sys.FromShared dispatch) {limiter : RateLimiter}
    (held : sys.limits.limiters[0]? = some limiter) (room : sys.limits.Unsaturated 0 limiter)
    {s t : Nat} (ordered : s ≤ t) :
    (sys.released s t).length ≤ 1 + (t - s + subMsSkipThresholdNs) / limiter.intervalNs := by
  -- the slot behind a dispatch that is counted
  have slot : ∀ dispatch ∈ sys.released s t, ∃ i round, dispatch.acquire = some i ∧
      sys.limits.Took 0 i round ∧ sys.slot limiter dispatch = limiter.start + round.base ∧
      s ≤ limiter.start + round.base ∧
        limiter.start + round.base < t + subMsSkipThresholdNs := by
    intro dispatch counted
    obtain ⟨sent, window⟩ := List.mem_filter.mp counted
    simp only [Bool.and_eq_true, decide_eq_true_eq] at window
    obtain ⟨i, call, round, used, found, on, returned, began⟩ := shared dispatch sent
    have released : call ∈ sys.limits.released 0 s t := by
      apply List.mem_filter.mpr
      refine ⟨List.mem_of_getElem? found, ?_⟩
      simp only [Bool.and_eq_true, decide_eq_true_eq]
      refine ⟨⟨on, began ▸ window.1⟩, returnedBy_iff.mpr ⟨round, _, returned, window.2⟩⟩
    obtain ⟨round', won, since, near⟩ := released_slot timed held room released
    have won' : call.phase.round = some round := by rw [returned]; rfl
    cases won.symm.trans won'
    refine ⟨i, round, used, ⟨call, found, on, won⟩, ?_, since, near⟩
    simp only [Traffic.slot, used, Option.bind_some, found, Option.map_some, Option.getD_some,
      RateLimiter.slot, won]
  have apart : ((sys.released s t).map (sys.slot limiter)).Pairwise (Apart limiter.intervalNs) := by
    apply List.pairwise_map.mpr
    have distinct := (List.pairwise_map.mp kept.distinct).filter
      (fun dispatch => s ≤ dispatch.began && dispatch.released ≤ t)
    apply distinct.imp_of_mem
    intro a b inA inB other
    obtain ⟨i, ra, usedA, tookA, atA, -⟩ := slot a inA
    obtain ⟨j, rb, usedB, tookB, atB, -⟩ := slot b inB
    have different : i ≠ j := by
      rintro rfl
      exact other (usedA.trans usedB.symm)
    rw [atA, atB]
    rcases took_apart spaced held room different tookA tookB with near | near
    · exact .inl (by omega)
    · exact .inr (by omega)
  have counted := length_le_of_apart (s := s) (w := t - s + subMsSkipThresholdNs)
    limiter.positive apart ?_
  · rw [List.length_map] at counted
    exact counted
  · intro x there
    obtain ⟨dispatch, released, rfl⟩ := List.mem_map.mp there
    obtain ⟨i, round, -, -, here, since, near⟩ := slot dispatch released
    omega

/-- **The shared limit.** In every run of calls on one client with a shared limiter:
every dispatch has a slot of it if and only if no call that dispatches has a per-call
limit with a longer period; all of them then keep its bound together, while it does not
saturate; and a call that leaves it has a limiter of its own with such a period. -/
theorem sharedLimit_iff {arith : RateArith Rate} {sharedNs : Nat} {positive : 0 < sharedNs}
    {actions : List (TrafficAction Rate)} {sys : Traffic Rate}
    (ran : run (Traffic.step arith) (Traffic.start sharedNs positive) actions = some sys) :
    ((∀ dispatch ∈ sys.dispatches, sys.FromShared dispatch) ↔
      ∀ dispatch ∈ sys.dispatches, sys.FromTempered arith sharedNs dispatch) ∧
    ((∀ dispatch ∈ sys.dispatches, sys.FromTempered arith sharedNs dispatch) →
      ∀ limiter, sys.limits.limiters[0]? = some limiter → sys.limits.Unsaturated 0 limiter →
        ∀ s t, s ≤ t → (sys.released s t).length ≤ 1 + (t - s + 1000000) / sharedNs) ∧
    ∀ (c : Nat) (caller : Caller Rate), sys.callers[c]? = some caller →
      caller.Merged arith sharedNs sys.limits := by
  have kept := kept_run ran
  have each : (∀ dispatch ∈ sys.dispatches, sys.FromShared dispatch) ↔
      ∀ dispatch ∈ sys.dispatches, sys.FromTempered arith sharedNs dispatch :=
    forall₂_congr fun dispatch sent => fromShared_iff kept sent
  refine ⟨each, ?_, fun c caller there => kept.merged there⟩
  intro tempered limiter held room s t ordered
  obtain ⟨steps, reached⟩ := limits_run ran
  obtain ⟨limiter', held', interval⟩ := kept.shared
  cases held.symm.trans held'
  have counted := dispatched_length kept (timed_run reached) (spaced_run reached)
    (each.mpr tempered) held room ordered
  rw [interval] at counted
  exact counted

/-! Calls on a client with 10 requests a second. -/

/-- Whole rates, rounded as the doubles of such rates are. -/
def wholeRates : RateArith Nat where
  intervalNs := fun rate => max 1 ((1000000000 + rate / 2) / rate)
  positive := fun _ => Nat.le_max_left _ _
  periodNs := fun rate => some ((1000000000 + rate / 2) / rate)

/-- An acquire that finds its slot free. -/
def freeAcquire (i : Nat) : List (TrafficAction Nat) :=
  [.limits (.load i 0), .limits (.read i), .limits (.exchange i false), .limits (.check i),
    .limits (.resume i)]

/-- A call without a limit and one with 20, a dispatch each. -/
def laxCalls : List (TrafficAction Nat) :=
  .call none 1 :: .call (some 20) 1 :: .pace 0 :: (freeAcquire 0).append
    [.dispatch 0, .pace 1, .limits (.load 1 100000000), .limits (.read 1),
      .limits (.exchange 1 false), .limits (.check 1), .limits (.tick 100000000),
      .limits (.resume 1), .dispatch 1]

theorem tenth_positive : 0 < 100000000 := by decide

def laxTraffic : Traffic Nat :=
  (run (Traffic.step wholeRates) (Traffic.start 100000000 tenth_positive) laxCalls).getD
    (Traffic.start 100000000 tenth_positive)

theorem sharedLimit_iff_lax :
    laxTraffic.dispatches.length = 2 ∧
      ((∀ dispatch ∈ laxTraffic.dispatches, laxTraffic.FromShared dispatch) ↔
        ∀ dispatch ∈ laxTraffic.dispatches,
          laxTraffic.FromTempered wholeRates 100000000 dispatch) := by
  have limits := @sharedLimit_iff Nat wholeRates 100000000 tenth_positive laxCalls laxTraffic (by rfl)
  exact ⟨by rfl, limits.1⟩

/-- Two calls with 9 requests a second each. -/
def tightCalls : List (TrafficAction Nat) :=
  .call (some 9) 1 :: .call (some 9) 1 :: .pace 0 :: .pace 1 ::
    (freeAcquire 0).append ((freeAcquire 1).append [.dispatch 0, .dispatch 1])

def tightTraffic : Traffic Nat :=
  (run (Traffic.step wholeRates) (Traffic.start 100000000 tenth_positive) tightCalls).getD
    (Traffic.start 100000000 tenth_positive)

/-- Both go out at once, and neither has a slot of the shared limiter. -/
theorem tight_calls_breach :
    run (Traffic.step wholeRates) (Traffic.start 100000000 tenth_positive) tightCalls =
        some tightTraffic ∧
      (tightTraffic.released 0 0).length = 2 ∧
      ¬ (tightTraffic.released 0 0).length ≤ 1 + (0 - 0 + 1000000) / 100000000 ∧
      ∀ dispatch ∈ tightTraffic.dispatches, ¬ tightTraffic.FromShared dispatch := by
  refine ⟨by rfl, by rfl, by decide, ?_⟩
  have sent : tightTraffic.dispatches = [⟨0, some 0, 0, 0⟩, ⟨1, some 1, 0, 0⟩] := by rfl
  have calls : tightTraffic.limits.acquires =
      [⟨1, 0, .returned ⟨0, 0⟩ 0⟩, ⟨2, 0, .returned ⟨0, 0⟩ 0⟩] := by rfl
  rw [sent]
  rintro dispatch there ⟨i, call, round, used, found, on, -⟩
  rw [calls] at found
  simp only [List.mem_cons, List.not_mem_nil, or_false] at there
  rcases there with rfl | rfl
  · cases used
    cases found
    cases on
  · cases used
    cases found
    cases on

end Blasthttp.Batch
