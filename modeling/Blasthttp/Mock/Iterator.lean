/-
# Blasthttp.Mock.Iterator -- calls of a mock iterator at the same time

`__anext__` of `MockBatchIterator` takes the lock for one look at a time and lets go of it
in between, so any number of calls can be on their way through the same iterator.
`Iterating` is one iterator with its calls, each at the points where another may come in
between.

No entry is dispatched twice and no result of the passthrough is lost or returned twice
(`mock_anext_conserves`); a call alone is the `anext` of `Mock.Batch` (`anext_alone`).
-/
import Mathlib.Algebra.BigOperators.Group.List.Basic
import Mathlib.Data.Multiset.Basic
import Blasthttp.Lib.Places
import Blasthttp.Lib.Runs
import Blasthttp.Mock.Batch

namespace Blasthttp.Mock

open Blasthttp.Rust Blasthttp.Client Blasthttp.Lib.Places
open Blasthttp.Lib.Runs (run_invariant run_append)

set_option autoImplicit false

/-! ## The calls -/

/-- Where a call of `__anext__` is. -/
inductive AnextStage where
  /-- At the top of the loop. -/
  | looking
  /-- Nothing was buffered. -/
  | taking
  /-- No entry was pending. -/
  | choosing
  | dispatching (entry : Request)
  /-- The passthrough's own `__anext__` is called and awaited. -/
  | pulling
  /-- It has brought a list, whose rest is to be buffered. -/
  | buffering (first : BatchResult) (rest : List BatchResult)
  | stopping
  | yielded (item : BatchResult)
  | mocked (entry : Request) (outcome : Except PyErr Response)
  | failed (e : PyErr)
  | stopped
  /-- Its caller cancelled it, maybe while an entry was dispatched. -/
  | dropped (entry : Option Request)

/-- What a call that is over has come to. -/
def AnextStage.result? : AnextStage → Option (Except PyErr BatchResult)
  | .yielded item => some (.ok item)
  | .mocked entry outcome => some (.ok (batchResult entry.url outcome))
  | .failed e => some (.error e)
  | .stopped => some (.error endOfStream)
  | _ => none

/-- An iterator, the results its passthrough has brought, whether that has said that it is at
its end, and the calls in the order they were made. -/
structure Iterating where
  shared : MockBatchIterState
  received : List BatchResult
  ended : Bool
  calls : List AnextStage

def Iterating.start (it : MockBatchIterState) : Iterating := ⟨it, it.buffered, false, []⟩

inductive IteratingAction where
  | anext
  | look (i : Nat)
  | take (i : Nat)
  | choose (i : Nat)
  | dispatched (i : Nat) (outcome : Except PyErr Response)
  | answered (i : Nat) (pulled : Pulled)
  | extend (i : Nat)
  | stop (i : Nat)
  | drop (i : Nat)

def Iterating.put (s : Iterating) (i : Nat) (stage : AnextStage) : Iterating :=
  { s with calls := s.calls.set i stage }

/-- The pull of call `i` is answered. -/
def Iterating.answer (s : Iterating) (i : Nat) : Pulled → Iterating
  | .refused e => { s with ended := s.ended || e.isStop }.put i (.failed e)
  | .raised e =>
      if e.isStop then { s with ended := true }.put i .stopping else s.put i (.failed e)
  | .single item => { s with received := s.received ++ [item] }.put i (.yielded item)
  | .list [] => s.put i .looking
  | .list (first :: rest) =>
      { s with received := s.received ++ first :: rest }.put i (.buffering first rest)

def Iterating.step (s : Iterating) : IteratingAction → Option Iterating
  | .anext => some { s with calls := s.calls ++ [.looking] }
  | .look i =>
      match s.calls[i]? with
      | some .looking =>
          match s.shared.buffered with
          | item :: rest =>
              some ({ s with shared := { s.shared with buffered := rest } }.put i (.yielded item))
          | [] => some (s.put i .taking)
      | _ => none
  | .take i =>
      match s.calls[i]? with
      | some .taking =>
          match s.shared.pendingMocks with
          | entry :: rest =>
              some ({ s with shared := { s.shared with pendingMocks := rest } }.put i
                (.dispatching entry))
          | [] => some (s.put i .choosing)
      | _ => none
  | .choose i =>
      match s.calls[i]? with
      | some .choosing =>
          match s.shared.source with
          | some _ =>
              some ({ s with shared := { s.shared with pulled := s.shared.pulled + 1 } }.put i
                .pulling)
          | none => some (s.put i .stopping)
      | _ => none
  | .dispatched i outcome =>
      match s.calls[i]? with
      | some (.dispatching entry) => some (s.put i (.mocked entry outcome))
      | _ => none
  | .answered i pulled =>
      match s.calls[i]? with
      | some .pulling => some (s.answer i pulled)
      | _ => none
  | .extend i =>
      match s.calls[i]? with
      | some (.buffering first rest) =>
          some ({ s with shared := { s.shared with buffered := s.shared.buffered ++ rest } }.put i
            (.yielded first))
      | _ => none
  | .stop i =>
      match s.calls[i]? with
      | some .stopping =>
          some ({ s with shared := { s.shared with exhausted := true } }.put i .stopped)
      | _ => none
  | .drop i =>
      match s.calls[i]? with
      | some (.dispatching entry) => some (s.put i (.dropped (some entry)))
      | some .pulling => some (s.put i (.dropped none))
      | _ => none

/-! ## What a step does -/

/-- The ways a step goes. -/
inductive IteratingStep (s : Iterating) : Iterating → Prop where
  | anext : IteratingStep s { s with calls := s.calls ++ [.looking] }
  | buffered {i : Nat} {item : BatchResult} {rest : List BatchResult}
      (here : s.calls[i]? = some .looking) (first : s.shared.buffered = item :: rest) :
      IteratingStep s
        ({ s with shared := { s.shared with buffered := rest } }.put i (.yielded item))
  | unbuffered {i : Nat} (here : s.calls[i]? = some .looking) :
      IteratingStep s (s.put i .taking)
  | taken {i : Nat} {entry : Request} {rest : List Request} (here : s.calls[i]? = some .taking)
      (first : s.shared.pendingMocks = entry :: rest) :
      IteratingStep s
        ({ s with shared := { s.shared with pendingMocks := rest } }.put i (.dispatching entry))
  | none_pending {i : Nat} (here : s.calls[i]? = some .taking)
      (nothing : s.shared.pendingMocks = []) : IteratingStep s (s.put i .choosing)
  | pulls {i : Nat} (here : s.calls[i]? = some .choosing) :
      IteratingStep s
        ({ s with shared := { s.shared with pulled := s.shared.pulled + 1 } }.put i .pulling)
  | no_source {i : Nat} (here : s.calls[i]? = some .choosing) (nothing : s.shared.source = none) :
      IteratingStep s (s.put i .stopping)
  | mocked {i : Nat} {entry : Request} {outcome : Except PyErr Response}
      (here : s.calls[i]? = some (.dispatching entry)) :
      IteratingStep s (s.put i (.mocked entry outcome))
  | failed {i : Nat} {e : PyErr} (here : s.calls[i]? = some .pulling) :
      IteratingStep s ({ s with ended := s.ended || e.isStop }.put i (.failed e))
  | ended {i : Nat} (here : s.calls[i]? = some .pulling) :
      IteratingStep s ({ s with ended := true }.put i .stopping)
  | single {i : Nat} {item : BatchResult} (here : s.calls[i]? = some .pulling) :
      IteratingStep s ({ s with received := s.received ++ [item] }.put i (.yielded item))
  | again {i : Nat} (here : s.calls[i]? = some .pulling) : IteratingStep s (s.put i .looking)
  | list {i : Nat} {first : BatchResult} {rest : List BatchResult}
      (here : s.calls[i]? = some .pulling) :
      IteratingStep s
        ({ s with received := s.received ++ first :: rest }.put i (.buffering first rest))
  | extended {i : Nat} {first : BatchResult} {rest : List BatchResult}
      (here : s.calls[i]? = some (.buffering first rest)) :
      IteratingStep s
        ({ s with shared := { s.shared with buffered := s.shared.buffered ++ rest } }.put i
          (.yielded first))
  | stopped {i : Nat} (here : s.calls[i]? = some .stopping) :
      IteratingStep s
        ({ s with shared := { s.shared with exhausted := true } }.put i .stopped)
  | dispatch_dropped {i : Nat} {entry : Request} (here : s.calls[i]? = some (.dispatching entry)) :
      IteratingStep s (s.put i (.dropped (some entry)))
  | pull_dropped {i : Nat} (here : s.calls[i]? = some .pulling) :
      IteratingStep s (s.put i (.dropped none))

theorem answer_step {s : Iterating} {i : Nat} (here : s.calls[i]? = some .pulling) (pulled : Pulled) :
    IteratingStep s (s.answer i pulled) := by
  cases pulled with
  | refused e => exact .failed here
  | raised e =>
      simp only [Iterating.answer]
      split
      · exact .ended here
      · rename_i other
        have same : { s with ended := s.ended || e.isStop } = s := by
          rw [Bool.eq_false_iff.mpr other, Bool.or_false]
        have step := IteratingStep.failed (e := e) here
        rwa [same] at step
  | single item => exact .single here
  | list items =>
      cases items with
      | nil => exact .again here
      | cons first rest => exact .list here

theorem iterating_step {s t : Iterating} {a : IteratingAction} (stepped : s.step a = some t) :
    IteratingStep s t := by
  unfold Iterating.step at stepped
  split at stepped
  · cases stepped
    exact .anext
  · split at stepped
    · rename_i here
      split at stepped
      · rename_i first
        cases stepped
        exact .buffered here first
      · cases stepped
        exact .unbuffered here
    · cases stepped
  · split at stepped
    · rename_i here
      split at stepped
      · rename_i first
        cases stepped
        exact .taken here first
      · rename_i nothing
        cases stepped
        exact .none_pending here nothing
    · cases stepped
  · split at stepped
    · rename_i here
      split at stepped
      · cases stepped
        exact .pulls here
      · rename_i nothing
        cases stepped
        exact .no_source here nothing
    · cases stepped
  · split at stepped
    · rename_i here
      cases stepped
      exact .mocked here
    · cases stepped
  · split at stepped
    · rename_i here
      cases stepped
      exact answer_step here _
    · cases stepped
  · split at stepped
    · rename_i here
      cases stepped
      exact .extended here
    · cases stepped
  · split at stepped
    · rename_i here
      cases stepped
      exact .stopped here
    · cases stepped
  · split at stepped
    · rename_i here
      cases stepped
      exact .dispatch_dropped here
    · rename_i here
      cases stepped
      exact .pull_dropped here
    · cases stepped

/-! ## Nothing is lost -/

/-- The entry a call has taken. -/
def AnextStage.entry : AnextStage → Multiset Request
  | .dispatching entry => {entry}
  | .mocked entry _ => {entry}
  | .dropped (some entry) => {entry}
  | _ => 0

/-- The results of the passthrough that a call returns or still has in hand. -/
def AnextStage.items : AnextStage → Multiset BatchResult
  | .yielded item => {item}
  | .buffering first rest => ↑(first :: rest)
  | _ => 0

/-- The books of an iterator: each entry is pending or with one call, each result is buffered
or with one call. -/
structure Iterating.Balanced (entries : List Request) (s : Iterating) : Prop where
  mocks : (entries : Multiset Request) =
    s.shared.pendingMocks + (s.calls.map AnextStage.entry).sum
  items : (s.received : Multiset BatchResult) =
    s.shared.buffered + (s.calls.map AnextStage.items).sum

theorem balanced_start (it : MockBatchIterState) :
    (Iterating.start it).Balanced it.pendingMocks where
  mocks := (add_zero _).symm
  items := (add_zero _).symm

section Balance

variable {entries : List Request} {s t : Iterating} {i : Nat} {before after : AnextStage}

/-- A call moves on: what it has more is what is pending, buffered or not received less. -/
theorem Iterating.Balanced.put (balanced : s.Balanced entries) (here : s.calls[i]? = some before)
    {gain : List BatchResult} (calls : t.calls = s.calls.set i after)
    (received : t.received = s.received ++ gain)
    (mocks : (s.shared.pendingMocks : Multiset Request) + before.entry =
      t.shared.pendingMocks + after.entry)
    (items : (gain : Multiset BatchResult) + (s.shared.buffered + before.items) =
      t.shared.buffered + after.items) :
    t.Balanced entries where
  mocks := by
    rw [← zero_add ((s.shared.pendingMocks : Multiset Request) + _)] at mocks
    rw [calls, ← sum_set_balance balanced.mocks here mocks, add_zero]
  items := by
    rw [calls, received, ← sum_set_balance balanced.items here items, Multiset.coe_add]

/-- A call moves on with what it has, and with it the lists stay as they are. -/
theorem Iterating.Balanced.same (balanced : s.Balanced entries) (here : s.calls[i]? = some before)
    (entry : after.entry = before.entry) (items : after.items = before.items) :
    (s.put i after).Balanced entries :=
  balanced.put here rfl (List.append_nil _).symm (by rw [entry]; rfl)
    (by rw [items, Multiset.coe_nil, zero_add]; rfl)

theorem balanced_step (balanced : s.Balanced entries) (stepped : IteratingStep s t) :
    t.Balanced entries := by
  cases stepped with
  | anext =>
      refine ⟨?_, ?_⟩
      · simpa [AnextStage.entry] using balanced.mocks
      · simpa [AnextStage.items] using balanced.items
  | @buffered i item rest here first =>
      refine balanced.put here rfl (List.append_nil _).symm rfl ?_
      rw [first, ← Multiset.cons_coe, ← Multiset.singleton_add]
      simp only [AnextStage.items, Multiset.coe_nil, Iterating.put]
      abel
  | unbuffered here => exact balanced.same here rfl rfl
  | @taken i entry rest here first =>
      refine balanced.put here rfl (List.append_nil _).symm ?_ ?_
      · rw [first, ← Multiset.cons_coe, ← Multiset.singleton_add]
        simp only [AnextStage.entry, Iterating.put]
        abel
      · rw [Multiset.coe_nil, zero_add]
        rfl
  | none_pending here nothing => exact balanced.same here rfl rfl
  | pulls here =>
      refine balanced.put here rfl (List.append_nil _).symm rfl ?_
      rw [Multiset.coe_nil, zero_add]
      rfl
  | no_source here nothing => exact balanced.same here rfl rfl
  | mocked here => exact balanced.same here rfl rfl
  | failed here =>
      refine balanced.put here rfl (List.append_nil _).symm rfl ?_
      rw [Multiset.coe_nil, zero_add]
      rfl
  | ended here =>
      refine balanced.put here rfl (List.append_nil _).symm rfl ?_
      rw [Multiset.coe_nil, zero_add]
      rfl
  | @single i item here =>
      refine balanced.put here rfl rfl rfl ?_
      simp only [AnextStage.items, Multiset.coe_singleton, Iterating.put]
      abel
  | again here => exact balanced.same here rfl rfl
  | @list i first rest here =>
      refine balanced.put here rfl rfl rfl ?_
      simp only [AnextStage.items, Iterating.put]
      abel
  | @extended i first rest here =>
      refine balanced.put here rfl (List.append_nil _).symm rfl ?_
      simp only [AnextStage.items, Multiset.coe_nil, Iterating.put, ← Multiset.coe_add,
        ← Multiset.cons_coe, ← Multiset.singleton_add]
      abel
  | stopped here =>
      refine balanced.put here rfl (List.append_nil _).symm rfl ?_
      rw [Multiset.coe_nil, zero_add]
      rfl
  | dispatch_dropped here => exact balanced.same here rfl rfl
  | pull_dropped here => exact balanced.same here rfl rfl

end Balance

/-! ## Who stops -/

/-- The call has found no entry pending. -/
def AnextStage.pastMocks : AnextStage → Bool
  | .choosing => true
  | .pulling => true
  | .buffering _ _ => true
  | .stopping => true
  | .stopped => true
  | .failed _ => true
  | _ => false

/-- The call has found the end, or been told of it. -/
def AnextStage.atEnd : AnextStage → Bool
  | .stopping => true
  | .stopped => true
  | .failed e => e.isStop
  | _ => false

/-- A call that ends its caller's loop has found the end. -/
theorem atEnd_of_result {stage : AnextStage} {e : PyErr} (is : stage.result? = some (.error e))
    (stop : e.isStop = true) : stage.pastMocks = true ∧ stage.atEnd = true := by
  cases stage with
  | failed e' =>
      cases is
      exact ⟨rfl, stop⟩
  | stopped => exact ⟨rfl, rfl⟩
  | _ => cases is

/-- What calls have found stays so. -/
structure Iterating.Found (s : Iterating) : Prop where
  past : ∀ stage ∈ s.calls, stage.pastMocks = true → s.shared.pendingMocks = []
  exhausted : s.shared.exhausted = true → s.shared.passthroughIter = none ∨ s.ended = true
  atEnd : ∀ stage ∈ s.calls, stage.atEnd = true →
    s.shared.passthroughIter = none ∨ s.ended = true

section Found

variable {s t : Iterating} {i : Nat} {before after : AnextStage}

/-- A call moves on with what it has found itself. -/
theorem Iterating.Found.put (found : s.Found) (calls : t.calls = s.calls.set i after)
    (iter : t.shared.passthroughIter = s.shared.passthroughIter)
    (pending : s.shared.pendingMocks = [] → t.shared.pendingMocks = [])
    (ended : s.ended = true → t.ended = true)
    (past : after.pastMocks = true → t.shared.pendingMocks = [])
    (exhausted : t.shared.exhausted = true →
      s.shared.exhausted = true ∨ s.shared.passthroughIter = none ∨ t.ended = true)
    (atEnd : after.atEnd = true →
      s.shared.exhausted = true ∨ s.shared.passthroughIter = none ∨ t.ended = true) :
    t.Found := by
  have final : s.shared.exhausted = true ∨ s.shared.passthroughIter = none ∨ t.ended = true →
      t.shared.passthroughIter = none ∨ t.ended = true := by
    rw [iter]
    rintro (before | end_)
    · exact (found.exhausted before).imp_right ended
    · exact end_
  refine ⟨?_, fun now => final (exhausted now), ?_⟩
  · intro stage there passed
    rw [calls] at there
    rcases List.mem_or_eq_of_mem_set there with old | rfl
    · exact pending (found.past stage old passed)
    · exact past passed
  · intro stage there ends
    rw [calls] at there
    rcases List.mem_or_eq_of_mem_set there with old | rfl
    · rw [iter]
      exact (found.atEnd stage old ends).imp_right ended
    · exact final (atEnd ends)

theorem found_step (found : s.Found) (stepped : IteratingStep s t) : t.Found := by
  have past : ∀ {i : Nat} {stage : AnextStage}, s.calls[i]? = some stage →
      stage.pastMocks = true → s.shared.pendingMocks = [] := fun here passed =>
    found.past _ (List.mem_of_getElem? here) passed
  cases stepped with
  | anext =>
      refine ⟨?_, found.exhausted, ?_⟩
      · intro stage there passed
        rcases List.mem_append.mp there with old | new
        · exact found.past stage old passed
        · cases List.mem_singleton.mp new
          cases passed
      · intro stage there ends
        rcases List.mem_append.mp there with old | new
        · exact found.atEnd stage old ends
        · cases List.mem_singleton.mp new
          cases ends
  | buffered here first => exact found.put rfl rfl id id nofun .inl nofun
  | unbuffered here => exact found.put rfl rfl id id nofun .inl nofun
  | taken here first =>
      refine found.put rfl rfl ?_ id nofun .inl nofun
      intro nothing
      rw [first] at nothing
      cases nothing
  | none_pending here nothing =>
      exact found.put rfl rfl id id (fun _ => nothing) .inl nofun
  | pulls here =>
      exact found.put rfl rfl id id (fun _ => past here rfl) .inl nofun
  | no_source here nothing =>
      refine found.put rfl rfl id id (fun _ => past here rfl) .inl fun _ => ?_
      unfold MockBatchIterState.source at nothing
      split at nothing
      · rename_i exhausted
        exact .inl exhausted
      · exact .inr (.inl nothing)
  | mocked here => exact found.put rfl rfl id id nofun .inl nofun
  | @failed i e here =>
      refine found.put rfl rfl id ?_ (fun _ => past here rfl) .inl ?_
      · intro was
        show (s.ended || e.isStop) = true
        rw [was, Bool.true_or]
      · intro (told : e.isStop = true)
        refine .inr (.inr ?_)
        show (s.ended || e.isStop) = true
        rw [told, Bool.or_true]
  | ended here =>
      exact found.put rfl rfl id (fun _ => rfl) (fun _ => past here rfl) .inl
        fun _ => .inr (.inr rfl)
  | single here => exact found.put rfl rfl id id nofun .inl nofun
  | again here => exact found.put rfl rfl id id nofun .inl nofun
  | list here =>
      exact found.put rfl rfl id id (fun _ => past here rfl) .inl nofun
  | extended here => exact found.put rfl rfl id id nofun .inl nofun
  | stopped here =>
      have over_ := found.atEnd _ (List.mem_of_getElem? here) rfl
      exact found.put rfl rfl id id (fun _ => past here rfl) (fun _ => .inr over_)
        fun _ => .inr over_
  | dispatch_dropped here => exact found.put rfl rfl id id nofun .inl nofun
  | pull_dropped here => exact found.put rfl rfl id id nofun .inl nofun

end Found

theorem iter_step {s t : Iterating} (stepped : IteratingStep s t) :
    t.shared.passthroughIter = s.shared.passthroughIter := by
  cases stepped with
  | _ => rfl

/-- A stream that has just been opened. -/
theorem opened_fresh {world : World} {mock : BlasthttpMock} {configs : List Config}
    {kwargs : BatchKwargs} {it : MockBatchIterState}
    (opened : requestBatchStream world mock configs kwargs = .ok it) :
    it.buffered = [] ∧ it.exhausted = false := by
  obtain ⟨⟨entries, passthrough⟩, -, opened⟩ := bind_ok.mp opened
  obtain ⟨iter, -, opened⟩ := bind_ok.mp opened
  cases opened
  exact ⟨rfl, rfl⟩

/-- **No result is lost between calls.**  Whatever calls are made at the same time, and
whichever are cancelled: each entry of the mock is pending or has been taken by one call; and
each result of the passthrough is buffered, in one call's hand, or returned by one call.  A
call ends its caller's loop only when no entry is pending and the passthrough, if there is
one, has said that it is at its end. -/
theorem mock_anext_conserves {world : World} {mock : BlasthttpMock} {configs : List Config}
    {kwargs : BatchKwargs} {it : MockBatchIterState}
    (opened : requestBatchStream world mock configs kwargs = .ok it)
    {actions : List IteratingAction} {s : Iterating}
    (ran : Lib.Runs.run Iterating.step (.start it) actions = some s) :
    (it.pendingMocks : Multiset Request) =
      s.shared.pendingMocks + (s.calls.map AnextStage.entry).sum ∧
    (s.received : Multiset BatchResult) =
      s.shared.buffered + (s.calls.map AnextStage.items).sum ∧
    ∀ (i : Nat) (stage : AnextStage) (e : PyErr), s.calls[i]? = some stage →
      stage.result? = some (.error e) → e.isStop = true →
        s.shared.pendingMocks = [] ∧ (it.passthroughIter = none ∨ s.ended = true) := by
  obtain ⟨-, open_⟩ := opened_fresh opened
  have balanced : s.Balanced it.pendingMocks :=
    run_invariant (motive := Iterating.Balanced it.pendingMocks) (balanced_start it)
      (fun kept stepped => balanced_step kept (iterating_step stepped)) ran
  have fresh : (Iterating.start it).Found := by
    refine ⟨fun _ there _ => absurd there List.not_mem_nil, ?_,
      fun _ there _ => absurd there List.not_mem_nil⟩
    intro exhausted
    rw [show (Iterating.start it).shared.exhausted = false from open_] at exhausted
    cases exhausted
  have found : s.Found :=
    run_invariant (motive := Iterating.Found) fresh
      (fun kept stepped => found_step kept (iterating_step stepped)) ran
  have iter : s.shared.passthroughIter = it.passthroughIter :=
    run_invariant (motive := fun t : Iterating => t.shared.passthroughIter = it.passthroughIter) rfl
      (fun kept stepped => (iter_step (iterating_step stepped)).trans kept) ran
  refine ⟨balanced.mocks, balanced.items, ?_⟩
  intro i stage e here is stop
  have there := List.mem_of_getElem? here
  obtain ⟨past, atEnd⟩ := atEnd_of_result is stop
  rw [← iter]
  exact ⟨found.past _ there past, found.atEnd _ there atEnd⟩

/-- A mock without a client that answers every URL itself. -/
def ownMock : BlasthttpMock where
  realClient := none
  shouldMockFn := none

/-- Its stream for the loopback address. -/
def loopbackStream : MockBatchIterState where
  pendingMocks := [⟨"http://127.0.0.1/".toList, "GET".toList, [], []⟩]
  passthroughIter := none
  pulled := 0
  buffered := []
  exhausted := false

/-- Two calls over it: while the second dispatches its entry, the first finds nothing and stops. -/
def pairedCalls : Iterating where
  shared := { loopbackStream with pendingMocks := [], exhausted := true }
  received := []
  ended := false
  calls := [.stopped, .dispatching ⟨"http://127.0.0.1/".toList, "GET".toList, [], []⟩]

theorem mock_anext_conserves_two :
    requestBatchStream plainWorld ownMock [loopbackConfig] ⟨50, none⟩ = .ok loopbackStream ∧
    ∃ s, Lib.Runs.run Iterating.step (.start loopbackStream)
        [.anext, .anext, .look 0, .look 1, .take 1, .take 0, .choose 0, .stop 0] = some s ∧
      (loopbackStream.pendingMocks : Multiset Request) =
        s.shared.pendingMocks + (s.calls.map AnextStage.entry).sum ∧
      s.shared.pendingMocks = [] := by
  have opened :
      requestBatchStream plainWorld ownMock [loopbackConfig] ⟨50, none⟩ = .ok loopbackStream := rfl
  have ran : Lib.Runs.run Iterating.step (.start loopbackStream)
      [.anext, .anext, .look 0, .look 1, .take 1, .take 0, .choose 0, .stop 0] =
      some pairedCalls := rfl
  have conserved := @mock_anext_conserves _ _ _ _ _ opened
    [.anext, .anext, .look 0, .look 1, .take 1, .take 0, .choose 0, .stop 0] _ ran
  exact ⟨opened, pairedCalls, ran, conserved.1, (conserved.2.2 0 .stopped _ rfl rfl rfl).1⟩

/-! ## A call alone -/

/-- The last call is at `stage` with the iterator as `it`, the others being `others`. -/
def Iterating.LastAt (s : Iterating) (others : List AnextStage) (it : MockBatchIterState)
    (stage : AnextStage) : Prop :=
  s.shared = it ∧ s.calls = others ++ [stage]

/-- The actions lead the last call on. -/
def Leads (s : Iterating) (others : List AnextStage) (it : MockBatchIterState)
    (stage : AnextStage) : Prop :=
  ∃ actions t, Lib.Runs.run Iterating.step s actions = some t ∧ t.LastAt others it stage

section Alone

variable {s t : Iterating} {others : List AnextStage} {it it' : MockBatchIterState}
  {stage stage' : AnextStage}

theorem Iterating.LastAt.leads (at_ : s.LastAt others it stage) : Leads s others it stage :=
  ⟨[], s, rfl, at_⟩

/-- One more action of the last call. -/
theorem Leads.act (leads : Leads s others it stage) {a : IteratingAction}
    (acts : ∀ t : Iterating, t.LastAt others it stage →
      ∃ u, t.step a = some u ∧ u.LastAt others it' stage') : Leads s others it' stage' := by
  obtain ⟨actions, t, ran, at_⟩ := leads
  obtain ⟨u, stepped, next⟩ := acts t at_
  refine ⟨actions ++ [a], u, ?_, next⟩
  exact Lib.Runs.run_concat.mpr ⟨t, ran, stepped⟩

theorem Iterating.LastAt.here (at_ : s.LastAt others it stage) :
    s.calls[others.length]? = some stage := by
  rw [at_.2]
  exact List.getElem?_concat_length

/-- The last call is put to another stage. -/
theorem Iterating.LastAt.put (at_ : s.LastAt others it stage) {t : Iterating}
    (calls : t.calls = s.calls) (stage' : AnextStage) :
    (t.put others.length stage').LastAt others t.shared stage' := by
  refine ⟨rfl, ?_⟩
  show t.calls.set _ _ = _
  rw [calls, at_.2, List.set_append_right _ _ (Nat.le_refl _), Nat.sub_self]
  rfl

theorem Iterating.LastAt.shared (at_ : s.LastAt others it stage) (same : it = it') :
    s.LastAt others it' stage :=
  same ▸ at_

theorem leads_taking (leads : Leads s others it .looking) (nothing : it.buffered = []) :
    Leads s others it .taking := by
  refine leads.act (a := .look others.length) fun t at_ => ?_
  have shared := at_.1
  refine ⟨t.put others.length .taking, ?_, shared ▸ at_.put rfl .taking⟩
  simp only [Iterating.step, at_.here, shared, nothing]

theorem leads_choosing (leads : Leads s others it .looking) (nothing : it.buffered = [])
    (none_ : it.pendingMocks = []) : Leads s others it .choosing := by
  refine (leads_taking leads nothing).act (a := .take others.length) fun t at_ => ?_
  have shared := at_.1
  refine ⟨t.put others.length .choosing, ?_, shared ▸ at_.put rfl .choosing⟩
  simp only [Iterating.step, at_.here, shared, none_]

/-- The call stops. -/
theorem leads_stopped (leads : Leads s others it .stopping) :
    Leads s others { it with exhausted := true } .stopped := by
  refine leads.act (a := .stop others.length) fun t at_ => ?_
  obtain ⟨rfl, -⟩ := id at_
  refine ⟨_, ?_, at_.put (t := { t with shared := { t.shared with exhausted := true } }) rfl .stopped⟩
  simp only [Iterating.step, at_.here]

/-- What the passthrough answers goes where `receive` puts it. -/
theorem leads_received (leads : Leads s others it .pulling) (pulled : Pulled) :
    match it.receive pulled with
    | (it', some result) => ∃ stage, Leads s others it' stage ∧ stage.result? = some result
    | (it', none) => Leads s others it' .looking := by
  have answer : ∀ {it' : MockBatchIterState} {stage : AnextStage},
      (∀ t : Iterating, t.LastAt others it .pulling →
        (t.answer others.length pulled).LastAt others it' stage) → Leads s others it' stage := by
    intro it' stage acts
    refine leads.act (a := .answered others.length pulled) fun t at_ => ⟨_, ?_, acts t at_⟩
    simp only [Iterating.step, at_.here]
  cases pulled with
  | refused e =>
      exact ⟨.failed e, answer fun t at_ =>
        at_.1 ▸ at_.put (t := { t with ended := t.ended || e.isStop }) rfl _, rfl⟩
  | raised e =>
      simp only [MockBatchIterState.receive]
      cases stop : e.isStop with
      | true =>
          refine ⟨.stopped, leads_stopped (answer fun t at_ => ?_), rfl⟩
          simp only [Iterating.answer, stop, if_true]
          exact at_.1 ▸ at_.put (t := { t with ended := true }) rfl _
      | false =>
          refine ⟨.failed e, answer fun t at_ => ?_, rfl⟩
          simp only [Iterating.answer, stop]
          exact at_.1 ▸ at_.put rfl _
  | single item =>
      exact ⟨.yielded item, answer fun t at_ =>
        at_.1 ▸ at_.put (t := { t with received := t.received ++ [item] }) rfl _, rfl⟩
  | list items =>
      cases items with
      | nil => exact answer fun t at_ => at_.1 ▸ at_.put rfl _
      | cons first rest =>
          have bought : Leads s others it (.buffering first rest) := answer fun t at_ =>
            at_.1 ▸ at_.put (t := { t with received := t.received ++ first :: rest }) rfl _
          refine ⟨.yielded first, bought.act (a := .extend others.length) fun t at_ => ?_, rfl⟩
          obtain ⟨rfl, -⟩ := id at_
          refine ⟨_, ?_, at_.put
            (t := { t with shared := { t.shared with buffered := t.shared.buffered ++ rest } })
            rfl (.yielded first)⟩
          simp only [Iterating.step, at_.here]

/-- A round of the loop, taken by a call that nobody disturbs. -/
theorem leads_round (world : World) (session : Session) (leads : Leads s others it .looking) :
    match it.round world session with
    | (it', _, some result) => ∃ stage, Leads s others it' stage ∧ stage.result? = some result
    | (it', _, none) => Leads s others it' .looking := by
  obtain ⟨pendingMocks, passthroughIter, pulled, buffered, exhausted⟩ := it
  cases buffered with
  | cons item rest =>
      refine ⟨.yielded item, leads.act (a := .look others.length) fun t at_ => ?_, rfl⟩
      refine ⟨_, ?_, at_.put (t := { t with shared := { t.shared with buffered := rest } }) rfl
        (.yielded item) |>.shared (by rw [at_.1])⟩
      simp only [Iterating.step, at_.here, at_.1]
  | nil =>
      cases pendingMocks with
      | cons entry rest =>
          have outcome : ∃ session' result, dispatchOne world session entry = (session', result) :=
            ⟨_, _, rfl⟩
          obtain ⟨session', result, dispatched⟩ := outcome
          simp only [MockBatchIterState.round, dispatched]
          have taken : Leads s others ⟨rest, passthroughIter, pulled, [], exhausted⟩
              (.dispatching entry) := by
            refine (leads_taking leads rfl).act (a := .take others.length) fun t at_ => ?_
            refine ⟨_, ?_, at_.put
              (t := { t with shared := { t.shared with pendingMocks := rest } }) rfl
              (.dispatching entry) |>.shared (by rw [at_.1])⟩
            simp only [Iterating.step, at_.here, at_.1]
          refine ⟨.mocked entry result,
            taken.act (a := .dispatched others.length result) fun t at_ => ?_, rfl⟩
          refine ⟨t.put others.length (.mocked entry result), ?_,
            (at_.put rfl (.mocked entry result)).shared at_.1⟩
          simp only [Iterating.step, at_.here]
      | nil =>
          have chosen := leads_choosing leads rfl rfl
          simp only [MockBatchIterState.round]
          cases source : MockBatchIterState.source ⟨[], passthroughIter, pulled, [], exhausted⟩ with
          | none =>
              have stopping : Leads s others ⟨[], passthroughIter, pulled, [], exhausted⟩ .stopping := by
                refine chosen.act (a := .choose others.length) fun t at_ => ?_
                refine ⟨t.put others.length .stopping, ?_, (at_.put rfl .stopping).shared at_.1⟩
                simp only [Iterating.step, at_.here, at_.1, source]
              exact ⟨.stopped, leads_stopped stopping, rfl⟩
          | some stream =>
              have pulling :
                  Leads s others ⟨[], passthroughIter, pulled + 1, [], exhausted⟩ .pulling := by
                refine chosen.act (a := .choose others.length) fun t at_ => ?_
                refine ⟨_, ?_, at_.put
                  (t := { t with shared := { t.shared with pulled := t.shared.pulled + 1 } }) rfl
                  .pulling |>.shared (by rw [at_.1])⟩
                simp only [Iterating.step, at_.here, at_.1, source]
              have received := leads_received pulling (stream pulled)
              simp only [MockBatchIterState.pull]
              generalize MockBatchIterState.receive _ _ = got at received ⊢
              obtain ⟨it', result⟩ := got
              cases result with
              | none => exact received
              | some result => exact received

end Alone

/-- **A call alone is the sequential one.**  Whatever `anext` does with an iterator in any number
of rounds, a call made beside others can do while they stand still. -/
theorem anext_alone {world : World} {rounds : Nat} {it it' : MockBatchIterState}
    {session session' : Session} {result : Except PyErr BatchResult}
    (sequential : it.anext world rounds session = some (it', session', result)) (s : Iterating)
    (same : s.shared = it) :
    ∃ actions t stage, Lib.Runs.run Iterating.step s (.anext :: actions) = some t ∧
      t.shared = it' ∧ t.calls = s.calls ++ [stage] ∧ stage.result? = some result := by
  have called : ∀ (rounds : Nat) {it : MockBatchIterState} {session : Session},
      it.anext world rounds session = some (it', session', result) →
      ∀ t : Iterating, Leads t s.calls it .looking →
        ∃ stage, Leads t s.calls it' stage ∧ stage.result? = some result := by
    intro rounds
    induction rounds with
    | zero => exact fun impossible => by cases impossible
    | succ rounds ih =>
        intro it session sequential t leads
        have round := leads_round world session leads
        rw [MockBatchIterState.anext] at sequential
        generalize it.round world session = got at round sequential
        obtain ⟨next, session'', outcome⟩ := got
        cases outcome with
        | some outcome =>
            cases sequential
            exact round
        | none => exact ih sequential t round
  have fresh : Iterating.LastAt { s with calls := s.calls ++ [.looking] } s.calls it .looking :=
    ⟨same, rfl⟩
  obtain ⟨stage, ⟨actions, t, ran, shared, calls⟩, is⟩ := called rounds sequential _ fresh.leads
  exact ⟨actions, t, stage, ran, shared, calls, is⟩

/-- A passthrough that brings an empty chunk, and then one of two results. -/
def chunkedStream : MockBatchIterState where
  pendingMocks := []
  passthroughIter := some fun n =>
    if n = 0 then .list []
    else
      .list [⟨"http://a/".toList, none, some "down".toList⟩,
        ⟨"http://b/".toList, none, some "slow".toList⟩]
  pulled := 0
  buffered := []
  exhausted := false

/-- A call pulls twice over it, while another waits for the passthrough. -/
theorem anext_alone_chunked :
    ∃ actions t stage,
      Lib.Runs.run Iterating.step ⟨chunkedStream, [], false, [.pulling]⟩ (.anext :: actions) =
        some t ∧
      t.shared =
        { chunkedStream with
          pulled := 2
          buffered := [⟨"http://b/".toList, none, some "slow".toList⟩] } ∧
      t.calls = [.pulling, stage] ∧
      stage.result? = some (.ok ⟨"http://a/".toList, none, some "down".toList⟩) :=
  @anext_alone plainWorld 2 _ _ ⟨.new, 0⟩ _ _ rfl _ rfl

end Blasthttp.Mock
