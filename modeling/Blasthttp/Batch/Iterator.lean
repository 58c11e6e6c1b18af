/-
# Blasthttp.Batch.Iterator -- the streaming batch in Python's hands

`__anext__` takes the iterator's lock and gathers what the stream yields into a batch, until
it has a thousand results, or an item has come 200 ms or more after it began, or the stream
has ended.  The clock is looked at only when an item has come, so a batch that waits is not
flushed by the time alone (`partial_batch_waits`).

Calls made at the same time take turns; each answer of the stream goes to one of them, and
a call that is cancelled loses those it has (`anext_serial`).  Iterated to the end the
batches are what `request_batch` returns, up to the order (`anext_collects`).
-/
import Blasthttp.Batch.SendBatchStream
import Blasthttp.Lib.Guarded

namespace Blasthttp.Batch

open Blasthttp.Rust Blasthttp.Client Blasthttp.Lib.Runs
open Blasthttp.Lib.Guarded (Object Monitor Action Logs)

set_option autoImplicit false

variable {Response : Type}

/-! ## Results as Python sees them -/

structure PyBatchResult (Response : Type) where
  url : Str
  response : Option Response
  error : Option Str

def toPyBatchResult (r : BatchResult Response) : PyBatchResult Response :=
  match r.result with
  | .ok resp => ⟨r.url, some resp, none⟩
  | .error e => ⟨r.url, none, some e.message⟩

/-! ## The iterator -/

/-- What a call of `stream.next()` has answered, and the clock right behind it. -/
structure Answer (Response : Type) where
  moment : Nat
  item : Option (BatchResult Response)

/-- The stream behind the lock, with a clock in milliseconds. -/
structure IteratorStream (Response : Type) where
  stream : SendBatchStream Response
  /-- The first poll has spawned the driver. -/
  polled : Bool
  now : Nat
  /-- All answers so far. -/
  answers : List (Answer Response)

def IteratorStream.fresh (stream : SendBatchStream Response) (now : Nat) : IteratorStream Response :=
  ⟨stream, false, now, []⟩

/-- The locals of an `__anext__` that waits for the next item. -/
structure Gathering (Response : Type) where
  start : Nat
  batch : List (PyBatchResult Response)

inductive AnextOut (Response : Type) where
  | batch (results : List (PyBatchResult Response))
  | stopAsyncIteration

def anextTimeout : Nat := 200

/-- What the driver and its tasks do in the background, and the time that passes. -/
inductive IteratorEvent (Response : Type) where
  | background (action : StreamAction Response)
  | passes (ms : Nat)

def Gathering.full (g : Gathering Response) (now : Nat) : Bool :=
  1000 ≤ g.batch.length || (!g.batch.isEmpty && anextTimeout ≤ now - g.start)

/-- The top of the loop: return the batch, or poll the stream. -/
def Gathering.next (g : Gathering Response) (s : IteratorStream Response) :
    IteratorStream Response × (Gathering Response ⊕ AnextOut Response) :=
  if g.full s.now then (s, .inr (.batch g.batch)) else ({ s with polled := true }, .inl g)

def anextEnter (s : IteratorStream Response) (_ : Unit) :
    IteratorStream Response × (Gathering Response ⊕ AnextOut Response) :=
  Gathering.next ⟨s.now, []⟩ s

/-- `stream.next()` answers, if it has an answer. -/
def anextMove (s : IteratorStream Response) (g : Gathering Response) (_ : Unit) :
    Option (IteratorStream Response × (Gathering Response ⊕ AnextOut Response)) :=
  match s.stream.channel with
  | r :: rest =>
      some (Gathering.next { g with batch := g.batch ++ [toPyBatchResult r] }
        { s with
          stream := { s.stream with
            channel := rest
            yielded := s.stream.yielded ++ [r] }
          answers := s.answers ++ [⟨s.now, some r⟩] })
  | [] =>
      if s.stream.ended then
        some ({ s with answers := s.answers ++ [⟨s.now, none⟩] },
          .inr (if g.batch.isEmpty then .stopAsyncIteration else .batch g.batch))
      else none

/-- The items are for `stream.next()` alone. -/
def iteratorHappen (s : IteratorStream Response) :
    IteratorEvent Response → Option (IteratorStream Response)
  | .background .receive => none
  | .background action =>
      if s.polled then
        match s.stream.step action with
        | some stream => some { s with stream := stream }
        | none => none
      else none
  | .passes ms => some { s with now := s.now + ms }

/-- `PyBatchResultIterator`. -/
def batchResultIterator : Object (IteratorStream Response) Unit (Gathering Response)
    (AnextOut Response) Unit (IteratorEvent Response) where
  enter := anextEnter
  move := anextMove
  happen := iteratorHappen

abbrev IteratorMonitor (Response : Type) :=
  Monitor (IteratorStream Response) Unit (Gathering Response) (AnextOut Response)

abbrev IteratorAction (Response : Type) := Lib.Guarded.Action Unit Unit (IteratorEvent Response)

/-! ## What a call does -/

/-- The ways a call with the lock goes on. -/
inductive AnextMoved (s : IteratorStream Response) (g : Gathering Response) :
    IteratorStream Response → Gathering Response ⊕ AnextOut Response → Prop where
  | gathered {r : BatchResult Response} {stream : SendBatchStream Response}
      (received : s.stream.step .receive = some stream)
      (yielded : stream.yielded = s.stream.yielded ++ [r]) (few : g.batch.length + 1 < 1000)
      (early : s.now < g.start + anextTimeout) :
      AnextMoved s g ⟨stream, true, s.now, s.answers ++ [⟨s.now, some r⟩]⟩
        (.inl ⟨g.start, g.batch ++ [toPyBatchResult r]⟩)
  | filled {r : BatchResult Response} {stream : SendBatchStream Response}
      (received : s.stream.step .receive = some stream)
      (yielded : stream.yielded = s.stream.yielded ++ [r])
      (full : 1000 ≤ g.batch.length + 1 ∨ g.start + anextTimeout ≤ s.now) :
      AnextMoved s g ⟨stream, s.polled, s.now, s.answers ++ [⟨s.now, some r⟩]⟩
        (.inr (.batch (g.batch ++ [toPyBatchResult r])))
  | ended (ended : s.stream.ended = true) :
      AnextMoved s g ⟨s.stream, s.polled, s.now, s.answers ++ [⟨s.now, none⟩]⟩
        (.inr (if g.batch.isEmpty then .stopAsyncIteration else .batch g.batch))

theorem full_iff {g : Gathering Response} {now : Nat} :
    g.full now = true ↔
      1000 ≤ g.batch.length ∨ (g.batch ≠ [] ∧ g.start + anextTimeout ≤ now) := by
  have positive : 0 < anextTimeout := by decide
  simp only [Gathering.full, Bool.or_eq_true, Bool.and_eq_true, decide_eq_true_eq, Bool.not_eq_true',
    List.isEmpty_eq_false_iff]
  refine or_congr_right (and_congr_right fun _ => ?_)
  omega

theorem anextMove_cases {s after : IteratorStream Response} {g : Gathering Response} {m : Unit}
    {stage : Gathering Response ⊕ AnextOut Response} (moved : anextMove s g m = some (after, stage)) :
    AnextMoved s g after stage := by
  unfold anextMove at moved
  split at moved
  · rename_i r rest channel
    have received : s.stream.step .receive = some
        { s.stream with
          channel := rest
          yielded := s.stream.yielded ++ [r] } := by
      simp only [SendBatchStream.step, channel]
    unfold Gathering.next at moved
    have length : (g.batch ++ [toPyBatchResult r]).length = g.batch.length + 1 := by simp
    split at moved
    · rename_i full
      cases moved
      refine .filled received rfl ?_
      rcases full_iff.mp full with many | ⟨-, late⟩
      · exact .inl (length ▸ many)
      · exact .inr late
    · rename_i more
      cases moved
      rw [full_iff, not_or] at more
      obtain ⟨few, early⟩ := more
      refine .gathered received rfl (length ▸ Nat.lt_of_not_le few) ?_
      refine Nat.lt_of_not_le fun late => early ⟨?_, late⟩
      simp
  · split at moved
    · rename_i ended
      cases moved
      exact .ended ended
    · cases moved

/-- Only a `receive` yields. -/
theorem background_yielded {sys stream : SendBatchStream Response} {action : StreamAction Response}
    (background : action ≠ .receive) (stepped : sys.step action = some stream) :
    stream.yielded = sys.yielded := by
  unfold SendBatchStream.step at stepped
  split at stepped
  case h_7 i =>
    split at stepped
    · cases stepped
    · split at stepped
      · cases stepped
      · cases stepped
        rfl
  case h_8 => exact absurd rfl background
  all_goals
    split at stepped
    · cases stepped
      rfl
    · cases stepped

/-- What can happen without a call. -/
inductive IteratorHappened (s : IteratorStream Response) : IteratorStream Response → Prop where
  | background {action : StreamAction Response} {stream : SendBatchStream Response}
      (polled : s.polled = true) (stepped : s.stream.step action = some stream)
      (yielded : stream.yielded = s.stream.yielded) :
      IteratorHappened s { s with stream := stream }
  | passes (ms : Nat) : IteratorHappened s { s with now := s.now + ms }

theorem iteratorHappen_cases {s after : IteratorStream Response} {e : IteratorEvent Response}
    (happened : iteratorHappen s e = some after) : IteratorHappened s after := by
  unfold iteratorHappen at happened
  split at happened
  · cases happened
  · rename_i background
    split at happened
    · rename_i polled
      split at happened
      · rename_i stream stepped
        cases happened
        exact .background polled stepped (background_yielded background stepped)
      · cases happened
    · cases happened
  · cases happened
    exact .passes _

theorem anextEnter_eq (s : IteratorStream Response) (c : Unit) :
    anextEnter s c = ({ s with polled := true }, .inl ⟨s.now, []⟩) := by
  have empty : ¬ (@Gathering.mk Response s.now []).full s.now = true := by
    rw [full_iff]
    simp
  unfold anextEnter Gathering.next
  rw [if_neg empty]

/-! ## The answers of one call -/

/-- The results among the answers. -/
def results (xs : List (Answer Response)) : List (PyBatchResult Response) :=
  (xs.filterMap Answer.item).map toPyBatchResult

/-- The answers to a call that still gathers: fewer than a thousand items, all in time. -/
structure Gathers (g : Gathering Response) (xs : List (Answer Response)) : Prop where
  batch : g.batch = results xs
  few : xs.length < 1000
  items : ∀ x ∈ xs, x.item ≠ none ∧ x.moment < g.start + anextTimeout

/-- How a call can return, by the answers to it. -/
inductive Returned : AnextOut Response → List (Answer Response) → Prop where
  /-- Up to the item that made a thousand, or came too late to wait for more. -/
  | full {g : Gathering Response} {front : List (Answer Response)} {moment : Nat}
      {r : BatchResult Response} (gathers : Gathers g front)
      (flushed : front.length + 1 = 1000 ∨ g.start + anextTimeout ≤ moment) :
      Returned (.batch (results front ++ [toPyBatchResult r])) (front ++ [⟨moment, some r⟩])
  /-- What there was when the stream ended. -/
  | rest {g : Gathering Response} {front : List (Answer Response)} {moment : Nat}
      (gathers : Gathers g front) (some_ : front ≠ []) :
      Returned (.batch (results front)) (front ++ [⟨moment, none⟩])
  /-- The stream had ended already. -/
  | stop (moment : Nat) : Returned .stopAsyncIteration [⟨moment, none⟩]

theorem results_append (xs ys : List (Answer Response)) :
    results (xs ++ ys) = results xs ++ results ys := by
  simp [results]

theorem results_concat (xs : List (Answer Response)) (moment : Nat) (r : BatchResult Response) :
    results (xs ++ [⟨moment, some r⟩]) = results xs ++ [toPyBatchResult r] :=
  results_append xs _

theorem results_length {xs : List (Answer Response)} (items : ∀ x ∈ xs, x.item ≠ none) :
    (results xs).length = xs.length := by
  unfold results
  rw [List.length_map, List.length_filterMap_eq_countP, List.countP_eq_length]
  intro x there
  exact Option.isSome_iff_ne_none.mpr (items x there)

theorem Gathers.length {g : Gathering Response} {xs : List (Answer Response)}
    (gathers : Gathers g xs) : g.batch.length = xs.length := by
  rw [gathers.batch]
  exact results_length fun x there => (gathers.items x there).1

/-- A batch that is returned has its results, between one and a thousand. -/
theorem Returned.batch {out : AnextOut Response} {xs : List (Answer Response)}
    (returned : Returned out xs) {batch : List (PyBatchResult Response)} (is : out = .batch batch) :
    batch = results xs ∧ 1 ≤ batch.length ∧ batch.length ≤ 1000 := by
  cases returned with
  | @full g front moment r gathers flushed =>
      cases is
      have few := gathers.few
      have count := results_length fun x there => (gathers.items x there).1
      refine ⟨(results_concat front moment r).symm, ?_, ?_⟩
      · simp
      · rw [List.length_append, List.length_singleton, count]
        exact few
  | @rest g front moment gathers some_ =>
      cases is
      have few := gathers.few
      have count := results_length fun x there => (gathers.items x there).1
      have more := List.length_pos_of_ne_nil some_
      refine ⟨?_, by omega, by omega⟩
      rw [results_append]
      exact (List.append_nil _).symm
  | stop moment => cases is

theorem logs_answers : Logs (@batchResultIterator Response) IteratorStream.answers
    (fun _ g xs => Gathers g xs) (fun _ out xs => Returned out xs) where
  enter := by
    intro s c after g entered
    change anextEnter s c = _ at entered
    rw [anextEnter_eq] at entered
    cases entered
    exact ⟨[], (List.append_nil _).symm, rfl, Nat.zero_lt_succ _, by simp⟩
  refused := by
    intro s c after out entered
    change anextEnter s c = _ at entered
    rw [anextEnter_eq] at entered
    cases entered
  move := by
    intro s c g m after g' xs moved gathers
    cases anextMove_cases (m := m) moved with
    | @gathered r stream received yielded few early =>
        refine ⟨[⟨s.now, some r⟩], rfl, ?_, ?_, ?_⟩
        · rw [results_concat, gathers.batch]
        · rw [List.length_append, ← gathers.length]
          exact few
        · intro x there
          rcases List.mem_append.mp there with old | new
          · exact gathers.items x old
          · cases List.mem_singleton.mp new
            exact ⟨nofun, early⟩
  finished := by
    intro s c g m after out xs moved gathers
    cases anextMove_cases (m := m) moved with
    | @filled r stream received yielded full =>
        refine ⟨[⟨s.now, some r⟩], rfl, ?_⟩
        rw [gathers.batch]
        refine .full gathers ?_
        have few := gathers.few
        have count := gathers.length
        rcases full with many | late
        · exact .inl (by omega)
        · exact .inr late
    | ended ended =>
        refine ⟨[⟨s.now, none⟩], rfl, ?_⟩
        by_cases empty : xs = []
        · subst empty
          have nothing : g.batch = [] := gathers.batch
          rw [nothing]
          exact .stop s.now
        · have count := gathers.length
          have more := List.length_pos_of_ne_nil empty
          have some_ : g.batch.isEmpty = false := by
            rw [List.isEmpty_eq_false_iff]
            exact List.ne_nil_of_length_pos (by omega)
          rw [some_, gathers.batch]
          exact .rest gathers empty
  happen := by
    intro s e after happened
    cases iteratorHappen_cases happened with
    | background polled stepped yielded => rfl
    | passes ms => rfl

/-! ## The stream behind the answers -/

/-- Nothing happens to a stream that has ended. -/
theorem SendBatchStream.Kept.ended_final {configs : List RequestConfig} {concurrency : Nat}
    {sys stream : SendBatchStream Response} {action : StreamAction Response}
    (kept : sys.Kept configs concurrency) (ended : sys.ended = true)
    (stepped : sys.step action = some stream) : False := by
  have done := (kept.ended ended).2.2
  unfold SendBatchStream.ended at ended
  simp only [Bool.and_eq_true, List.isEmpty_iff] at ended
  obtain ⟨⟨spawned, -⟩, drained⟩ := ended
  have over_ : ∀ {i : Nat} {task : StreamTask Response}, sys.tasks[i]? = some task →
      task.stage.isDone = true := by
    intro i task there
    obtain ⟨ending, stage⟩ := done task (List.mem_of_getElem? there)
    rw [stage]
    rfl
  cases stream_step stepped with
  | paced next =>
      rw [spawned] at next
      cases next
  | acquired ready without free => exact kept.paced ready spawned
  | spawned next held =>
      rw [spawned] at next
      cases next
  | began there stage =>
      have clash := over_ there
      rw [stage] at clash
      cases clash
  | finished there stage =>
      have clash := over_ there
      rw [stage] at clash
      cases clash
  | delivered there stage =>
      have clash := over_ there
      rw [stage] at clash
      cases clash
  | released there leaves =>
      have clash := over_ there
      rw [(leaves_output leaves).2] at clash
      cases clash
  | received first =>
      rw [drained] at first
      cases first

/-- The items answered are what the stream has yielded; nothing is answered behind its end. -/
structure IteratorStream.Kept (configs : List RequestConfig) (concurrency : Nat)
    (s : IteratorStream Response) : Prop where
  stream : s.stream.Kept configs concurrency
  yielded : s.answers.filterMap Answer.item = s.stream.yielded
  ended : ∀ x ∈ s.answers, x.item = none → s.stream.ended = true
  settled : s.answers.Pairwise fun x y => x.item = none → y.item = none

section Kept

variable {configs : List RequestConfig} {concurrency : Nat} {s : IteratorStream Response}

theorem kept_fresh {stream : SendBatchStream Response}
    (started : SendBatchStream.start configs concurrency = some stream) (now : Nat) :
    (IteratorStream.fresh stream now).Kept configs concurrency := by
  refine ⟨kept_stream_start started, ?_, by simp [IteratorStream.fresh], List.Pairwise.nil⟩
  unfold SendBatchStream.start at started
  split at started
  · cases started
  · cases started
    rfl

/-- An item that is answered, while the stream goes on. -/
theorem IteratorStream.Kept.item {stream : SendBatchStream Response} {r : BatchResult Response}
    (kept : s.Kept configs concurrency) (received : s.stream.step .receive = some stream)
    (yielded : stream.yielded = s.stream.yielded ++ [r]) (polled : Bool) :
    IteratorStream.Kept configs concurrency
      ⟨stream, polled, s.now, s.answers ++ [⟨s.now, some r⟩]⟩ := by
  have open_ : ∀ x ∈ s.answers, x.item ≠ none := fun x there none_ =>
    kept.stream.ended_final (kept.ended x there none_) received
  refine ⟨kept_stream_step kept.stream (stream_step received), ?_, ?_, ?_⟩
  · simp only [List.filterMap_append, kept.yielded, yielded]
    rfl
  · intro x there none_
    rcases List.mem_append.mp there with old | new
    · exact absurd none_ (open_ x old)
    · cases List.mem_singleton.mp new
      cases none_
  · refine List.pairwise_append.mpr ⟨kept.settled, List.pairwise_singleton _ _, ?_⟩
    intro x there y new none_
    exact absurd none_ (open_ x there)

/-- The end is answered. -/
theorem IteratorStream.Kept.finish (kept : s.Kept configs concurrency)
    (ended : s.stream.ended = true) :
    IteratorStream.Kept configs concurrency
      ⟨s.stream, s.polled, s.now, s.answers ++ [⟨s.now, none⟩]⟩ := by
  refine ⟨kept.stream, ?_, fun _ _ _ => ended, ?_⟩
  · simp only [List.filterMap_append, kept.yielded]
    exact List.append_nil _
  · refine List.pairwise_append.mpr ⟨kept.settled, List.pairwise_singleton _ _, ?_⟩
    intro x there y new _
    cases List.mem_singleton.mp new
    rfl

theorem iterator_kept {stream : SendBatchStream Response} {now : Nat}
    (started : SendBatchStream.start configs concurrency = some stream)
    {actions : List (IteratorAction Response)} {m : IteratorMonitor Response}
    (ran : run batchResultIterator.step (.opened (.fresh stream now)) actions = some m) :
    m.object.Kept configs concurrency := by
  refine Lib.Guarded.object_invariant (P := IteratorStream.Kept configs concurrency)
    (kept_fresh started now) ?_ ?_ ?_ ran
  · intro o c after stage kept entered
    change anextEnter o c = _ at entered
    rw [anextEnter_eq] at entered
    cases entered
    exact ⟨kept.stream, kept.yielded, kept.ended, kept.settled⟩
  · intro o g m after stage kept moved
    cases anextMove_cases (m := m) moved with
    | gathered received yielded few early => exact kept.item received yielded true
    | filled received yielded full => exact kept.item received yielded o.polled
    | ended ended => exact kept.finish ended
  · intro o e after kept happened
    cases iteratorHappen_cases happened with
    | background polled stepped yielded =>
        refine ⟨kept_stream_step kept.stream (stream_step stepped), ?_, ?_, kept.settled⟩
        · exact kept.yielded.trans yielded.symm
        · intro x there none_
          exact (kept.stream.ended_final (kept.ended x there none_) stepped).elim
    | passes ms => exact ⟨kept.stream, kept.yielded, kept.ended, kept.settled⟩

end Kept

/-! ## Every run -/

/-- The tasks of the batch run, without a call. -/
def inBackground (actions : List (StreamAction Nat)) : List (IteratorAction Nat) :=
  actions.map fun action => .happen (.background action)

/-- The first send is back while the first call waits, 250 ms late; the second panics. -/
def twoAnextFirst : List (IteratorAction Nat) :=
  .call () :: .call () :: .call () :: .enter 0 ::
    inBackground [.pace, .acquire, .spawn, .begin 0, .finish 0 (.returned (.ok 200)), .deliver 0]

def twoAnextLast : List (IteratorAction Nat) := [.move 1 (), .drop 2]

def twoAnextRest : List (IteratorAction Nat) :=
  .happen (.passes 250) :: .move 0 () :: .enter 1 ::
    (inBackground [.release 0, .pace, .acquire, .spawn, .begin 1,
      .finish 1 (.panicked "boom".toList), .release 1] ++ twoAnextLast)

def twoAnext : IteratorMonitor Nat :=
  (run batchResultIterator.step (.opened (.fresh twoStream 0)) (twoAnextFirst ++ twoAnextRest)).getD
    (.opened (.fresh twoStream 0))

/-- The first call has the item at once and waits for more. -/
def twoAnextEarly : IteratorMonitor Nat :=
  (run batchResultIterator.step (.opened (.fresh twoStream 0)) (twoAnextFirst ++ [.move 0 ()])).getD
    (.opened (.fresh twoStream 0))

def twoAnextLate : IteratorMonitor Nat :=
  (run batchResultIterator.step twoAnextEarly
    [.happen (.passes 5000), .happen (.background (.release 0))]).getD twoAnextEarly

section Runs

variable {configs : List RequestConfig} {concurrency now : Nat} {stream : SendBatchStream Response}
  {actions : List (IteratorAction Response)} {s : IteratorMonitor Response}

/-- A call that is answered behind the end of the stream stops. -/
theorem Returned.stops {out : AnextOut Response} {xs : List (Answer Response)}
    (returned : Returned out xs) (behind : ∀ x ∈ xs, x.item = none) :
    out = .stopAsyncIteration := by
  cases returned with
  | full gathers flushed =>
      have last := behind _ (List.mem_append_right _ (List.mem_singleton.mpr rfl))
      cases last
  | rest gathers some_ =>
      obtain ⟨x, front, rfl⟩ := List.exists_cons_of_ne_nil some_
      have first := behind x (List.mem_append_left _ List.mem_cons_self)
      exact absurd first (gathers.items x List.mem_cons_self).1
  | stop moment => rfl

/-- **Calls share out the stream.**  The answers of the stream go to the calls of `__anext__` in
the order in which they take the lock, each to one of them; a call that is over has
returned its own, and only one that is cancelled loses the items it had.  Behind the end
of the stream every call stops. -/
theorem anext_serial (started : SendBatchStream.start configs concurrency = some stream)
    (ran : run batchResultIterator.step (.opened (.fresh stream now)) actions = some s) :
    ∃ part : Nat → List (Answer Response), s.turns.Nodup ∧
      s.object.answers = s.turns.flatMap part ∧
      s.object.answers.filterMap Answer.item = s.object.stream.yielded ∧
      (∀ (i : Nat) out, s.calls[i]? = some ((), .done out) → i ∈ s.turns ∧ Returned out (part i)) ∧
      (∀ (i : Nat), s.calls[i]? = some ((), .dropped) → i ∈ s.turns → ∃ g, Gathers g (part i)) ∧
      s.turns.Pairwise fun i j => ∀ out, (∃ x ∈ part i, x.item = none) →
        s.calls[j]? = some ((), .done out) → out = .stopAsyncIteration := by
  obtain ⟨part, ledger⟩ := Lib.Guarded.ledger_of_run logs_answers ran
  have kept := iterator_kept started ran
  have answers : s.object.answers = s.turns.flatMap part := ledger.log_eq
  have settled := kept.settled
  rw [answers, List.pairwise_flatMap] at settled
  refine ⟨part, ledger.nodup, answers, kept.yielded, ?_, ?_, ?_⟩
  · intro i out here
    exact ledger.entries here
  · intro i here turn
    exact ledger.entries here turn
  · refine settled.2.imp ?_
    rintro i j behind out ⟨x, there, none_⟩ here
    have returned := (ledger.entries here).2
    exact returned.stops fun y mem => behind x there y mem none_

theorem anext_serial_two :
    ∃ part : Nat → List (Answer Nat), twoAnext.turns.Nodup ∧
      twoAnext.object.answers = twoAnext.turns.flatMap part ∧
      twoAnext.object.answers.filterMap Answer.item = twoAnext.object.stream.yielded ∧
      (∀ (i : Nat) out, twoAnext.calls[i]? = some ((), .done out) →
        i ∈ twoAnext.turns ∧ Returned out (part i)) ∧
      (∀ (i : Nat), twoAnext.calls[i]? = some ((), .dropped) → i ∈ twoAnext.turns →
        ∃ g, Gathers g (part i)) ∧
      twoAnext.turns.Pairwise fun i j => ∀ out, (∃ x ∈ part i, x.item = none) →
        twoAnext.calls[j]? = some ((), .done out) → out = .stopAsyncIteration :=
  @anext_serial Nat twoConfigs 1 0 twoStream (twoAnextFirst ++ twoAnextRest) twoAnext (by rfl) (by rfl)

/-- What a call has returned to the loop. -/
def anextReturned (s : IteratorMonitor Response) (i : Nat) : List (PyBatchResult Response) :=
  match s.calls[i]? with
  | some (_, .done (.batch batch)) => batch
  | _ => []

/-- `request_batch` returns the results of `send_batch`. -/
def SendBatch.pyResults (sys : SendBatch Response) : List (PyBatchResult Response) :=
  sys.results.map toPyBatchResult

theorem returned_results {i : Nat} {out : AnextOut Response} {xs : List (Answer Response)}
    (here : s.calls[i]? = some ((), .done out)) (returned : Returned out xs) :
    anextReturned s i = results xs := by
  unfold anextReturned
  rw [here]
  cases out with
  | batch batch => exact (returned.batch rfl).1
  | stopAsyncIteration =>
      cases returned with
      | stop moment => rfl

/-- With no call cancelled, what the calls have returned is what the stream has yielded. -/
theorem returned_yielded (started : SendBatchStream.start configs concurrency = some stream)
    (ran : run batchResultIterator.step (.opened (.fresh stream now)) actions = some s)
    (done : ∀ i ∈ s.turns, ∃ out, s.calls[i]? = some ((), .done out)) :
    s.turns.flatMap (anextReturned s) = s.object.stream.yielded.map toPyBatchResult := by
  obtain ⟨part, ledger⟩ := Lib.Guarded.ledger_of_run logs_answers ran
  have kept := iterator_kept started ran
  have answers : s.object.answers = s.turns.flatMap part := ledger.log_eq
  have each : s.turns.flatMap (anextReturned s) = s.turns.flatMap fun i => results (part i) := by
    rw [List.flatMap_def, List.flatMap_def]
    congr 1
    apply List.map_congr_left
    intro i turn
    obtain ⟨out, here⟩ := done i turn
    exact returned_results here (ledger.entries here).2
  rw [each, ← kept.yielded, answers]
  unfold results
  rw [List.filterMap_flatMap, List.map_flatMap]

/-- A call that stops has met the end of the stream. -/
theorem stopped_ended (started : SendBatchStream.start configs concurrency = some stream)
    (ran : run batchResultIterator.step (.opened (.fresh stream now)) actions = some s) {k : Nat}
    (stopped : s.calls[k]? = some ((), .done .stopAsyncIteration)) :
    s.object.stream.ended = true := by
  obtain ⟨part, ledger⟩ := Lib.Guarded.ledger_of_run logs_answers ran
  have kept := iterator_kept started ran
  have answers : s.object.answers = s.turns.flatMap part := ledger.log_eq
  obtain ⟨turn, returned⟩ := ledger.entries stopped
  generalize mine : part k = xs at returned
  cases returned with
  | stop moment =>
      refine kept.ended ⟨moment, none⟩ ?_ rfl
      rw [answers, List.mem_flatMap]
      exact ⟨k, turn, by rw [mine]; exact List.mem_cons_self⟩

/-- **Streaming loses nothing but panics.**  When a loop over the iterator has come to its end
with no call cancelled, the batches together are what `request_batch` returns in any run
whose sends end in the same way, up to the order, if and only if no send panicked. -/
theorem anext_collects (started : SendBatchStream.start configs concurrency = some stream)
    (ran : run batchResultIterator.step (.opened (.fresh stream now)) actions = some s)
    (done : ∀ i ∈ s.turns, ∃ out, s.calls[i]? = some ((), .done out)) {k : Nat}
    (stopped : s.calls[k]? = some ((), .done .stopAsyncIteration)) {concurrency' : Nat}
    {plainInit plain : SendBatch Response} {plainActions : List (BatchAction Response)}
    (begun : SendBatch.start configs concurrency' = some plainInit)
    (reached : run SendBatch.step plainInit plainActions = some plain)
    (returned : plain.returned = true)
    (same : ∀ i, plain.endingOf i = s.object.stream.endingOf i) :
    ((s.turns.flatMap (anextReturned s)).length = configs.length ∧
      (s.turns.flatMap (anextReturned s)).Perm plain.pyResults) ↔
      ∀ i joinError, s.object.stream.endingOf i ≠ some (.panicked joinError) := by
  have kept := (iterator_kept started ran).stream
  have ended := stopped_ended started ran stopped
  have returns := (kept_sendBatch_run begun reached).returns returned
  rw [returned_yielded started ran done, List.length_map]
  constructor
  · rintro ⟨all, -⟩
    exact kept.no_panic ended all
  · intro fine
    obtain ⟨all, perm⟩ := (kept.yields_iff ended returns same).mpr fine
    exact ⟨all, perm.map _⟩

theorem anext_collects_two :
    ((twoAnext.turns.flatMap (anextReturned twoAnext)).length = twoConfigs.length ∧
      (twoAnext.turns.flatMap (anextReturned twoAnext)).Perm twoEnd.pyResults) ↔
      ∀ i joinError, twoAnext.object.stream.endingOf i ≠ some (.panicked joinError) := by
  have done : ∀ i ∈ twoAnext.turns, ∃ out, twoAnext.calls[i]? = some ((), .done out) := by
    intro i turn
    have turn : i ∈ [0, 1] := turn
    simp only [List.mem_cons, List.not_mem_nil, or_false] at turn
    rcases turn with rfl | rfl
    · exact ⟨_, rfl⟩
    · exact ⟨_, rfl⟩
  have same : ∀ i, twoEnd.endingOf i = twoAnext.object.stream.endingOf i := fun
    | 0 => by rfl
    | 1 => by rfl
    | _ + 2 => by rfl
  exact @anext_collects Nat twoConfigs 1 0 twoStream (twoAnextFirst ++ twoAnextRest) twoAnext (by rfl)
    (by rfl) done 1 (by rfl) 1 twoStart twoEnd twoActions (by rfl) (by rfl) (by rfl) same

/-- What is so of a call with the lock until the stream answers. -/
structure Waits (m : IteratorMonitor Response) (i : Nat) (g : Gathering Response)
    (s : IteratorMonitor Response) : Prop where
  grown : m.object.answers <+: s.object.answers
  waits : s.object.answers = m.object.answers →
    s.calls[i]? = some ((), .holding g) ∨ s.calls[i]? = some ((), .dropped)

theorem Waits.answered {m u t : IteratorMonitor Response} {i : Nat} {g : Gathering Response}
    (waits : Waits m i g u) {x : Answer Response}
    (answers : t.object.answers = u.object.answers ++ [x]) : Waits m i g t := by
  refine ⟨?_, ?_⟩
  · rw [answers]
    exact waits.grown.trans (List.prefix_append _ _)
  · intro silent
    have lengths := congrArg List.length silent
    have before := waits.grown.length_le
    rw [answers, List.length_append, List.length_singleton] at lengths
    omega

theorem Waits.step {m u t : IteratorMonitor Response} {i : Nat} {g : Gathering Response}
    {a : IteratorAction Response} (waits : Waits m i g u)
    (stepped : batchResultIterator.step u a = some t) : Waits m i g t := by
  cases Lib.Guarded.step_cases stepped with
  | call c =>
      refine ⟨waits.grown, fun silent => ?_⟩
      exact (waits.waits silent).imp Lib.Places.getElem?_concat_old Lib.Places.getElem?_concat_old
  | @enter j c after stage here free entered =>
      change anextEnter u.object c = _ at entered
      rw [anextEnter_eq] at entered
      cases entered
      refine ⟨waits.grown, fun silent => ?_⟩
      rcases waits.waits silent with holds | dropped
      · exact absurd holds (Lib.Guarded.not_locked free)
      · have apart : j ≠ i := by
          rintro rfl
          rw [dropped] at here
          cases here
        exact .inr ((List.getElem?_set_ne apart).trans dropped)
  | @move j c held x after stage here moved =>
      cases anextMove_cases (m := c) moved with
      | gathered received yielded few early => exact waits.answered rfl
      | filled received yielded full => exact waits.answered rfl
      | ended ended => exact waits.answered rfl
  | @drop j c stage here under =>
      refine ⟨waits.grown, fun silent => ?_⟩
      by_cases apart : j = i
      · subst apart
        exact .inr (Lib.Places.getElem?_set_here here _)
      · have other := @List.getElem?_set_ne _ u.calls _ _ apart (c, .dropped)
        exact (waits.waits silent).imp other.trans other.trans
  | happen happened =>
      cases iteratorHappen_cases happened with
      | background polled stepped yielded => exact ⟨waits.grown, waits.waits⟩
      | passes ms => exact ⟨waits.grown, waits.waits⟩

/-- **Time alone flushes nothing.**  As long as the stream does not answer, a call that has the
lock keeps it and what it has gathered, however late it is, unless it is cancelled. -/
theorem partial_batch_waits {m : IteratorMonitor Response} {i : Nat} {g : Gathering Response}
    (here : m.calls[i]? = some ((), .holding g))
    (on : run batchResultIterator.step m actions = some s)
    (silent : s.object.answers = m.object.answers) :
    s.calls[i]? = some ((), .holding g) ∨ s.calls[i]? = some ((), .dropped) := by
  have start : Waits m i g m := ⟨List.prefix_refl _, fun _ => .inl here⟩
  have waits : Waits m i g s :=
    run_invariant (motive := Waits m i g) start (fun kept stepped => kept.step stepped) on
  exact waits.waits silent

theorem partial_batch_waits_two :
    let g : Gathering Nat := ⟨0, [⟨"https://a.example".toList, some 200, none⟩]⟩
    twoAnextLate.object.now = 5000 ∧
      (twoAnextLate.calls[0]? = some ((), .holding g) ∨
        twoAnextLate.calls[0]? = some ((), .dropped)) := by
  intro g
  exact ⟨by rfl, @partial_batch_waits Nat [.happen (.passes 5000), .happen (.background (.release 0))]
    twoAnextLate twoAnextEarly 0 g (by rfl) (by rfl) (by rfl)⟩

end Runs

end Blasthttp.Batch
