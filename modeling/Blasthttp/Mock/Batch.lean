/-
# Blasthttp.Mock.Batch -- batches of requests to the mock

`request_batch_stream` splits the configs, opens the real client's stream for those that
`should_mock_fn` excludes, and gives an iterator: first the mocked ones in order, then
what the client's stream yields.  `request_batch` drains it.

Without a client nobody answers the excluded configs, and nothing is said of them: a batch
answers every config exactly when none is excluded or a client's own stream answers those
that are (`batch_answers_iff`).
-/
import Blasthttp.Mock.Dispatch

namespace Blasthttp.Mock

open Blasthttp.Rust Blasthttp.Cookies Blasthttp.Multipart Blasthttp.Client

set_option autoImplicit false

/-! ## Splitting -/

/-- An attribute that is not `None`. -/
def given : PyValue → Option PyValue
  | .none => none
  | value => some value

/-- What is read of an intercepted config. -/
def mockEntry (world : World) (n : Nat) (cfg : Config) (url : Str) : Except PyErr Request := do
  let method ← cfg.method
  let headers ← cfg.headers
  let body ← cfg.body
  let files := cfg.files.toOption.bind given
  let (bytes, headers) ← applyBodyAndFiles world n (given body) files headers
  pure ⟨url, method.getD "GET".toList, headers.getD [], bytes.getD []⟩

/-- The entry of the n-th config, `none` when it is excluded. -/
def sortConfig (world : World) (mock : BlasthttpMock) (n : Nat) (cfg : Config) :
    Except PyErr (Option Request) := do
  let url ← cfg.url
  let here ← shouldIntercept world mock n url
  if here then
    let entry ← mockEntry world n cfg url
    pure (some entry)
  else pure none

def splitConfigs (world : World) (mock : BlasthttpMock) :
    Nat → List Config → Except PyErr (List Request × List Config)
  | _, [] => .ok ([], [])
  | n, cfg :: rest => do
      let entry ← sortConfig world mock n cfg
      let (entries, passthrough) ← splitConfigs world mock (n + 1) rest
      match entry with
      | some entry => pure (entry :: entries, passthrough)
      | none => pure (entries, cfg :: passthrough)

/-! ## The iterator -/

structure MockBatchIterState where
  pendingMocks : List Request
  passthroughIter : Option Stream
  /-- How often the passthrough was pulled. -/
  pulled : Nat
  buffered : List BatchResult
  exhausted : Bool

/-- The client's stream, if there is one and it is needed. -/
def openPassthrough (mock : BlasthttpMock) (passthrough : List Config) (kwargs : BatchKwargs) :
    Except PyErr (Option Stream) :=
  match mock.realClient, passthrough with
  | some client, cfg :: rest => do
      let stream ← client.requestBatchStream (cfg :: rest) kwargs
      pure (some stream)
  | _, _ => .ok none

def requestBatchStream (world : World) (mock : BlasthttpMock) (configs : List Config)
    (kwargs : BatchKwargs) : Except PyErr MockBatchIterState := do
  let (entries, passthrough) ← splitConfigs world mock 0 configs
  let iter ← openPassthrough mock passthrough kwargs
  pure
    { pendingMocks := entries
      passthroughIter := iter
      pulled := 0
      buffered := []
      exhausted := false }

def endOfStream : PyErr := ⟨.stopAsyncIteration, "end of stream".toList⟩

/-- `batch_result_obj`. -/
def batchResult (url : Str) : Except PyErr Response → BatchResult
  | .ok response => ⟨url, some response, none⟩
  | .error e => ⟨url, none, some e.shown⟩

namespace MockBatchIterState

/-- The passthrough that is still pulled from. -/
def source (it : MockBatchIterState) : Option Stream :=
  if it.exhausted then none else it.passthroughIter

/-- What pulling leads to: a result, or another round. -/
def receive (it : MockBatchIterState) :
    Pulled → MockBatchIterState × Option (Except PyErr BatchResult)
  | .refused e => (it, some (.error e))
  | .raised e =>
      if e.isStop then ({ it with exhausted := true }, some (.error endOfStream))
      else (it, some (.error e))
  | .single item => (it, some (.ok item))
  | .list [] => (it, none)
  | .list (first :: rest) => ({ it with buffered := it.buffered ++ rest }, some (.ok first))

def pull (it : MockBatchIterState) (stream : Stream) :
    MockBatchIterState × Option (Except PyErr BatchResult) :=
  { it with pulled := it.pulled + 1 }.receive (stream it.pulled)

/-- One round of the loop of `__anext__`. -/
def round (world : World) (it : MockBatchIterState) (session : Session) :
    MockBatchIterState × Session × Option (Except PyErr BatchResult) :=
  match it.buffered, it.pendingMocks, it.source with
  | item :: rest, _, _ => ({ it with buffered := rest }, session, some (.ok item))
  | [], entry :: rest, _ =>
      let (session, outcome) := dispatchOne world session entry
      ({ it with pendingMocks := rest }, session, some (.ok (batchResult entry.url outcome)))
  | [], [], none => ({ it with exhausted := true }, session, some (.error endOfStream))
  | [], [], some stream =>
      let (it, result) := it.pull stream
      (it, session, result)

/-- `__anext__`, awaited, for so many rounds. -/
def anext (world : World) :
    Nat → MockBatchIterState → Session →
      Option (MockBatchIterState × Session × Except PyErr BatchResult)
  | 0, _, _ => none
  | rounds + 1, it, session =>
      match round world it session with
      | (it, session, some result) => some (it, session, result)
      | (it, session, none) => anext world rounds it session

/-- The results up to the end of the stream. -/
def drain (world : World) (rounds : Nat) :
    Nat → MockBatchIterState → Session → Option (Session × Except PyErr (List BatchResult))
  | 0, _, _ => none
  | calls + 1, it, session =>
      match anext world rounds it session with
      | none => none
      | some (_, session, .error e) => some (session, if e.isStop then .ok [] else .error e)
      | some (it, session, .ok item) =>
          (drain world rounds calls it session).map fun ended =>
            (ended.1, ended.2.map (item :: ·))

end MockBatchIterState

/-- `request_batch`, and what a caller does who drains the stream. -/
def requestBatch (world : World) (mock : BlasthttpMock) (rounds calls : Nat) (session : Session)
    (configs : List Config) (kwargs : BatchKwargs) :
    Option (Session × Except PyErr (List BatchResult)) :=
  match requestBatchStream world mock configs kwargs with
  | .error e => some (session, .error e)
  | .ok it => it.drain world rounds calls session

/-! ## What is asked of a batch -/

/-- The arguments with which `request` asks for the same as a config. -/
def Config.args (cfg : Config) : Except PyErr RequestArgs := do
  let url ← cfg.url
  let method ← cfg.method
  let headers ← cfg.headers
  let body ← cfg.body
  pure (plainArgs url method headers (given body) (cfg.files.toOption.bind given))

def intercepts (world : World) (mock : BlasthttpMock) (numbered : Config × Nat) : Bool :=
  passes (numbered.1.url >>= shouldIntercept world mock numbered.2)

/-- The configs, with their numbers, that are for the mock. -/
def intercepted (world : World) (mock : BlasthttpMock) (configs : List Config) :
    List (Config × Nat) :=
  configs.zipIdx.filter (intercepts world mock)

/-- The configs that `should_mock_fn` excludes. -/
def excluded (world : World) (mock : BlasthttpMock) (configs : List Config) : List Config :=
  (configs.zipIdx.filter fun numbered => !intercepts world mock numbered).map Prod.fst

/-- One result for each config, of what `request` comes to for it. -/
inductive Served (world : World) (mock : BlasthttpMock) :
    Session → List (Config × Nat) → List BatchResult → Prop where
  | nil {session : Session} : Served world mock session [] []
  | cons {session next : Session} {cfg : Config} {n : Nat} {args : RequestArgs}
      {outcome : Except PyErr Response} {rest : List (Config × Nat)} {results : List BatchResult}
      (read : cfg.args = .ok args)
      (asked : request world mock 1 n session args = some (next, outcome))
      (later : Served world mock next rest results) :
      Served world mock session ((cfg, n) :: rest) (batchResult args.url outcome :: results)

/-- One result for each config, in whatever order. -/
def AnswersEach (results : List BatchResult) (configs : List Config) : Prop :=
  (results.map fun result => Except.ok result.url).Perm (configs.map Config.url)

/-- Every config has its one result: those of the mock in order, then the others. -/
def AnswersAll (world : World) (mock : BlasthttpMock) (session : Session) (configs : List Config)
    (results : List BatchResult) : Prop :=
  ∃ mocked passed, results = mocked ++ passed ∧
    Served world mock session (intercepted world mock configs) mocked ∧
    AnswersEach passed (excluded world mock configs)

/-- Pulled from a number on, the stream ends normally with these items. -/
inductive Ends (stream : Stream) : Nat → List BatchResult → Prop where
  | raised {k : Nat} {e : PyErr} (pulled : stream k = .raised e) (stop : e.isStop = true) :
      Ends stream k []
  | refused {k : Nat} {e : PyErr} (pulled : stream k = .refused e) (stop : e.isStop = true) :
      Ends stream k []
  | single {k : Nat} {item : BatchResult} {items : List BatchResult}
      (pulled : stream k = .single item) (later : Ends stream (k + 1) items) :
      Ends stream k (item :: items)
  | list {k : Nat} {chunk items : List BatchResult} (pulled : stream k = .list chunk)
      (later : Ends stream (k + 1) items) : Ends stream k (chunk ++ items)

/-- A client whose streams, when they end normally, answer each of the configs. -/
def ClientAnswers (client : RealClient) (configs : List Config) (kwargs : BatchKwargs) : Prop :=
  ∀ stream items, client.requestBatchStream configs kwargs = .ok stream → Ends stream 0 items →
    AnswersEach items configs

/-- If every config can be read, none is excluded or there is a client that answers those
that are. -/
def Covered (world : World) (mock : BlasthttpMock) (configs : List Config)
    (kwargs : BatchKwargs) : Prop :=
  (∀ numbered ∈ configs.zipIdx, Returns (sortConfig world mock numbered.2 numbered.1)) →
    excluded world mock configs = [] ∨
      ∃ client, mock.realClient = some client ∧
        ClientAnswers client (excluded world mock configs) kwargs

/-! ## The split -/

section Split

variable {world : World} {mock : BlasthttpMock}

theorem intercepts_eq {cfg : Config} {url : Str} (read : cfg.url = .ok url) (n : Nat) :
    intercepts world mock (cfg, n) = passes (shouldIntercept world mock n url) := by
  rw [intercepts, read]
  rfl

theorem sortConfig_none {n : Nat} {cfg : Config}
    (sorted : sortConfig world mock n cfg = .ok none) :
    intercepts world mock (cfg, n) = false := by
  obtain ⟨url, read, sorted⟩ := bind_ok.mp sorted
  obtain ⟨here, asked, sorted⟩ := bind_ok.mp sorted
  cases here with
  | true =>
      obtain ⟨entry, -, last⟩ := bind_ok.mp sorted
      cases last
  | false => rw [intercepts_eq read, asked, passes]

/-- An entry is dispatched as `request` would. -/
theorem sortConfig_some {n : Nat} {cfg : Config} {entry : Request}
    (sorted : sortConfig world mock n cfg = .ok (some entry)) :
    intercepts world mock (cfg, n) = true ∧
      ∃ args, cfg.args = .ok args ∧ args.url = entry.url ∧
        ∀ session, request world mock 1 n session args = some (dispatchOne world session entry) := by
  obtain ⟨url, read, sorted⟩ := bind_ok.mp sorted
  obtain ⟨here, asked, sorted⟩ := bind_ok.mp sorted
  cases here with
  | false => cases sorted
  | true =>
      obtain ⟨built, entered, last⟩ := bind_ok.mp sorted
      cases last
      obtain ⟨method, readMethod, entered⟩ := bind_ok.mp entered
      obtain ⟨headers, readHeaders, entered⟩ := bind_ok.mp entered
      obtain ⟨body, readBody, entered⟩ := bind_ok.mp entered
      obtain ⟨⟨bytes, final⟩, applied, last⟩ := bind_ok.mp entered
      cases last
      refine ⟨by rw [intercepts_eq read, asked, passes], ?_⟩
      refine ⟨_, ?_, rfl, request_plainArgs asked applied method⟩
      rw [Config.args, read, readMethod, readHeaders, readBody]
      rfl

theorem splitConfigs_returns {n : Nat} {configs : List Config} :
    Returns (splitConfigs world mock n configs) ↔
      ∀ numbered ∈ configs.zipIdx n, Returns (sortConfig world mock numbered.2 numbered.1) := by
  induction configs generalizing n with
  | nil => exact iff_of_true (returns_ok _) (by simp)
  | cons cfg rest ih =>
      rw [List.zipIdx_cons, List.forall_mem_cons, ← ih]
      constructor
      · rintro ⟨split, splits⟩
        obtain ⟨entry, sorted, splits⟩ := bind_ok.mp splits
        obtain ⟨later, splits, -⟩ := bind_ok.mp splits
        exact ⟨⟨entry, sorted⟩, ⟨later, splits⟩⟩
      · rintro ⟨⟨entry, sorted⟩, ⟨entries, passthrough⟩, splits⟩
        rw [splitConfigs, sorted, splits]
        cases entry with
        | none => exact returns_ok _
        | some entry => exact returns_ok _

/-- The entries are those of the intercepted configs, and the others are passed through. -/
theorem splitConfigs_ok {n : Nat} {configs passthrough : List Config} {entries : List Request}
    (splits : splitConfigs world mock n configs = .ok (entries, passthrough)) :
    List.Forall₂
      (fun numbered entry => sortConfig world mock numbered.2 numbered.1 = .ok (some entry))
      ((configs.zipIdx n).filter (intercepts world mock)) entries ∧
    ((configs.zipIdx n).filter fun numbered => !intercepts world mock numbered).map Prod.fst =
      passthrough := by
  induction configs generalizing n entries passthrough with
  | nil =>
      cases splits
      exact ⟨.nil, rfl⟩
  | cons cfg rest ih =>
      obtain ⟨entry, sorted, splits⟩ := bind_ok.mp splits
      obtain ⟨⟨entries', passthrough'⟩, later, splits⟩ := bind_ok.mp splits
      obtain ⟨matched, left⟩ := ih later
      rw [List.zipIdx_cons]
      cases entry with
      | none =>
          cases splits
          have out := sortConfig_none sorted
          rw [List.filter_cons_of_neg (by simp [out]), List.filter_cons_of_pos (by simp [out])]
          exact ⟨matched, by rw [List.map_cons, left]⟩
      | some entry =>
          cases splits
          have here := (sortConfig_some sorted).1
          rw [List.filter_cons_of_pos here, List.filter_cons_of_neg (by simp [here])]
          exact ⟨.cons sorted matched, left⟩

end Split

/-! ## The mocked half -/

def dispatchAll (world : World) : Session → List Request → Session × List BatchResult
  | session, [] => (session, [])
  | session, entry :: rest =>
      let (next, outcome) := dispatchOne world session entry
      let (last, results) := dispatchAll world next rest
      (last, batchResult entry.url outcome :: results)

section Mocked

variable {world : World} {mock : BlasthttpMock} {session : Session}

theorem served_dispatchAll {numbered : List (Config × Nat)} {entries : List Request}
    (matched : List.Forall₂
      (fun numbered entry => sortConfig world mock numbered.2 numbered.1 = .ok (some entry))
      numbered entries) :
    Served world mock session numbered (dispatchAll world session entries).2 := by
  induction matched generalizing session with
  | nil => exact .nil
  | @cons numbered entry rest entries sorted matched ih =>
      obtain ⟨-, args, read, same, asked⟩ := sortConfig_some sorted
      rw [dispatchAll, ← same]
      exact .cons read (asked session) ih

theorem Served.unique {numbered : List (Config × Nat)} {results others : List BatchResult}
    (one : Served world mock session numbered results)
    (two : Served world mock session numbered others) : results = others := by
  induction one generalizing others with
  | nil =>
      cases two
      rfl
  | cons read asked later ih =>
      cases two with
      | cons read' asked' later' =>
          rw [read] at read'
          cases read'
          rw [asked] at asked'
          cases asked'
          rw [ih later']

end Mocked

/-! ## Draining -/

namespace MockBatchIterState

/-- What is still to come of the client's stream. -/
def Left (it : MockBatchIterState) (passed : List BatchResult) : Prop :=
  match it.source with
  | none => passed = []
  | some stream => Ends stream it.pulled passed

/-- What is still to come. -/
def Remaining (world : World) (it : MockBatchIterState) (session : Session)
    (results : List BatchResult) : Prop :=
  ∃ passed, results = it.buffered ++ ((dispatchAll world session it.pendingMocks).2 ++ passed) ∧
    it.Left passed

variable {world : World}

theorem left_iff {it : MockBatchIterState} {stream : Stream} (source : it.source = some stream)
    (passed : List BatchResult) : it.Left passed ↔ Ends stream it.pulled passed := by
  rw [Left, source]

/-- Once nothing is buffered and nothing pending, only the client's stream is left. -/
theorem remaining_iff {it : MockBatchIterState} (empty : it.buffered = [])
    (done : it.pendingMocks = []) (session : Session) (results : List BatchResult) :
    Remaining world it session results ↔ it.Left results := by
  rw [Remaining, empty, done]
  constructor
  · rintro ⟨passed, rfl, left⟩
    exact left
  · intro left
    exact ⟨results, rfl, left⟩

/-- What pulling can do. -/
theorem pull_spec {it : MockBatchIterState} {stream : Stream} (source : it.source = some stream)
    (empty : it.buffered = []) (done : it.pendingMocks = []) (session : Session) :
    (∃ next, it.pull stream = (next, none) ∧
      ∀ results, Remaining world next session results → Remaining world it session results) ∨
    (∃ next item, it.pull stream = (next, some (.ok item)) ∧
      ∀ results, Remaining world next session results →
        Remaining world it session (item :: results)) ∨
    (∃ next e, it.pull stream = (next, some (.error e)) ∧
      (e.isStop = true → Remaining world it session [])) := by
  have before : ∀ results, Ends stream it.pulled results → Remaining world it session results :=
    fun results ends => (remaining_iff empty done session results).mpr ((left_iff source _).mpr ends)
  have after : ∀ results, Remaining world { it with pulled := it.pulled + 1 } session results →
      Ends stream (it.pulled + 1) results := by
    intro results remaining
    exact (@left_iff { it with pulled := it.pulled + 1 } stream source results).mp
      ((@remaining_iff world { it with pulled := it.pulled + 1 } empty done session results).mp
        remaining)
  rw [pull]
  cases pulled : stream it.pulled with
  | list items =>
      cases items with
      | nil =>
          refine .inl ⟨_, rfl, ?_⟩
          intro results remaining
          exact before _ (.list pulled (after results remaining))
      | cons first rest =>
          refine .inr (.inl ⟨_, first, rfl, ?_⟩)
          rintro results ⟨passed, rfl, left⟩
          have ends := (@left_iff { it with pulled := it.pulled + 1 } stream source passed).mp left
          rw [empty, done]
          exact before _ (.list pulled ends)
  | single item =>
      refine .inr (.inl ⟨_, item, rfl, ?_⟩)
      intro results remaining
      exact before _ (.single pulled (after results remaining))
  | raised e =>
      simp only [receive]
      split
      · rename_i stop
        exact .inr (.inr ⟨_, _, rfl, fun _ => before _ (.raised pulled stop)⟩)
      · exact .inr (.inr ⟨_, _, rfl, fun stop => before _ (.raised pulled stop)⟩)
  | refused e => exact .inr (.inr ⟨_, _, rfl, fun stop => before _ (.refused pulled stop)⟩)

/-- What one round can do. -/
theorem round_spec (it : MockBatchIterState) (session : Session) :
    (∃ next session', round world it session = (next, session', none) ∧
      ∀ results, Remaining world next session' results → Remaining world it session results) ∨
    (∃ next session' item, round world it session = (next, session', some (.ok item)) ∧
      ∀ results, Remaining world next session' results →
        Remaining world it session (item :: results)) ∨
    (∃ next session' e, round world it session = (next, session', some (.error e)) ∧
      (e.isStop = true → Remaining world it session [])) := by
  rw [round]
  cases buffered : it.buffered with
  | cons item rest =>
      refine .inr (.inl ⟨_, _, item, rfl, ?_⟩)
      rintro results ⟨passed, rfl, left⟩
      exact ⟨passed, by rw [buffered]; rfl, left⟩
  | nil =>
      cases pending : it.pendingMocks with
      | cons entry rest =>
          refine .inr (.inl ⟨_, _, _, rfl, ?_⟩)
          rintro results ⟨passed, rfl, left⟩
          exact ⟨passed, by rw [buffered, pending]; rfl, left⟩
      | nil =>
          cases source : it.source with
          | none =>
              refine .inr (.inr ⟨_, _, _, rfl, fun _ => ?_⟩)
              rw [remaining_iff buffered pending, Left, source]
          | some stream =>
              simp only
              rcases @pull_spec world it stream source buffered pending session with
                ⟨next, received, adds⟩ | ⟨next, item, received, adds⟩ | ⟨next, e, received, ends⟩
              · rw [received]
                exact .inl ⟨next, session, rfl, adds⟩
              · rw [received]
                exact .inr (.inl ⟨next, session, item, rfl, adds⟩)
              · rw [received]
                exact .inr (.inr ⟨next, session, e, rfl, ends⟩)

theorem anext_spec {rounds : Nat} {it next : MockBatchIterState} {session session' : Session}
    {outcome : Except PyErr BatchResult}
    (asked : anext world rounds it session = some (next, session', outcome)) :
    (∃ item, outcome = .ok item ∧ ∀ results, Remaining world next session' results →
      Remaining world it session (item :: results)) ∨
    (∃ e, outcome = .error e ∧ (e.isStop = true → Remaining world it session [])) := by
  induction rounds generalizing it session with
  | zero => cases asked
  | succ rounds ih =>
      rw [anext] at asked
      rcases round_spec it session with
        ⟨it', turned, came, adds⟩ | ⟨it', turned, item, came, adds⟩ | ⟨it', turned, e, came, ends⟩
      · rw [came] at asked
        rcases ih asked with ⟨item, same, more⟩ | ⟨e, same, ends⟩
        · exact .inl ⟨item, same, fun results remaining => adds _ (more results remaining)⟩
        · exact .inr ⟨e, same, fun stop => adds _ (ends stop)⟩
      · rw [came] at asked
        cases asked
        exact .inl ⟨item, rfl, adds⟩
      · rw [came] at asked
        cases asked
        exact .inr ⟨e, rfl, ends⟩

/-- What a drained stream gave is what was to come. -/
theorem drain_remaining {rounds calls : Nat} {it : MockBatchIterState} {session last : Session}
    {results : List BatchResult}
    (drained : drain world rounds calls it session = some (last, .ok results)) :
    Remaining world it session results := by
  induction calls generalizing it session results with
  | zero => cases drained
  | succ calls ih =>
      rw [drain] at drained
      cases asked : anext world rounds it session with
      | none =>
          rw [asked] at drained
          cases drained
      | some answer =>
          obtain ⟨next, session', outcome⟩ := answer
          rw [asked] at drained
          rcases anext_spec asked with ⟨item, rfl, adds⟩ | ⟨e, rfl, ends⟩
          · simp only [Option.map_eq_some_iff] at drained
            obtain ⟨⟨last', outcome⟩, later, same⟩ := drained
            cases outcome with
            | error e => cases same
            | ok more =>
                cases same
                exact adds more (ih later)
          · cases stop : e.isStop with
            | true =>
                simp only [stop] at drained
                cases drained
                exact ends stop
            | false =>
                simp only [stop] at drained
                cases drained

/-! ## What is to come is given -/

/-- With enough rounds for each call the drained stream gives these results. -/
def Drains (world : World) (it : MockBatchIterState) (session : Session)
    (results : List BatchResult) : Prop :=
  ∃ least, ∀ rounds, least ≤ rounds →
    ∃ last, drain world rounds (results.length + 1) it session = some (last, .ok results)

theorem anext_succ {rounds : Nat} {it : MockBatchIterState} {session : Session}
    {answer : MockBatchIterState × Session × Except PyErr BatchResult}
    (asked : anext world rounds it session = some answer) :
    anext world (rounds + 1) it session = some answer := by
  induction rounds generalizing it session with
  | zero => cases asked
  | succ rounds ih =>
      rw [anext] at asked ⊢
      rcases came : round world it session with ⟨next, session', _ | result⟩
      · rw [came] at asked
        exact ih asked
      · rw [came] at asked
        exact asked

section Shapes

variable {it next : MockBatchIterState} {session session' : Session} {results : List BatchResult}

theorem Drains.item {item : BatchResult}
    (came : round world it session = (next, session', some (.ok item)))
    (later : Drains world next session' results) : Drains world it session (item :: results) := by
  obtain ⟨least, enough⟩ := later
  refine ⟨least + 1, ?_⟩
  intro rounds above
  obtain ⟨rounds, rfl⟩ : ∃ n, rounds = n + 1 := ⟨rounds - 1, by omega⟩
  obtain ⟨last, drained⟩ := enough (rounds + 1) (by omega)
  refine ⟨last, ?_⟩
  rw [List.length_cons, drain, anext, came]
  simp only [drained]
  rfl

theorem Drains.stop {e : PyErr} (came : round world it session = (next, session', some (.error e)))
    (stop : e.isStop = true) : Drains world it session [] := by
  refine ⟨1, ?_⟩
  intro rounds above
  obtain ⟨rounds, rfl⟩ : ∃ n, rounds = n + 1 := ⟨rounds - 1, by omega⟩
  refine ⟨session', ?_⟩
  rw [List.length_nil, drain, anext, came]
  simp only [stop, if_true]

/-- A round that gives nothing takes one of the rounds of its call. -/
theorem Drains.again (came : round world it session = (next, session', none))
    (later : Drains world next session' results) : Drains world it session results := by
  obtain ⟨least, enough⟩ := later
  refine ⟨least + 1, ?_⟩
  intro rounds above
  obtain ⟨rounds, rfl⟩ : ∃ n, rounds = n + 1 := ⟨rounds - 1, by omega⟩
  obtain ⟨_, answered⟩ := enough rounds (by omega)
  obtain ⟨last, drained⟩ := enough (rounds + 1) (by omega)
  refine ⟨last, ?_⟩
  have same : anext world (rounds + 1) it session = anext world (rounds + 1) next session' := by
    cases asked : anext world rounds next session' with
    | none =>
        rw [drain, asked] at answered
        cases answered
    | some answer =>
        rw [anext_succ asked, anext, came]
        exact asked
  rw [drain] at drained ⊢
  rw [same]
  exact drained

end Shapes

variable {iter : Option Stream} {pulled : Nat} {exhausted : Bool} {results : List BatchResult}

theorem drains_buffered {pending : List Request} {session : Session} (buffered : List BatchResult)
    (later : Drains world ⟨pending, iter, pulled, [], exhausted⟩ session results) :
    Drains world ⟨pending, iter, pulled, buffered, exhausted⟩ session (buffered ++ results) := by
  induction buffered with
  | nil => exact later
  | cons item rest ih => exact Drains.item rfl ih

theorem drains_pending {pending : List Request} {session : Session}
    (later : Drains world ⟨[], iter, pulled, [], exhausted⟩
      (dispatchAll world session pending).1 results) :
    Drains world ⟨pending, iter, pulled, [], exhausted⟩ session
      ((dispatchAll world session pending).2 ++ results) := by
  induction pending generalizing session with
  | nil => exact later
  | cons entry rest ih => exact Drains.item rfl (ih later)

theorem drains_stream {stream : Stream} {passed : List BatchResult}
    (ends : Ends stream pulled passed) (session : Session) :
    Drains world ⟨[], some stream, pulled, [], false⟩ session passed := by
  induction ends with
  | @raised k e here stop =>
      have came : round world ⟨[], some stream, k, [], false⟩ session =
          (⟨[], some stream, k + 1, [], true⟩, session, some (.error endOfStream)) := by
        simp [round, source, pull, receive, here, stop]
      exact Drains.stop came rfl
  | @refused k e here stop =>
      have came : round world ⟨[], some stream, k, [], false⟩ session =
          (⟨[], some stream, k + 1, [], false⟩, session, some (.error e)) := by
        simp [round, source, pull, receive, here]
      exact Drains.stop came stop
  | @single k item items here later ih =>
      have came : round world ⟨[], some stream, k, [], false⟩ session =
          (⟨[], some stream, k + 1, [], false⟩, session, some (.ok item)) := by
        simp [round, source, pull, receive, here]
      exact Drains.item came ih
  | @list k chunk items here later ih =>
      cases chunk with
      | nil =>
          have came : round world ⟨[], some stream, k, [], false⟩ session =
              (⟨[], some stream, k + 1, [], false⟩, session, none) := by
            simp [round, source, pull, receive, here]
          exact Drains.again came ih
      | cons first rest =>
          have came : round world ⟨[], some stream, k, [], false⟩ session =
              (⟨[], some stream, k + 1, rest, false⟩, session, some (.ok first)) := by
            simp [round, source, pull, receive, here]
          exact Drains.item came (drains_buffered rest ih)

theorem drains_none (session : Session) :
    Drains world ⟨[], none, pulled, [], false⟩ session [] :=
  Drains.stop rfl rfl

end MockBatchIterState

/-! ## Every config -/

section Every

variable {world : World} {mock : BlasthttpMock} {session : Session} {configs : List Config}
  {kwargs : BatchKwargs}

theorem splitConfigs_served {entries : List Request} {passthrough : List Config}
    (splits : splitConfigs world mock 0 configs = .ok (entries, passthrough)) :
    passthrough = excluded world mock configs ∧
      Served world mock session (intercepted world mock configs)
        (dispatchAll world session entries).2 := by
  obtain ⟨matched, left⟩ := splitConfigs_ok splits
  exact ⟨left.symm, served_dispatchAll matched⟩

theorem requestBatchStream_ok {it : MockBatchIterState} :
    requestBatchStream world mock configs kwargs = .ok it ↔
      ∃ entries passthrough iter, splitConfigs world mock 0 configs = .ok (entries, passthrough) ∧
        openPassthrough mock passthrough kwargs = .ok iter ∧
        it = ⟨entries, iter, 0, [], false⟩ := by
  constructor
  · intro opened
    obtain ⟨⟨entries, passthrough⟩, splits, opened⟩ := bind_ok.mp opened
    obtain ⟨iter, chosen, last⟩ := bind_ok.mp opened
    cases last
    exact ⟨entries, passthrough, iter, splits, chosen, rfl⟩
  · rintro ⟨entries, passthrough, iter, splits, chosen, rfl⟩
    rw [requestBatchStream, splits]
    exact bind_ok.mpr ⟨(entries, passthrough), rfl, bind_ok.mpr ⟨iter, chosen, rfl⟩⟩

theorem openPassthrough_ok {passthrough : List Config} {iter : Option Stream} :
    openPassthrough mock passthrough kwargs = .ok iter ↔
      (iter = none ∧ (passthrough = [] ∨ mock.realClient = none)) ∨
      (passthrough ≠ [] ∧ ∃ client stream, mock.realClient = some client ∧
        client.requestBatchStream passthrough kwargs = .ok stream ∧ iter = some stream) := by
  unfold openPassthrough
  cases mock.realClient with
  | none => simp [eq_comm]
  | some client =>
      cases passthrough with
      | nil => simp [eq_comm]
      | cons cfg rest =>
          simp only [bind_ok]
          constructor
          · rintro ⟨stream, streamed, last⟩
            cases last
            exact .inr ⟨nofun, client, stream, rfl, streamed, rfl⟩
          · rintro (⟨-, none | none⟩ | ⟨-, other, stream, same, streamed, rfl⟩)
            · cases none
            · cases none
            · cases same
              exact ⟨stream, streamed, rfl⟩

/-- The mocked results are known, so the others must answer the excluded configs. -/
theorem answersAll_append {mocked passed : List BatchResult}
    (served : Served world mock session (intercepted world mock configs) mocked) :
    AnswersAll world mock session configs (mocked ++ passed) ↔
      AnswersEach passed (excluded world mock configs) := by
  constructor
  · rintro ⟨mocked', passed', same, served', each⟩
    rw [← served.unique served', List.append_cancel_left_eq] at same
    rw [same]
    exact each
  · intro each
    exact ⟨mocked, passed, rfl, served, each⟩

theorem answersEach_nil {cfgs : List Config} : AnswersEach [] cfgs ↔ cfgs = [] := by
  rw [AnswersEach, List.map_nil, List.nil_perm, List.map_eq_nil_iff]

/-- A batch that returns has answered every config, if they are covered. -/
theorem answersAll_of_covered {rounds calls : Nat} {last : Session} {results : List BatchResult}
    (covered : Covered world mock configs kwargs)
    (returned : requestBatch world mock rounds calls session configs kwargs =
      some (last, .ok results)) : AnswersAll world mock session configs results := by
  rw [requestBatch] at returned
  cases opened : requestBatchStream world mock configs kwargs with
  | error e =>
      rw [opened] at returned
      cases returned
  | ok it =>
      rw [opened] at returned
      obtain ⟨entries, passthrough, iter, splits, chosen, rfl⟩ := requestBatchStream_ok.mp opened
      obtain ⟨passed, rfl, left⟩ := MockBatchIterState.drain_remaining returned
      obtain ⟨rfl, served⟩ := @splitConfigs_served _ _ session _ _ _ splits
      rw [List.nil_append, answersAll_append served]
      have ways := covered (splitConfigs_returns.mp ⟨_, splits⟩)
      rcases openPassthrough_ok.mp chosen with
        ⟨rfl, nobody⟩ | ⟨needed, client, stream, real, streamed, rfl⟩
      · have nothing : passed = [] := left
        rw [nothing, answersEach_nil]
        rcases nobody with none | alone
        · exact none
        · rcases ways with none | ⟨client, real, -⟩
          · exact none
          · rw [alone] at real
            cases real
      · have ends : Ends stream 0 passed := left
        rcases ways with none | ⟨client', real', answers⟩
        · exact absurd none needed
        · rw [real] at real'
          cases real'
          exact answers stream passed streamed ends

/-- What the mocks and the client's stream have to give is returned. -/
theorem requestBatch_returns {entries : List Request} {iter : Option Stream}
    {passed : List BatchResult}
    (opened : requestBatchStream world mock configs kwargs = .ok ⟨entries, iter, 0, [], false⟩)
    (ends : MockBatchIterState.Left ⟨entries, iter, 0, [], false⟩ passed) :
    ∃ rounds calls last, requestBatch world mock rounds calls session configs kwargs =
      some (last, .ok ((dispatchAll world session entries).2 ++ passed)) := by
  have later : ∀ session, MockBatchIterState.Drains world ⟨[], iter, 0, [], false⟩ session passed := by
    intro session
    cases iter with
    | none =>
        have nothing : passed = [] := ends
        rw [nothing]
        exact MockBatchIterState.drains_none session
    | some stream => exact MockBatchIterState.drains_stream ends session
  obtain ⟨least, enough⟩ :=
    @MockBatchIterState.drains_pending world iter 0 false passed entries session (later _)
  obtain ⟨last, drained⟩ := enough least le_rfl
  exact ⟨least, _, last, by rw [requestBatch, opened]; exact drained⟩

/-- A batch answers every config exactly when they are covered: when reading one raises, when
`should_mock_fn` excludes none, or when there is a real client whose stream answers those
that it excludes. -/
theorem batch_answers_iff (world : World) (mock : BlasthttpMock) (session : Session)
    (configs : List Config) (kwargs : BatchKwargs) :
    (∀ rounds calls last results,
      requestBatch world mock rounds calls session configs kwargs = some (last, .ok results) →
        AnswersAll world mock session configs results) ↔
    Covered world mock configs kwargs := by
  constructor
  · intro answers readable
    obtain ⟨⟨entries, passthrough⟩, splits⟩ := splitConfigs_returns.mpr readable
    obtain ⟨rfl, served⟩ := @splitConfigs_served _ _ session _ _ _ splits
    have given : ∀ iter passed, openPassthrough mock (excluded world mock configs) kwargs = .ok iter →
        MockBatchIterState.Left ⟨entries, iter, 0, [], false⟩ passed →
          AnswersEach passed (excluded world mock configs) := by
      intro iter passed chosen left
      have opened := requestBatchStream_ok.mpr ⟨entries, _, iter, splits, chosen, rfl⟩
      obtain ⟨rounds, calls, last, returned⟩ := @requestBatch_returns world mock session configs kwargs entries iter passed opened left
      exact (answersAll_append served).mp (answers rounds calls last _ returned)
    by_cases none_ : excluded world mock configs = []
    · exact .inl none_
    · cases real : mock.realClient with
      | none =>
          have chosen : openPassthrough mock (excluded world mock configs) kwargs = .ok none :=
            openPassthrough_ok.mpr (.inl ⟨rfl, .inr real⟩)
          exact .inl (answersEach_nil.mp (given none [] chosen rfl))
      | some client =>
          refine .inr ⟨client, rfl, ?_⟩
          intro stream passed streamed ends
          exact given (some stream) passed
            (openPassthrough_ok.mpr (.inr ⟨none_, client, stream, real, streamed, rfl⟩)) ends
  · intro covered rounds calls last results returned
    exact answersAll_of_covered covered returned

end Every

/-! ## Nobody answers -/

/-- A Python that has nothing to say but the host of one URL. -/
def plainWorld : World where
  python :=
    { str := fun _ => .error []
      extractError := fun _ => []
      multipartError := fun text => ⟨.typeError, text⟩
      byteVec := fun _ => none
      search := fun _ _ => .ok false
      eq := fun _ _ => .ok false
      loads := fun _ => none
      dumps := fun _ => .ok [] }
  callback := fun _ _ _ => .ok .other
  meanwhile := fun _ state => state
  origin := fun _ => .ok ([], [])
  hostname := fun url =>
    .ok (if url = "http://127.0.0.1/".toList then some "127.0.0.1".toList else none)
  hashes := fun _ => (0, 0)

/-- A mock without a client that excludes the loopback address. -/
def loneMock : BlasthttpMock where
  realClient := none
  shouldMockFn := some fun _ host => .ok (host ≠ "127.0.0.1".toList)

def loopbackConfig : Config where
  url := .ok "http://127.0.0.1/".toList
  method := .ok none
  headers := .ok none
  body := .ok .none
  files := .ok .none

/-- The batch returns nothing for a config for which `request` raises. -/
theorem excluded_unanswered :
    requestBatch plainWorld loneMock 1 1 ⟨.new, 0⟩ [loopbackConfig] ⟨50, none⟩ =
      some (⟨.new, 0⟩, .ok []) ∧
    ¬ AnswersAll plainWorld loneMock ⟨.new, 0⟩ [loopbackConfig] [] ∧
    request plainWorld loneMock 1 0 ⟨.new, 0⟩
        (plainArgs "http://127.0.0.1/".toList none none none none) =
      some (⟨.new, 0⟩, .error (noClientError "http://127.0.0.1/".toList)) := by
  have out : intercepts plainWorld loneMock (loopbackConfig, 0) = false := by
    decide
  refine ⟨rfl, ?_, rfl⟩
  rintro ⟨mocked, passed, same, -, each⟩
  have nothing := (List.append_eq_nil_iff.mp same.symm).2
  rw [nothing, AnswersEach, List.map_nil, List.nil_perm, List.map_eq_nil_iff, excluded] at each
  simp [out] at each

end Blasthttp.Mock
