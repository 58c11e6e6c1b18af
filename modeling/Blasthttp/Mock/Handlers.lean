/-
# Blasthttp.Mock.Handlers -- the handlers of the mock

`add_response` and `add_callback` put a handler behind the registered ones;
`pick_handler` takes the first that matches and moves it to the recycled ones, and looks
among those when none does.  Whatever order the calls take the lock in, the two lists
together are the registered handlers, and every request gets the handler that is due
(`handlers_in_turn`).
-/
import Blasthttp.Lib.FirstUse
import Blasthttp.Lib.LastValue
import Blasthttp.Rust.Bytes
import Blasthttp.Rust.Result
import Blasthttp.Cookies.Chain
import Blasthttp.Multipart

namespace Blasthttp.Mock

open Blasthttp.Rust Blasthttp.Cookies Blasthttp.Multipart Blasthttp.Lib.FirstUse

set_option autoImplicit false

/-! ## Python -/

inductive PyErrKind where
  | typeError
  | valueError
  | runtimeError
  | stopAsyncIteration
  /-- Any other class; `stops` when it derives from `StopAsyncIteration`. -/
  | other (name : Str) (stops : Bool)

structure PyErr where
  kind : PyErrKind
  message : Str

namespace PyErr

def className : PyErrKind → Str
  | .typeError => "TypeError".toList
  | .valueError => "ValueError".toList
  | .runtimeError => "RuntimeError".toList
  | .stopAsyncIteration => "StopAsyncIteration".toList
  | .other name _ => name

/-- `is_instance_of::<PyStopAsyncIteration>`. -/
def isStop (e : PyErr) : Bool :=
  match e.kind with
  | .stopAsyncIteration => true
  | .other _ stops => stops
  | _ => false

/-- `to_string()`. -/
def shown (e : PyErr) : Str := className e.kind ++ ": ".toList ++ e.message

end PyErr

def typeError (message : String) : PyErr := ⟨.typeError, message.toList⟩

/-- What the interpreter and the objects given to the mock answer. -/
structure Python extends Multipart.Python where
  /-- The exception behind a text that `build_multipart` failed with. -/
  multipartError : Str → PyErr
  /-- `extract::<Vec<u8>>()`. -/
  byteVec : PyValue → Option (List UInt8)
  /-- The truth of `pattern.search(url)`. -/
  search : PyValue → Str → Except PyErr Bool
  eq : PyValue → PyValue → Except PyErr Bool
  /-- `json.loads`; what it raises is not looked at. -/
  loads : Str → Option PyValue
  /-- `json.dumps`, as a string. -/
  dumps : PyValue → Except PyErr Str

def extractText (python : Python) : PyValue → Except PyErr Str
  | .str s => .ok s
  | value => .error ⟨.typeError, python.extractError value⟩

/-- `get_item` on a dict. -/
def getItem (items : List (PyValue × PyValue)) (key : Str) : Option PyValue :=
  items.findSome? fun
    | (.str k, v) => if k = key then some v else none
    | _ => none

/-! ## Handlers -/

structure ResponseKind where
  statusCode : UInt16
  body : List UInt8
  headers : List Line
  matchHeaders : Option (List (PyValue × PyValue))
  matchJson : Option (List (PyValue × PyValue))

inductive HandlerKind where
  | response (r : ResponseKind)
  | callback (callback : PyValue)

structure Handler where
  /-- A pattern or a string, `none` for any URL. -/
  url : Option PyValue
  method : Option Str
  kind : HandlerKind

structure MockState where
  handlers : List Handler
  recycled : List Handler

def MockState.new : MockState := ⟨[], []⟩

/-- What a handler is matched with. -/
structure Request where
  url : Str
  method : Str
  headers : List Line
  body : List UInt8

def headerItem (python : Python) (name : Str) (value : PyValue) : Except PyErr (List Line) :=
  match value with
  | .list items =>
      items.mapM fun item => do
        let text ← extractText python item
        pure (name, text)
  | value => do
      let text ← extractText python value
      pure [(name, text)]

def headerTuple (python : Python) : PyValue → Except PyErr Line
  | .tuple [name, value] => do
      let name ← extractText python name
      let value ← extractText python value
      pure (name, value)
  | .tuple items =>
      .error ⟨.valueError, "expected tuple of length 2, but got tuple of length ".toList ++
        decimalText items.length⟩
  | value => .error ⟨.typeError, python.extractError value⟩

def normalizeHeaders (python : Python) : Option PyValue → Except PyErr (List Line)
  | none => .ok []
  | some (.dict items) => do
      let lines ← items.mapM fun (k, v) => do
        let name ← extractText python k
        headerItem python name v
      pure lines.flatten
  | some (.list entries) => entries.mapM (headerTuple python)
  | some _ => .error (typeError "headers must be a dict, list of (name, value) tuples, or None")

def ensureContentType (headers : List Line) (default : Str) : List Line :=
  if headers.any fun header => eqIgnoreAsciiCase header.1 "content-type".toList then headers
  else headers ++ [("Content-Type".toList, default)]

/-! ## Matching -/

def urlMatches (python : Python) (pattern : Option PyValue) (url : Str) : Except PyErr Bool :=
  match pattern with
  | none => .ok true
  | some (.str s) => .ok (s = url)
  | some pattern => python.search pattern url

/-- Every expected item is among those that `lookup` finds. -/
def subsetMatch (python : Python) (lookup : Str → Option PyValue) :
    List (PyValue × PyValue) → Except PyErr Bool
  | [] => .ok true
  | (k, v) :: rest => do
      let key ← extractText python k
      match lookup key with
      | some actual =>
          let same ← python.eq actual v
          if same then subsetMatch python lookup rest else pure false
      | none => pure false

/-- The request's headers as a dict: the last value of a name. -/
def headerSubsetMatch (python : Python) (expected : List (PyValue × PyValue))
    (headers : List Line) : Except PyErr Bool :=
  subsetMatch python
    (fun key => (Lib.LastValue.last Prod.fst Prod.snd key headers).map PyValue.str) expected

def jsonSubsetMatch (python : Python) (expected : List (PyValue × PyValue))
    (body : List UInt8) : Except PyErr Bool :=
  if body.isEmpty then .ok expected.isEmpty
  else
    match (fromUtf8 body).bind python.loads with
    | some (.dict parsed) => subsetMatch python (getItem parsed) expected
    | _ => .ok false

/-- What `pick_handler` asks of a handler. -/
def handlerMatches (python : Python) (h : Handler) (request : Request) : Except PyErr Bool := do
  let here ← urlMatches python h.url request.url
  if !here then pure false
  else if h.method.any fun m => !eqIgnoreAsciiCase m request.method then pure false
  else
    match h.kind with
    | .callback _ => pure true
    | .response r =>
        let headersMatch ← match r.matchHeaders with
          | some expected => headerSubsetMatch python expected request.headers
          | none => pure true
        if !headersMatch then pure false
        else
          match r.matchJson with
          | some expected => jsonSubsetMatch python expected request.body
          | none => pure true

/-! ## Picking -/

/-- The first of the list that the check lets through. -/
def chosenIdx (check : Handler → Except PyErr Bool) :
    (list : List Handler) → Except PyErr (Option (Fin list.length))
  | [] => .ok none
  | h :: rest => do
      let holds ← check h
      if holds then pure (some ⟨0, Nat.zero_lt_succ _⟩)
      else
        let later ← chosenIdx check rest
        pure (later.map Fin.succ)

/-- `pick_handler`, of what it asks of a handler.  An exception leaves the lists alone. -/
def pickHandler (check : Handler → Request → Except PyErr Bool) (state : MockState)
    (request : Request) : MockState × Except PyErr (Option Handler) :=
  match chosenIdx (check · request) state.handlers with
  | .error e => (state, .error e)
  | .ok (some i) =>
      let h := state.handlers.get i
      (⟨state.handlers.eraseIdx i, state.recycled ++ [h]⟩, .ok (some h))
  | .ok none =>
      match chosenIdx (check · request) state.recycled with
      | .error e => (state, .error e)
      | .ok i => (state, .ok (i.map state.recycled.get))

/-! ## Registering -/

structure ResponseArgs where
  url : Option PyValue
  method : Option Str
  text : Option Str
  json : Option PyValue
  content : Option PyValue
  statusCode : UInt16
  headers : Option PyValue
  matchHeaders : Option (List (PyValue × PyValue))
  matchJson : Option (List (PyValue × PyValue))

def contentBytes (python : Python) (content : PyValue) : Except PyErr (List UInt8) :=
  match python.byteVec content, content with
  | some bytes, _ => .ok bytes
  | none, .str s => .ok (utf8Bytes s)
  | none, _ => .error (typeError "content must be bytes or str")

/-- The body of a static response, and its headers with the default content type. -/
def responseBody (python : Python) (args : ResponseArgs) (headers : List Line) :
    Except PyErr (List UInt8 × List Line) :=
  match args.text, args.json, args.content with
  | some text, _, _ =>
      .ok (utf8Bytes text, ensureContentType headers "text/plain; charset=utf-8".toList)
  | none, some json, _ => do
      let text ← python.dumps json
      pure (utf8Bytes text, ensureContentType headers "application/json".toList)
  | none, none, some content => do
      let bytes ← contentBytes python content
      pure (bytes, ensureContentType headers "application/octet-stream".toList)
  | none, none, none => .ok ([], headers)

/-- The handler that `add_response` registers. -/
def responseHandler (python : Python) (args : ResponseArgs) : Except PyErr Handler := do
  let headers ← normalizeHeaders python args.headers
  let (body, headers) ← responseBody python args headers
  pure
    { url := args.url
      method := args.method
      kind := .response
        { statusCode := args.statusCode
          body := body
          headers := headers
          matchHeaders := args.matchHeaders
          matchJson := args.matchJson } }

/-- The handler that `add_callback` registers. -/
def callbackHandler (callback : PyValue) (url : Option PyValue) : Handler :=
  { url := url, method := none, kind := .callback callback }

def MockState.push (state : MockState) (h : Handler) : MockState :=
  { state with handlers := state.handlers ++ [h] }

def addResponse (python : Python) (state : MockState) (args : ResponseArgs) :
    MockState × Except PyErr Handler :=
  match responseHandler python args with
  | .ok h => (state.push h, .ok h)
  | .error e => (state, .error e)

def addCallback (state : MockState) (callback : PyValue) (url : Option PyValue) : MockState :=
  state.push (callbackHandler callback url)

/-! ## Runs -/

/-- A call, in the order in which the calls get the lock. -/
inductive Call where
  | addResponse (args : ResponseArgs)
  | addCallback (callback : PyValue) (url : Option PyValue)
  | request (request : Request)

inductive Outcome where
  | registered (h : Handler)
  /-- `add_response` raised. -/
  | refused (e : PyErr)
  | answered (request : Request) (handler : Option Handler)
  /-- Matching raised. -/
  | raised (request : Request) (e : PyErr)

def Outcome.registered? : Outcome → Option Handler
  | .registered h => some h
  | _ => none

/-- Whether the call did not raise. -/
def Outcome.returned : Outcome → Bool
  | .registered _ => true
  | .answered _ _ => true
  | .refused _ => false
  | .raised _ _ => false

def registered (outcomes : List Outcome) : List Handler := outcomes.filterMap Outcome.registered?

section Runs

variable (python : Python) (check : Handler → Request → Except PyErr Bool)

def step (state : MockState) : Call → MockState × Outcome
  | .addResponse args =>
      match addResponse python state args with
      | (state, .ok h) => (state, .registered h)
      | (state, .error e) => (state, .refused e)
  | .addCallback callback url =>
      (addCallback state callback url, .registered (callbackHandler callback url))
  | .request request =>
      match pickHandler check state request with
      | (state, .ok handler) => (state, .answered request handler)
      | (state, .error e) => (state, .raised request e)

def run (state : MockState) : List Call → MockState × List Outcome
  | [] => (state, [])
  | call :: rest =>
      let (state, outcome) := step python check state call
      let (state, outcomes) := run state rest
      (state, outcome :: outcomes)

end Runs

/-! ## One search -/

def passes : Except PyErr Bool → Bool
  | .ok holds => holds
  | .error _ => false

theorem chosenIdx_ok {check : Handler → Except PyErr Bool} {list : List Handler}
    {chosen : Option (Fin list.length)} (found : chosenIdx check list = .ok chosen) :
    list.find? (fun h => passes (check h)) = chosen.map list.get ∧
      ∀ i, chosen = some i → list.eraseP (fun h => passes (check h)) = list.eraseIdx i := by
  induction list with
  | nil =>
      cases found
      exact ⟨rfl, nofun⟩
  | cons h rest ih =>
      rw [chosenIdx, bind_ok] at found
      obtain ⟨holds, checked, found⟩ := found
      cases holds with
      | true =>
          cases found
          have first : passes (check h) = true := by rw [checked, passes]
          refine ⟨by simp [first], ?_⟩
          rintro i ⟨⟩
          simp [first]
      | false =>
          obtain ⟨later, searched, last⟩ := bind_ok.mp found
          cases last
          have skipped : passes (check h) = false := by rw [checked, passes]
          obtain ⟨next, erased⟩ := ih searched
          constructor
          · rw [List.find?_cons_of_neg (by simp [skipped]), next, Option.map_map]
            rfl
          · intro i same
            obtain ⟨j, rfl, rfl⟩ := Option.map_eq_some_iff.mp same
            rw [List.eraseP_cons_of_neg (by simp [skipped]), erased j rfl]
            rfl

/-- A search raises what the check raises for one of the list. -/
theorem chosenIdx_error {check : Handler → Except PyErr Bool} {list : List Handler} {e : PyErr}
    (failed : chosenIdx check list = .error e) : ∃ h ∈ list, check h = .error e := by
  induction list with
  | nil => cases failed
  | cons h rest ih =>
      rw [chosenIdx] at failed
      cases checked : check h with
      | error e' =>
          rw [checked] at failed
          cases failed
          exact ⟨h, List.mem_cons_self, checked⟩
      | ok holds =>
          rw [checked] at failed
          cases holds with
          | true => cases failed
          | false =>
              cases searched : chosenIdx check rest with
              | error e' =>
                  have same : (Except.error e' : Except PyErr (Option (Fin (rest.length + 1)))) =
                      .error e := by
                    simpa [searched] using failed
                  cases same
                  obtain ⟨h', there, raised⟩ := ih searched
                  exact ⟨h', List.mem_cons_of_mem _ there, raised⟩
              | ok later =>
                  rw [searched] at failed
                  cases failed

def MockState.queues (state : MockState) : Queues Handler := ⟨state.handlers, state.recycled⟩

/-- A request that matching does not stop is asked of the two queues. -/
theorem pickHandler_ok {check : Handler → Request → Except PyErr Bool} {state next : MockState}
    {request : Request} {handler : Option Handler}
    (picked : pickHandler check state request = (next, .ok handler)) :
    state.queues.ask (fun h r => passes (check h r)) request = (next.queues, handler) := by
  rw [pickHandler] at picked
  cases first : chosenIdx (check · request) state.handlers with
  | error e =>
      rw [first] at picked
      cases picked
  | ok chosen =>
      rw [first] at picked
      obtain ⟨found, erased⟩ := chosenIdx_ok first
      cases chosen with
      | some i =>
          cases picked
          simp only [Queues.ask, MockState.queues, found, Option.map_some, erased i rfl]
      | none =>
          cases second : chosenIdx (check · request) state.recycled with
          | error e =>
              simp only [second] at picked
              cases picked
          | ok again =>
              simp only [second] at picked
              cases picked
              simp only [Queues.ask, MockState.queues, found, Option.map_none,
                (chosenIdx_ok second).1]

theorem pickHandler_error {check : Handler → Request → Except PyErr Bool}
    {state next : MockState} {request : Request} {e : PyErr}
    (picked : pickHandler check state request = (next, .error e)) :
    next = state ∧ ∃ h ∈ state.handlers ++ state.recycled, check h request = .error e := by
  rw [pickHandler] at picked
  cases first : chosenIdx (check · request) state.handlers with
  | error e' =>
      rw [first] at picked
      cases picked
      obtain ⟨h, there, raised⟩ := chosenIdx_error first
      exact ⟨rfl, h, List.mem_append_left _ there, raised⟩
  | ok chosen =>
      rw [first] at picked
      cases chosen with
      | some i => cases picked
      | none =>
          cases second : chosenIdx (check · request) state.recycled with
          | error e' =>
              simp only [second] at picked
              cases picked
              obtain ⟨h, there, raised⟩ := chosenIdx_error second
              exact ⟨rfl, h, List.mem_append_right _ there, raised⟩
          | ok again =>
              simp only [second] at picked
              cases picked

/-! ## All calls -/

/-- What a caller sees of an entry. -/
def outcomeOf : Entry Handler Request → Outcome
  | .added h => .registered h
  | .asked request answer => .answered request (answer.map Prod.snd)

def Outcome.event? : Outcome → Option (Event Handler Request)
  | .registered h => some (.add h)
  | .answered request _ => some (.ask request)
  | _ => none

theorem event_outcomeOf (entry : Entry Handler Request) :
    (outcomeOf entry).event? = some entry.event := by
  cases entry with
  | added h => rfl
  | asked request answer => rfl

/-- What a caller sees tells the events. -/
theorem events_of_outcomes {past other : List (Entry Handler Request)}
    (same : past.map outcomeOf = other.map outcomeOf) :
    past.map Entry.event = other.map Entry.event := by
  have events := congrArg (List.filterMap Outcome.event?) same
  simpa only [List.filterMap_map, Function.comp_def, event_outcomeOf,
    List.filterMap_eq_map'] using events

theorem registered_outcomeOf (past : List (Entry Handler Request)) :
    registered (past.map outcomeOf) = added past := by
  rw [registered, List.filterMap_map, added]
  congr 1
  funext entry
  cases entry with
  | added h => rfl
  | asked request answer => rfl

theorem registered_filter (outcomes : List Outcome) :
    registered (outcomes.filter Outcome.returned) = registered outcomes := by
  rw [registered, List.filterMap_filter, registered]
  congr 1
  funext outcome
  cases outcome with
  | registered h => rfl
  | refused e => rfl
  | answered request handler => rfl
  | raised request e => rfl

section Tracking

variable {python : Python} {check : Handler → Request → Except PyErr Bool}
  {past : List (Entry Handler Request)} {state : MockState}

/-- One call adds its entry, if it does not raise. -/
theorem step_tracks (tracks : Tracks (fun h r => passes (check h r)) past state.queues)
    (call : Call) : ∃ more : List (Entry Handler Request),
      Tracks (fun h r => passes (check h r)) (past ++ more)
        (step python check state call).1.queues ∧
      more.map outcomeOf = [(step python check state call).2].filter Outcome.returned ∧
      ∀ request e, (step python check state call).2 = .raised request e →
        ∃ h ∈ added past, check h request = .error e := by
  cases call with
  | addResponse args =>
      simp only [step, addResponse]
      cases responseHandler python args with
      | ok h => exact ⟨[.added h], tracks.add h, rfl, nofun⟩
      | error e => exact ⟨[], by simpa using tracks, rfl, nofun⟩
  | addCallback callback url =>
      exact ⟨[.added (callbackHandler callback url)], tracks.add _, rfl, nofun⟩
  | request request =>
      rw [step]
      rcases picked : pickHandler check state request with ⟨next, e | handler⟩
      · obtain ⟨rfl, h, there, raised⟩ := pickHandler_error picked
        refine ⟨[], by simpa using tracks, rfl, ?_⟩
        rintro request e ⟨⟩
        exact ⟨h, tracks.perm.mem_iff.mp there, raised⟩
      · obtain ⟨answer, same, later⟩ := tracks.ask request
        rw [pickHandler_ok picked] at same later
        refine ⟨[.asked request answer], later, ?_, nofun⟩
        rw [List.map_singleton, outcomeOf, ← same]
        rfl

theorem run_tracks (tracks : Tracks (fun h r => passes (check h r)) past state.queues)
    (calls : List Call) : ∃ more : List (Entry Handler Request),
      Tracks (fun h r => passes (check h r)) (past ++ more)
        (run python check state calls).1.queues ∧
      more.map outcomeOf = (run python check state calls).2.filter Outcome.returned ∧
      ∀ request e, .raised request e ∈ (run python check state calls).2 →
        ∃ h ∈ added (past ++ more), check h request = .error e := by
  induction calls generalizing past state with
  | nil => exact ⟨[], by simpa [run] using tracks, rfl, nofun⟩
  | cons call rest ih =>
      obtain ⟨first, tracked, shownFirst, raisedFirst⟩ := @step_tracks python _ _ _ tracks call
      obtain ⟨later, trackedLater, shownLater, raisedLater⟩ := ih tracked
      rw [run]
      refine ⟨first ++ later, ?_, ?_, ?_⟩
      · rw [← List.append_assoc]
        exact trackedLater
      · rw [List.map_append, shownFirst, shownLater, ← List.filter_append]
        rfl
      · intro request e there
        rw [← List.append_assoc]
        rcases List.mem_cons.mp there with here | below
        · obtain ⟨h, known, raised⟩ := raisedFirst request e here.symm
          refine ⟨h, ?_, raised⟩
          simp only [added, List.filterMap_append, List.mem_append]
          exact .inl (.inl known)
        · exact raisedLater request e below

end Tracking

/-- One history fits the calls that did not raise, and in it every request has the handler
that is due (`Fair`).  The two lists are the registered handlers; and only matching itself
can raise. -/
theorem handlers_in_turn (python : Python) (check : Handler → Request → Except PyErr Bool)
    (calls : List Call) :
    (∃! past : List (Entry Handler Request),
      Course (fun h r => passes (check h r)) past ∧
        past.map outcomeOf = (run python check .new calls).2.filter Outcome.returned) ∧
    ((run python check .new calls).1.handlers ++
      (run python check .new calls).1.recycled).Perm
        (registered (run python check .new calls).2) ∧
    ∀ request e, .raised request e ∈ (run python check .new calls).2 →
      ∃ h ∈ registered (run python check .new calls).2, check h request = .error e := by
  obtain ⟨past, tracks, same, raised⟩ :=
    @run_tracks python check [] .new Tracks.start calls
  rw [List.nil_append] at tracks raised
  have known : registered (run python check .new calls).2 = added past := by
    rw [← registered_filter, ← same, registered_outcomeOf]
  refine ⟨⟨past, ⟨tracks.course, same⟩, ?_⟩, ?_, ?_⟩
  · rintro other ⟨course, sameOther⟩
    exact course.unique tracks.course (events_of_outcomes (sameOther.trans same.symm))
  · rw [known]
    exact tracks.perm
  · rw [known]
    exact raised

/-- Two handlers that match anything take turns once; then the first answers again. -/
example (python : Python) (request : Request) :
    (run python (fun _ _ => .ok true) .new
      [.addCallback (.other 0) none, .addCallback (.other 1) none, .request request,
        .request request, .request request]).2 =
      [.registered (callbackHandler (.other 0) none), .registered (callbackHandler (.other 1) none),
        .answered request (some (callbackHandler (.other 0) none)),
        .answered request (some (callbackHandler (.other 1) none)),
        .answered request (some (callbackHandler (.other 0) none))] := rfl

end Blasthttp.Mock
