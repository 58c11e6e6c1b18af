/-
# Blasthttp.Mock.Dispatch -- one request to the mock

`dispatch_one` picks a handler and makes a response of it, by its callback if it has one;
`request` follows redirects around it, and hands a URL that `should_mock_fn` excludes to
the real client.  Other tasks may register and consume handlers whenever this one waits;
`Session` numbers the times it does.
-/
import Blasthttp.Mock.Handlers
import Blasthttp.Client.SendInner

namespace Blasthttp.Mock

open Blasthttp.Rust Blasthttp.Cookies Blasthttp.Multipart Blasthttp.Client

set_option autoImplicit false

/-! ## The surroundings -/

/-- What a callback returns, awaited if it is a coroutine. -/
inductive CallbackResult where
  | mockResponse (statusCode : UInt16) (text : Str) (headers : PyValue)
  | response (r : Response)
  | other

/-- Python with its tasks and its randomness. -/
structure World where
  python : Python
  /-- The n-th dispatch calls a callback. -/
  callback : Nat → PyValue → Request → Except PyErr CallbackResult
  /-- What the other tasks did to the handlers before the n-th dispatch. -/
  meanwhile : Nat → MockState → MockState
  /-- The scheme and the netloc of `urlparse(url)`. -/
  origin : Str → Except PyErr (Str × Str)
  /-- `urlparse(url).hostname`. -/
  hostname : Str → Except PyErr (Option Str)
  /-- The hashes of the n-th boundary. -/
  hashes : Nat → UInt64 × UInt64

structure Session where
  mock : MockState
  /-- The number of the next dispatch. -/
  clock : Nat

/-! ## Dispatch -/

def makeResponse (url method : Str) (statusCode : UInt16) (body : List UInt8)
    (headers : List Line) : Response where
  url := url
  status := statusCode
  headers := headers
  bodyBytes := body
  redirectChain := []
  certInfo := none
  peerIp := none
  requestUrl := url
  requestMethod := method
  decodeError := none

inductive DispatchPlan where
  | response (r : Response)
  | callback (callback : PyValue) (request : Request)

def noMockError (request : Request) : PyErr :=
  ⟨.runtimeError, "No mock response registered for ".toList ++ request.method ++ [' '] ++
    request.url⟩

def planDispatch (python : Python) (state : MockState) (request : Request) :
    MockState × Except PyErr DispatchPlan :=
  match pickHandler (handlerMatches python) state request with
  | (state, .error e) => (state, .error e)
  | (state, .ok none) => (state, .error (noMockError request))
  | (state, .ok (some h)) =>
      match h.kind with
      | .response r =>
          (state, .ok (.response
            (makeResponse request.url request.method r.statusCode r.body r.headers)))
      | .callback callback => (state, .ok (.callback callback request))

def callbackResultToResponse (python : Python) (request : Request) :
    CallbackResult → Except PyErr Response
  | .mockResponse statusCode text headers => do
      let headers ← normalizeHeaders python (some headers)
      pure (makeResponse request.url request.method statusCode (utf8Bytes text)
        (ensureContentType headers "text/plain; charset=utf-8".toList))
  | .response r => .ok r
  | .other => .error (typeError "callback must return MockResponse or blasthttp.Response")

def dispatchOne (world : World) (session : Session) (request : Request) :
    Session × Except PyErr Response :=
  match planDispatch world.python (world.meanwhile session.clock session.mock) request with
  | (state, .error e) => (⟨state, session.clock + 1⟩, .error e)
  | (state, .ok (.response r)) => (⟨state, session.clock + 1⟩, .ok r)
  | (state, .ok (.callback callback request)) =>
      (⟨state, session.clock + 1⟩,
        world.callback session.clock callback request >>=
          callbackResultToResponse world.python request)

/-! ## Bodies -/

def isSet : Option PyValue → Bool
  | none => false
  | some .none => false
  | some _ => true

def rejectBodyWithFiles (body files : Option PyValue) : Except PyErr Unit :=
  if isSet body && isSet files then
    .error ⟨.valueError, "got both body= and files=; pass only one".toList⟩
  else .ok ()

/-- The bytes of a body that is there, or the given refusal. -/
def bodyBytes (python : Python) (refusal : PyErr) : PyValue → Except PyErr (List UInt8)
  | .str s => .ok (utf8Bytes s)
  | value =>
      match python.byteVec value with
      | some bytes => .ok bytes
      | none => .error refusal

def bodyFromArg (python : Python) (body : Option PyValue) : Except PyErr (List UInt8) :=
  match body with
  | none => .ok []
  | some .none => .ok []
  | some value => bodyBytes python (typeError "body must be str, bytes, or None") value

def coerceBody (python : Python) (body : Option PyValue) : Except PyErr (Option (List UInt8)) :=
  match body with
  | none => .ok none
  | some .none => .ok none
  | some value => do
      let bytes ← bodyBytes python (typeError "body must be bytes, str, or None") value
      pure (some bytes)

/-- `build_multipart`, with the n-th boundary. -/
def multipartBody (world : World) (n : Nat) (files : PyValue) :
    Except PyErr (Str × List UInt8) :=
  (buildMultipart world.python.toPython (world.hashes n).1 (world.hashes n).2 files).mapError
    world.python.multipartError

def multipartType (boundary : Str) : Str := "multipart/form-data; boundary=".toList ++ boundary

def applyBodyAndFiles (world : World) (n : Nat) (body files : Option PyValue)
    (headers : Option (List Line)) :
    Except PyErr (Option (List UInt8) × Option (List Line)) := do
  rejectBodyWithFiles body files
  match files, isSet files with
  | some files, true =>
      let (boundary, bytes) ← multipartBody world n files
      pure (some bytes, some (ensureContentType (headers.getD []) (multipartType boundary)))
  | _, _ =>
      let bytes ← coerceBody world.python body
      pure (bytes, headers)

/-! ## The mock -/

structure RequestArgs where
  url : Str
  method : Option Str
  headers : Option PyValue
  body : Option PyValue
  files : Option PyValue
  followRedirects : Option Bool
  maxRedirects : Option UInt32

/-- A call of `request` that leaves the other arguments out. -/
def plainArgs (url : Str) (method : Option Str) (headers : Option (List Line))
    (body files : Option PyValue) : RequestArgs where
  url := url
  method := method
  headers := headers.map fun lines =>
    .list (lines.map fun line => .tuple [.str line.1, .str line.2])
  body := body
  files := files
  followRedirects := none
  maxRedirects := none

/-- What `getattr` makes of a config. -/
structure Config where
  url : Except PyErr Str
  method : Except PyErr (Option Str)
  headers : Except PyErr (Option (List Line))
  body : Except PyErr PyValue
  files : Except PyErr PyValue

/-- `BatchResult`. -/
structure BatchResult where
  url : Str
  response : Option Response
  error : Option Str

/-- What a call and the await of an `__anext__` come to. -/
inductive Pulled where
  | list (items : List BatchResult)
  | single (item : BatchResult)
  /-- Awaiting raised. -/
  | raised (e : PyErr)
  /-- The call itself raised. -/
  | refused (e : PyErr)

/-- An async iterator, by the number of the pull. -/
abbrev Stream := Nat → Pulled

/-- The keyword arguments; the rate limit is an `f64` that is passed on. -/
structure BatchKwargs where
  concurrency : UInt64
  rateLimit : Option UInt64

/-- A client; `request` passes its arguments on as they came. -/
structure RealClient where
  request : RequestArgs → Except PyErr Response
  requestBatchStream : List Config → BatchKwargs → Except PyErr Stream

structure BlasthttpMock where
  realClient : Option RealClient
  /-- The predicate, at its n-th call. -/
  shouldMockFn : Option (Nat → Str → Except PyErr Bool)

def shouldIntercept (world : World) (mock : BlasthttpMock) (n : Nat) (url : Str) :
    Except PyErr Bool :=
  match mock.shouldMockFn with
  | none => .ok true
  | some f => do
      let host ← world.hostname url
      f n (host.getD [])

def noClientError (url : Str) : PyErr :=
  ⟨.runtimeError, "URL ".toList ++ url ++
    " is excluded by should_mock_fn but no real_client was provided".toList⟩

def delegateRequest (mock : BlasthttpMock) (args : RequestArgs) : Except PyErr Response :=
  match mock.realClient with
  | none => .error (noClientError args.url)
  | some client => client.request args

/-! ## Requests -/

/-- The request that is dispatched for an intercepted URL. -/
def mockedRequest (world : World) (n : Nat) (args : RequestArgs) : Except PyErr Request := do
  rejectBodyWithFiles args.body args.files
  let headers ← normalizeHeaders world.python args.headers
  match args.files, isSet args.files with
  | some files, true =>
      let (boundary, bytes) ← multipartBody world n files
      pure ⟨args.url, args.method.getD "GET".toList,
        ensureContentType headers (multipartType boundary), bytes⟩
  | _, _ =>
      let bytes ← bodyFromArg world.python args.body
      pure ⟨args.url, args.method.getD "GET".toList, headers, bytes⟩

/-- Where a redirect leads; a path keeps the origin if `urlparse` finds it. -/
def nextUrl (world : World) (current : Str) (response : Response) : Option Str :=
  if !isRedirect response.status then none
  else
    let location := response.headers.find? fun header =>
      eqIgnoreAsciiCase header.1 "location".toList
    location.map fun header =>
      match header.2, world.origin current with
      | '/' :: rest, .ok (scheme, netloc) => scheme ++ "://".toList ++ netloc ++ '/' :: rest
      | loc, _ => loc

def tooManyRedirects (maxHops : UInt32) : PyErr :=
  ⟨.runtimeError, "exceeded ".toList ++ decimalText maxHops.toNat ++
    " redirects starting from mock dispatch".toList⟩

/-- The loop of `request`, for so many rounds. -/
def requestLoop (world : World) (follow : Bool) (maxHops : UInt32) :
    Nat → UInt32 → Session → Request → Option (Session × Except PyErr Response)
  | 0, _, _, _ => none
  | rounds + 1, hops, session, request =>
      match dispatchOne world session request with
      | (session, .error e) => some (session, .error e)
      | (session, .ok response) =>
          if !follow then some (session, .ok response)
          else
            match nextUrl world request.url response with
            | none => some (session, .ok response)
            | some loc =>
                if maxHops < hops + 1 then some (session, .error (tooManyRedirects maxHops))
                else
                  requestLoop world follow maxHops rounds (hops + 1) session
                    { request with url := loc }

/-- `request`, its predicate at the n-th call. -/
def request (world : World) (mock : BlasthttpMock) (rounds n : Nat) (session : Session)
    (args : RequestArgs) : Option (Session × Except PyErr Response) :=
  match shouldIntercept world mock n args.url with
  | .error e => some (session, .error e)
  | .ok false => some (session, delegateRequest mock args)
  | .ok true =>
      match mockedRequest world n args with
      | .error e => some (session, .error e)
      | .ok request =>
          requestLoop world (args.followRedirects.getD false) (args.maxRedirects.getD 10)
            rounds 0 session request

/-! ## What a request comes to -/

theorem normalizeHeaders_lines (python : Python) (lines : List Line) :
    normalizeHeaders python
      (some (.list (lines.map fun line => .tuple [.str line.1, .str line.2]))) = .ok lines := by
  rw [normalizeHeaders]
  induction lines with
  | nil => rfl
  | cons line rest ih =>
      rw [List.map_cons, List.mapM_cons, ih]
      rfl

theorem bodyBytes_ok {python : Python} {refusal : PyErr} {value : PyValue} {bytes : List UInt8}
    (read : bodyBytes python refusal value = .ok bytes) (other : PyErr) :
    bodyBytes python other value = .ok bytes := by
  cases value with
  | str s => exact read
  | _ =>
      simp only [bodyBytes] at read ⊢
      split at read
      · exact read
      · cases read

/-- A body that `coerce_body` takes is one that `request` takes. -/
theorem bodyFromArg_ok {python : Python} {body : Option PyValue} {bytes : Option (List UInt8)}
    (read : coerceBody python body = .ok bytes) :
    bodyFromArg python body = .ok (bytes.getD []) := by
  cases body with
  | none =>
      cases read
      rfl
  | some value =>
      cases value with
      | none =>
          cases read
          rfl
      | _ =>
          obtain ⟨found, same, last⟩ := bind_ok.mp read
          cases last
          exact bodyBytes_ok same (typeError "body must be str, bytes, or None")

/-- `request` and a batch make the same of the same arguments. -/
theorem mockedRequest_plainArgs {world : World} {n : Nat} {body files : Option PyValue}
    {headers final : Option (List Line)} {bytes : Option (List UInt8)}
    (applied : applyBodyAndFiles world n body files headers = .ok (bytes, final)) (url : Str)
    (method : Option Str) :
    mockedRequest world n (plainArgs url method headers body files) =
      .ok ⟨url, method.getD "GET".toList, final.getD [], bytes.getD []⟩ := by
  have lines : normalizeHeaders world.python (plainArgs url method headers body files).headers =
      .ok (headers.getD []) := by
    cases headers with
    | none => rfl
    | some lines => exact normalizeHeaders_lines world.python lines
  obtain ⟨_, allowed, applied⟩ := bind_ok.mp applied
  simp only [mockedRequest, lines]
  simp only [plainArgs, allowed]
  split at applied
  · obtain ⟨⟨boundary, content⟩, built, last⟩ := bind_ok.mp applied
    cases last
    rw [built]
    rfl
  · obtain ⟨found, read, last⟩ := bind_ok.mp applied
    cases last
    rw [bodyFromArg_ok read]
    rfl

/-- Without `follow_redirects` a request is one dispatch. -/
theorem requestLoop_unfollowed (world : World) (maxHops : UInt32) (rounds : Nat) (hops : UInt32)
    (session : Session) (request : Request) :
    requestLoop world false maxHops (rounds + 1) hops session request =
      some (dispatchOne world session request) := by
  rw [requestLoop]
  rcases dispatchOne world session request with ⟨next, e | response⟩
  · rfl
  · rfl

theorem request_plainArgs {world : World} {mock : BlasthttpMock} {n : Nat} {url : Str}
    {body files : Option PyValue} {headers final : Option (List Line)}
    {bytes : Option (List UInt8)} (asked : shouldIntercept world mock n url = .ok true)
    (applied : applyBodyAndFiles world n body files headers = .ok (bytes, final))
    (method : Option Str) (session : Session) :
    request world mock 1 n session (plainArgs url method headers body files) =
      some (dispatchOne world session
        ⟨url, method.getD "GET".toList, final.getD [], bytes.getD []⟩) := by
  have intercepted :
      shouldIntercept world mock n (plainArgs url method headers body files).url = .ok true :=
    asked
  rw [request, intercepted]
  simp only [mockedRequest_plainArgs applied]
  exact requestLoop_unfollowed world 10 0 0 session _

end Blasthttp.Mock
