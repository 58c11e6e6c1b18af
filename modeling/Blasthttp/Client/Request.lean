/-
# Blasthttp.Client.Request -- `ClientError` and `build_request`

The request the client hands to `hyper`, with the caller's headers and the cookies the
redirect chain adds.  What the `http` crate accepts as a URI, a method or a header is
its own business and comes in as `HttpCrate`.  `requestPairs_requestHeaders` says
what the `Cookie` headers of the result say: the caller's pairs, with the chain's in
one place among them.
-/
import Blasthttp.Config
import Blasthttp.Cookies.Pairs

namespace Blasthttp.Client

open Blasthttp.Rust Blasthttp.Http Blasthttp.Cookies

set_option autoImplicit false

/-! ## Errors -/

inductive ErrorKind where
  | connection
  | timeout
  | tls
  | invalidUrl
  | tooManyRedirects
  | status (code : Nat)
  | other
  deriving DecidableEq, Repr

structure ClientError where
  message : Str
  kind : ErrorKind
  deriving DecidableEq, Repr

/-! ## Requests -/

/-- What the `http` crate decides: how URIs parse, and whether a request with this
method and these headers can be built. -/
structure HttpCrate where
  parse : Parser
  build : Str → List Line → Except Str Unit

structure Request where
  method : Str
  uri : Uri
  headers : List Line
  body : List UInt8

def hasHeader (name : String) (headers : List Line) : Bool :=
  headers.any fun line => eqIgnoreAsciiCase line.1 name.toList

/-- The chain's cookies behind the caller's, with one `; ` between them. -/
def mergeCookies (value extra : Str) : Str :=
  let caller := (trim value).rdropWhile isStray
  if caller.isEmpty then extra else caller ++ "; ".toList ++ extra

/-- The loop over the caller's headers: the first `Cookie` header takes the chain's
cookies with it.  The flag says whether one did. -/
def emitHeaders (redirectCookies : Option Str) : Bool → List Line → List Line × Bool
  | merged, [] => ([], merged)
  | merged, (name, value) :: rest =>
      match redirectCookies with
      | some extra =>
          if !merged && isCookieHeader name then
            let (out, merged) := emitHeaders redirectCookies true rest
            ((name, mergeCookies value extra) :: out, merged)
          else
            let (out, merged) := emitHeaders redirectCookies merged rest
            ((name, value) :: out, merged)
      | none =>
          let (out, merged) := emitHeaders redirectCookies merged rest
          ((name, value) :: out, merged)

/-- The URI of the request line; in origin form, path and query only. -/
def effectiveUri (http : HttpCrate) (uri : Uri) (originForm : Bool) : Uri :=
  if originForm then
    let text :=
      match uri.query with
      | some query => uri.path ++ '?' :: query
      | none => if uri.path.isEmpty then ['/'] else uri.path
    match http.parse text with
    | .ok parsed => parsed
    | .error _ => uri
  else uri

/-- The headers the defaults add in front of the caller's. -/
def defaultHeaders (uri : Uri) (custom : List Line) (manualHostHeader : Bool) : List Line :=
  (match uri.authority with
    | some authority =>
        if manualHostHeader && !hasHeader "host" custom then
          [("Host".toList, authority.text)]
        else []
    | none => []) ++
  (if hasHeader "user-agent" custom then []
    else [("User-Agent".toList, "blasthttp/0.1.0".toList)]) ++
  (if hasHeader "accept-encoding" custom then []
    else [("Accept-Encoding".toList, "gzip, deflate, br".toList)])

/-- All headers of the request, in the order they are added. -/
def requestHeaders (uri : Uri) (config : RequestConfig) (manualHostHeader : Bool)
    (redirectCookies : Option Str) : List Line :=
  let (custom, merged) := emitHeaders redirectCookies false config.headerList
  defaultHeaders uri config.headerList manualHostHeader ++ custom ++
    match redirectCookies with
    | some extra => if merged then [] else [("Cookie".toList, extra)]
    | none => []

def buildRequest (http : HttpCrate) (uri : Uri) (config : RequestConfig)
    (originForm manualHostHeader : Bool) (redirectCookies : Option Str) :
    Except ClientError Request :=
  let headers := requestHeaders uri config manualHostHeader redirectCookies
  match http.build config.methodOrGet headers with
  | .error e => .error ⟨"failed to build request: ".toList ++ e, .other⟩
  | .ok () =>
      .ok
        { method := config.methodOrGet
          uri := effectiveUri http uri originForm
          headers := headers
          body := config.body.getD [] }

theorem buildRequest_headers {http : HttpCrate} {uri : Uri} {config : RequestConfig}
    {originForm manualHostHeader : Bool} {redirectCookies : Option Str} {request : Request}
    (built : buildRequest http uri config originForm manualHostHeader redirectCookies =
      .ok request) :
    request.headers = requestHeaders uri config manualHostHeader redirectCookies := by
  simp only [buildRequest] at built
  split at built
  · cases built
  · cases built
    rfl

/-! ## The caller's cookies in the request -/

theorem requestPairs_append (xs ys : List Line) :
    requestPairs (xs ++ ys) = requestPairs xs ++ requestPairs ys := by
  simp [requestPairs, List.filter_append, List.flatMap_append]

theorem requestPairs_cons_cookie {name : Str} (cookie : isCookieHeader name = true)
    (value : Str) (rest : List Line) :
    requestPairs ((name, value) :: rest) = cookiePairs value ++ requestPairs rest := by
  simp only [requestPairs, List.filter_cons, cookie, if_true, List.flatMap_cons]

theorem requestPairs_cons_other {name : Str} (other : isCookieHeader name = false)
    (value : Str) (rest : List Line) :
    requestPairs ((name, value) :: rest) = requestPairs rest := by
  simp [requestPairs, other]

theorem requestPairs_of_other {headers : List Line}
    (other : ∀ line ∈ headers, isCookieHeader line.1 = false) : requestPairs headers = [] := by
  have none' : (headers.filter fun line => isCookieHeader line.1) = [] := by
    rw [List.filter_eq_nil_iff]
    intro line there
    simp [other line there]
  rw [requestPairs, none']
  rfl

theorem requestPairs_defaultHeaders (uri : Uri) (custom : List Line) (manualHostHeader : Bool) :
    requestPairs (defaultHeaders uri custom manualHostHeader) = [] := by
  apply requestPairs_of_other
  intro line there
  have host : isCookieHeader "Host".toList = false := by decide
  have agent : isCookieHeader "User-Agent".toList = false := by decide
  have encoding : isCookieHeader "Accept-Encoding".toList = false := by decide
  unfold defaultHeaders at there
  rcases List.mem_append.mp there with there | there
  · rcases List.mem_append.mp there with there | there
    · split at there
      · split at there
        · rw [List.mem_singleton.mp there]
          exact host
        · cases there
      · cases there
    · split at there
      · cases there
      · rw [List.mem_singleton.mp there]
        exact agent
  · split at there
    · cases there
    · rw [List.mem_singleton.mp there]
      exact encoding

/-- A merged header says what the caller wrote and then what the chain adds. -/
theorem cookiePairs_mergeCookies (value extra : Str) :
    cookiePairs (mergeCookies value extra) = cookiePairs value ++ cookiePairs extra := by
  have caller : cookiePairs ((trim value).rdropWhile isStray) = cookiePairs value := by
    rw [cookiePairs_trimEndMatches, cookiePairs_trim]
  unfold mergeCookies
  simp only
  by_cases nothing : ((trim value).rdropWhile isStray).isEmpty = true
  · rw [if_pos nothing, ← caller, List.isEmpty_iff.mp nothing]
    rfl
  · rw [if_neg nothing, cookiePairs_join, caller]

theorem emitHeaders_merged (extra : Option Str) :
    ∀ headers : List Line, emitHeaders extra true headers = (headers, true)
  | [] => rfl
  | (name, value) :: rest => by
      unfold emitHeaders
      rw [emitHeaders_merged extra rest]
      cases extra <;> rfl

/-- The emitted headers say what the caller's do, with the chain's pairs somewhere
among them if they were merged. -/
theorem requestPairs_emitHeaders (extra : Str) :
    ∀ headers : List Line,
      (∃ front back, (emitHeaders (some extra) false headers).2 = true ∧
        requestPairs headers = front ++ back ∧
        requestPairs (emitHeaders (some extra) false headers).1 =
          front ++ cookiePairs extra ++ back) ∨
      ((emitHeaders (some extra) false headers).2 = false ∧
        requestPairs (emitHeaders (some extra) false headers).1 = requestPairs headers)
  | [] => .inr ⟨rfl, rfl⟩
  | (name, value) :: rest => by
      unfold emitHeaders
      cases cookie : isCookieHeader name with
      | true =>
          refine .inl ⟨cookiePairs value, requestPairs rest, ?_, ?_, ?_⟩
          · simp [emitHeaders_merged]
          · exact requestPairs_cons_cookie cookie value rest
          · simp only [Bool.not_false, Bool.and_self, if_true, emitHeaders_merged]
            rw [requestPairs_cons_cookie cookie, cookiePairs_mergeCookies]
      | false =>
          simp only [Bool.not_false, Bool.and_false, Bool.false_eq_true, if_false]
          rw [requestPairs_cons_other cookie, requestPairs_cons_other cookie]
          exact requestPairs_emitHeaders extra rest

theorem emitHeaders_none : ∀ (merged : Bool) (headers : List Line),
    (emitHeaders none merged headers).1 = headers
  | _, [] => rfl
  | merged, (name, value) :: rest => by
      unfold emitHeaders
      simp only
      rw [emitHeaders_none merged rest]

/-- The pairs of a request: the caller's, with the chain's somewhere among them. -/
theorem requestPairs_requestHeaders (uri : Uri) (config : RequestConfig) (manualHostHeader : Bool)
    (redirectCookies : Option Str) :
    ∃ front back, requestPairs config.headerList = front ++ back ∧
      requestPairs (requestHeaders uri config manualHostHeader redirectCookies) =
        front ++ (redirectCookies.elim [] cookiePairs) ++ back := by
  unfold requestHeaders
  cases redirectCookies with
  | none =>
      refine ⟨requestPairs config.headerList, [], by simp, ?_⟩
      rw [requestPairs_append, requestPairs_append, requestPairs_defaultHeaders, emitHeaders_none]
      simp [requestPairs]
  | some extra =>
      rcases requestPairs_emitHeaders extra config.headerList with
        ⟨front, back, merged, split, pairs⟩ | ⟨apart, pairs⟩
      · refine ⟨front, back, split, ?_⟩
        rw [requestPairs_append, requestPairs_append, requestPairs_defaultHeaders, pairs]
        simp [merged, requestPairs]
      · refine ⟨requestPairs config.headerList, [], by simp, ?_⟩
        have own : requestPairs [("Cookie".toList, extra)] = cookiePairs extra := by
          rw [requestPairs_cons_cookie (by decide)]
          exact List.append_nil _
        rw [requestPairs_append, requestPairs_append, requestPairs_defaultHeaders, pairs]
        simp only [apart, Bool.false_eq_true, if_false, own]
        simp

end Blasthttp.Client
