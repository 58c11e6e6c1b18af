/-
# Blasthttp.Cookies.Chain -- `ChainCookies` of `cookies.rs`

A redirect chain's cookies.  One line of `store` is a `Verdict`, decided by `judge`
from the state so far, and its effect, `keep`; the public suffix list enters only as
`psl`, the function `psl::domain_str`.  `clock` gives the reading of the system clock
at each header line.
-/
import Mathlib.Data.List.Sort
import Blasthttp.Cookies.Date
import Blasthttp.Http.Uri
import Blasthttp.Rust.IpAddr

namespace Blasthttp.Cookies

open Blasthttp.Rust Blasthttp.Http

set_option autoImplicit false

/-- A header line: name and value. -/
abbrev Line := Str × Str

def maxCookieBytes : Nat := 4096
def maxCookies : Nat := 50
def maxChainBytes : Nat := 8192

/-- What a cookie costs against the budget: the pair, its `=` and the joining `; `. -/
def entrySize (name value : Str) : Nat := byteLen name + byteLen value + 3

structure Cookie where
  name : Str
  value : Str
  domain : Str
  hostOnly : Bool
  path : Str
  secure : Bool
  deriving DecidableEq, Repr

/-- The names `store` decided not to keep, each list without repetitions. -/
structure Rejected where
  callerOwned : List Str
  overLimit : List Str
  deriving DecidableEq

def Rejected.note (list : List Str) (name : Str) : List Str :=
  if name ∈ list then list else list ++ [name]

structure ChainCookies where
  cookies : List Cookie
  callerNames : List Str
  deriving DecidableEq

def ChainCookies.withCallerCookies (callerNames : List Str) : ChainCookies where
  cookies := []
  callerNames := callerNames

/-! ## Hosts and paths -/

/-- Lowercase, without the brackets of an IPv6 literal and without trailing dots. -/
def canonicalHost (host : Str) : Str :=
  let inner :=
    match host with
    | '[' :: rest => if rest.getLast? = some ']' then rest.dropLast else host
    | _ => host
  toAsciiLowercase (inner.rdropWhile (· = '.'))

def isPublicSuffix (psl : Str → Option Str) (domain : Str) : Bool := (psl domain).isNone

def registrable (psl : Str → Option Str) (host : Str) : Option Str := psl host

/-- The character in front of a suffix is the last one of what is left without it. -/
def domainMatches (host domain : Str) : Bool :=
  if host = domain then true
  else if (IpAddr.parse host).isSome then false
  else
    domain.length < host.length && domain.isSuffixOf host &&
      (host.take (host.length - domain.length)).getLast? = some '.'

def pathMatches (requestPath cookiePath : Str) : Bool :=
  if requestPath = cookiePath then true
  else if !cookiePath.isPrefixOf requestPath then false
  else cookiePath.getLast? = some '/' || (requestPath.drop cookiePath.length).head? = some '/'

/-- Everything up to the last `/`, which is not kept unless it is the first. -/
def defaultPath (requestPath : Str) : Str :=
  match requestPath with
  | '/' :: _ =>
      let directory := (requestPath.rdropWhile (· ≠ '/')).dropLast
      if directory.isEmpty then ['/'] else directory
  | _ => ['/']

/-! ## Parsing a `Set-Cookie` value -/

/-- The attributes read so far. -/
structure Attributes where
  domain : Option Str
  path : Option Str
  secure : Bool
  maxAge : Option Int
  expires : Option Int

def Attributes.read (attrs : Attributes) (part : Str) : Except Panic Attributes :=
  let attr := trim part
  let (key, aval) :=
    match splitOnce '=' attr with
    | some (k, v) => (trim k, trim v)
    | none => (attr, [])
  if eqIgnoreAsciiCase key "domain".toList then
    let d := canonicalHost (aval.dropWhile (· = '.'))
    .ok (if d.isEmpty then attrs else { attrs with domain := some d })
  else if eqIgnoreAsciiCase key "path".toList then
    .ok (if aval.head? = some '/' then { attrs with path := some aval } else attrs)
  else if eqIgnoreAsciiCase key "secure".toList then .ok { attrs with secure := true }
  else if eqIgnoreAsciiCase key "max-age".toList then
    .ok { attrs with maxAge := parseI64 aval }
  else if eqIgnoreAsciiCase key "expires".toList then
    match parseHttpDate aval with
    | .error panic => .error panic
    | .ok when' => .ok { attrs with expires := when' }
  else .ok attrs

def Attributes.readAll (attrs : Attributes) : List Str → Except Panic Attributes
  | [] => .ok attrs
  | part :: rest =>
      match attrs.read part with
      | .error panic => .error panic
      | .ok attrs => attrs.readAll rest

/-- The domain a cookie is stored under and whether it is host-only; `none` when the
`Domain` attribute is not one the host may set. -/
def cookieScope (psl : Str → Option Str) (requestHost : Str) : Option Str → Option (Str × Bool)
  | none => some (requestHost, true)
  | some d =>
      if !domainMatches requestHost d then none
      else if (IpAddr.parse requestHost).isSome then some (requestHost, true)
      else if isPublicSuffix psl d then
        if d = requestHost then some (requestHost, true) else none
      else if registrable psl requestHost ≠ registrable psl d then none
      else some (d, false)

/-- `Max-Age` wins over `Expires`. -/
def Attributes.expired (attrs : Attributes) (now : Int) : Bool :=
  match attrs.maxAge with
  | some secs => secs ≤ 0
  | none =>
      match attrs.expires with
      | some when' => when' ≤ now
      | none => false

/-- The name and value of a `Set-Cookie` value, and its attribute parts. -/
def splitSetCookie (value : Str) : Option (Str × Str × List Str) :=
  match value.splitOn ';' with
  | [] => none
  | first :: parts =>
      match splitOnce '=' (trim first) with
      | none => none
      | some (name, val) => if (trim name).isEmpty then none else some (trim name, trim val, parts)

def parseSetCookie (psl : Str → Option Str) (value requestHost requestPath : Str) (now : Int) :
    Except Panic (Option (Cookie × Bool)) :=
  match splitSetCookie value with
  | none => .ok none
  | some (name, val, parts) =>
      match Attributes.readAll ⟨none, none, false, none, none⟩ parts with
      | .error panic => .error panic
      | .ok attrs =>
          match cookieScope psl requestHost attrs.domain with
          | none => .ok none
          | some (domain, hostOnly) =>
              let cookie : Cookie :=
                { name := name
                  value := val
                  domain := domain
                  hostOnly := hostOnly
                  path := attrs.path.getD (defaultPath requestPath)
                  secure := attrs.secure }
              .ok (some (cookie, attrs.expired now))

/-! ## Storing -/

/-- What `store` makes of one header line. -/
inductive Verdict where
  /-- Not a `Set-Cookie`, or one that does not parse. -/
  | ignored
  | callerOwned (cookie : Cookie)
  | overLimit (cookie : Cookie)
  /-- Expired: whatever is held under its key goes. -/
  | expired (cookie : Cookie)
  | stored (cookie : Cookie)
  deriving DecidableEq

/-- §5.3 step 11: same name, domain and path. -/
def Cookie.sameKey (cookie c : Cookie) : Bool :=
  c.name = cookie.name && c.domain = cookie.domain && c.path = cookie.path

def ChainCookies.bytes (chain : ChainCookies) : Nat :=
  (chain.cookies.map fun c => entrySize c.name c.value).sum

def ChainCookies.replacing (chain : ChainCookies) (cookie : Cookie) : Option Nat :=
  chain.cookies.findIdx? cookie.sameKey

/-- The bytes the replaced cookie gives back. -/
def ChainCookies.freed (chain : ChainCookies) (cookie : Cookie) : Nat :=
  match chain.replacing cookie with
  | none => 0
  | some i =>
      match chain.cookies[i]? with
      | some c => entrySize c.name c.value
      | none => 0

/-- No room for a new cookie, by number or by bytes. -/
def ChainCookies.full (chain : ChainCookies) (cookie : Cookie) : Bool :=
  let held := chain.cookies.length - if (chain.replacing cookie).isSome then 1 else 0
  maxCookies ≤ held ||
    maxChainBytes < chain.bytes - chain.freed cookie + entrySize cookie.name cookie.value

def ChainCookies.judge (psl : Str → Option Str) (chain : ChainCookies) (host path : Str)
    (now : Int) (line : Line) : Except Panic Verdict :=
  if !eqIgnoreAsciiCase line.1 "set-cookie".toList then .ok .ignored
  else
    match parseSetCookie psl line.2 host path now with
    | .error panic => .error panic
    | .ok none => .ok .ignored
    | .ok (some (cookie, expired)) =>
        if cookie.name ∈ chain.callerNames then .ok (.callerOwned cookie)
        else if maxCookieBytes < entrySize cookie.name cookie.value then .ok (.overLimit cookie)
        else if expired then .ok (.expired cookie)
        else if chain.full cookie then .ok (.overLimit cookie)
        else .ok (.stored cookie)

/-- `self.cookies.remove(i)` for the cookie being replaced, if there is one. -/
def ChainCookies.remove (chain : ChainCookies) (cookie : Cookie) : List Cookie :=
  match chain.replacing cookie with
  | none => chain.cookies
  | some i => chain.cookies.eraseIdx i

def ChainCookies.keep (chain : ChainCookies) : Verdict → ChainCookies
  | .expired cookie => { chain with cookies := chain.remove cookie }
  | .stored cookie => { chain with cookies := chain.remove cookie ++ [cookie] }
  | _ => chain

def Rejected.record (rejected : Rejected) : Verdict → Rejected
  | .callerOwned cookie =>
      { rejected with callerOwned := Rejected.note rejected.callerOwned cookie.name }
  | .overLimit cookie =>
      { rejected with overLimit := Rejected.note rejected.overLimit cookie.name }
  | _ => rejected

/-- The loop of `store` from header line `n` on. -/
def ChainCookies.storeLoop (psl : Str → Option Str) (host path : Str) (clock : Nat → Int) :
    Nat → ChainCookies → Rejected → List Line → Except Panic (ChainCookies × Rejected)
  | _, chain, rejected, [] => .ok (chain, rejected)
  | n, chain, rejected, line :: rest =>
      match chain.judge psl host path (clock n) line with
      | .error panic => .error panic
      | .ok verdict =>
          storeLoop psl host path clock (n + 1) (chain.keep verdict) (rejected.record verdict) rest

def ChainCookies.store (psl : Str → Option Str) (chain : ChainCookies) (headers : List Line)
    (uri : Uri) (clock : Nat → Int) : Except Panic (ChainCookies × Rejected) :=
  match uri.host with
  | none => .ok (chain, ⟨[], []⟩)
  | some host =>
      storeLoop psl (canonicalHost host) uri.path clock 0 chain ⟨[], []⟩ headers

/-! ## Sending -/

/-- Whether a stored cookie goes to a request. -/
def Cookie.applies (cookie : Cookie) (host path : Str) (secureTransport : Bool) : Bool :=
  if cookie.secure && !secureTransport then false
  else if cookie.hostOnly then (if host ≠ cookie.domain then false else pathMatches path cookie.path)
  else if !domainMatches host cookie.domain then false
  else pathMatches path cookie.path

/-- The cookies for `uri`, longer paths first, otherwise as they were stored. -/
def ChainCookies.matched (chain : ChainCookies) (host : Str) (uri : Uri) : List Cookie :=
  (chain.cookies.filter fun c => c.applies host uri.path uri.isHttps).insertionSort
    fun a b => byteLen b.path ≤ byteLen a.path

def Cookie.text (cookie : Cookie) : Str := cookie.name ++ '=' :: cookie.value

def ChainCookies.headerFor (chain : ChainCookies) (uri : Uri) : Option Str :=
  match uri.host with
  | none => none
  | some host =>
      let matched := chain.matched (canonicalHost host) uri
      if matched.isEmpty then none
      else some ("; ".toList.intercalate (matched.map Cookie.text))

/-! ## The caller's names -/

def isCookieHeader (name : Str) : Bool := eqIgnoreAsciiCase name "cookie".toList

/-- One `;`-separated part of a caller's `Cookie` header. -/
def addCallerName (names : List Str) (pair : Str) : List Str :=
  match splitOnce '=' pair with
  | none => names
  | some (n, _) => if (trim n).isEmpty ∨ trim n ∈ names then names else names ++ [trim n]

def addCallerNames (names : List Str) (line : Line) : List Str :=
  if isCookieHeader line.1 then (line.2.splitOn ';').foldl addCallerName names else names

def callerCookieNames (headers : List Line) : List Str := headers.foldl addCallerNames []

end Blasthttp.Cookies
