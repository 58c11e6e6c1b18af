/-
# Blasthttp.Cookies.Scope -- where a stored cookie may go

`domainMatches`, `pathMatches` and `applies` in terms of suffixes and prefixes, and the
scope of every cookie sent over a whole chain: the line it came from, the transport,
the path, and the domain that covers both the host that set it and the host it goes
to (`headerFor_scope`).  Nothing here depends on what the public suffix list says.
-/
import Blasthttp.Cookies.Trace

namespace Blasthttp.Cookies

open Blasthttp.Rust Blasthttp.Http

set_option autoImplicit false

variable {psl : Str → Option Str}

/-- `host` is `domain` or a name under it. -/
def Under (host domain : Str) : Prop := host = domain ∨ '.' :: domain <:+ host

/-- `path` is `cookiePath`, or goes on from it at a `/`. -/
def Below (path cookiePath : Str) : Prop :=
  path = cookiePath ∨
    ∃ rest, path = cookiePath ++ rest ∧ (cookiePath.getLast? = some '/' ∨ rest.head? = some '/')

theorem domainMatches_iff {host domain : Str} :
    domainMatches host domain = true ↔
      host = domain ∨ (IpAddr.parse host = none ∧ '.' :: domain <:+ host) := by
  unfold domainMatches
  by_cases same : host = domain
  · simp [same]
  · rw [if_neg same]
    by_cases name : IpAddr.parse host = none
    · rw [name]
      simp only [Option.isSome_none, Bool.false_eq_true, if_false, Bool.and_eq_true,
        decide_eq_true_eq, same, false_or, true_and, List.isSuffixOf_iff_suffix]
      constructor
      · rintro ⟨⟨-, start, rfl⟩, dot⟩
        rw [List.length_append, Nat.add_sub_cancel, List.take_left] at dot
        obtain ⟨start', rfl⟩ := List.getLast?_eq_some_iff.mp dot
        exact ⟨start', by simp⟩
      · rintro ⟨start, rfl⟩
        have length : (start ++ '.' :: domain).length - domain.length = start.length + 1 := by
          rw [List.length_append, List.length_cons]
          omega
        have front : (start ++ '.' :: domain).take (start.length + 1) = start ++ ['.'] := by
          rw [List.take_append, List.take_of_length_le (Nat.le_succ _)]
          simp
        refine ⟨⟨?_, (List.suffix_cons _ _).trans (List.suffix_append _ _)⟩, ?_⟩
        · rw [List.length_append, List.length_cons]
          omega
        · rw [length, front, List.getLast?_concat]
    · cases parsed : IpAddr.parse host with
      | none => exact absurd parsed name
      | some ip => simp [same]

theorem domainMatches_under {host domain : Str} (covers : domainMatches host domain = true) :
    Under host domain := by
  rcases domainMatches_iff.mp covers with same | ⟨-, under⟩
  · exact .inl same
  · exact .inr under

theorem pathMatches_iff {path cookiePath : Str} :
    pathMatches path cookiePath = true ↔ Below path cookiePath := by
  unfold pathMatches Below
  by_cases same : path = cookiePath
  · simp [same]
  · rw [if_neg same]
    by_cases starts : cookiePath <+: path
    · obtain ⟨rest, rfl⟩ := starts
      have front : cookiePath.isPrefixOf (cookiePath ++ rest) = true := by simp
      rw [front]
      simp [same]
    · have front : cookiePath.isPrefixOf path = false := by
        rw [Bool.eq_false_iff]
        intro there
        exact starts (List.isPrefixOf_iff_prefix.mp there)
      rw [front]
      simp only [Bool.not_false, if_true, Bool.false_eq_true, same, false_or, false_iff]
      rintro ⟨rest, split, -⟩
      exact starts ⟨rest, split.symm⟩

/-- When a cookie applies to a request. -/
theorem applies_iff {cookie : Cookie} {host path : Str} {secureTransport : Bool} :
    cookie.applies host path secureTransport = true ↔
      (cookie.secure = true → secureTransport = true) ∧
        (if cookie.hostOnly then host = cookie.domain
          else domainMatches host cookie.domain = true) ∧
        Below path cookie.path := by
  rw [← pathMatches_iff]
  unfold Cookie.applies
  cases cookie.secure <;> cases secureTransport <;> cases cookie.hostOnly <;>
    cases domainMatches host cookie.domain <;> by_cases same : host = cookie.domain <;>
      simp [same]

/-- A widened cookie's domain stands above the host that set it, inside the same
registrable domain; any other cookie is bound to that host. -/
theorem parsed_domain {value host path : Str} {now : Int} {cookie : Cookie} {expired : Bool}
    (parsed : parseSetCookie psl value host path now = .ok (some (cookie, expired))) :
    (cookie.hostOnly = true ∧ cookie.domain = host) ∨
    (cookie.hostOnly = false ∧ Under host cookie.domain ∧ IpAddr.parse host = none ∧
      psl cookie.domain ≠ none ∧ psl host = psl cookie.domain) := by
  obtain ⟨-, asked, scope⟩ := parseSetCookie_spec parsed
  rcases cookieScope_spec scope with bound | ⟨wide, covers, name, listed, same⟩
  · exact .inl bound
  · exact .inr ⟨wide, domainMatches_under covers, name, listed, same⟩

/-- A cookie set by `source` and sent to `target`: where both stand. -/
def SharedDomain (psl : Str → Option Str) (source target : Str) : Prop :=
  target = source ∨
    ∃ domain, psl domain ≠ none ∧ psl source = psl domain ∧ Under source domain ∧
      Under target domain

/-- **Scope over a whole chain.** Every pair sent to `u` is the latest kept line of its
key, over the right transport, path and domain. -/
theorem headerFor_scope {callerNames : List Str} {hops : List Hop} {chain : ChainCookies}
    (stored : (ChainCookies.withCallerCookies callerNames).storeAll psl hops = .ok chain)
    {u : Uri} {text : Str} (sent : chain.headerFor u = some text) {pair : Str × Str}
    (there : pair ∈ cookiePairs text) :
    ∃ event cookie source target,
      LatestEvent ((ChainCookies.withCallerCookies callerNames).events psl hops) event cookie ∧
      pair = (cookie.name, cookie.value) ∧
      eqIgnoreAsciiCase event.line.1 "set-cookie".toList = true ∧
      parseSetCookie psl event.line.2 (canonicalHost source) event.uri.path event.now =
        .ok (some (cookie, false)) ∧
      event.uri.host = some source ∧ u.host = some target ∧
      (cookie.secure = true → u.scheme = some "https".toList) ∧
      Below u.path cookie.path ∧
      SharedDomain psl (canonicalHost source) (canonicalHost target) := by
  obtain ⟨target, found, pairs⟩ := cookiePairs_headerFor stored sent
  rw [pairs] at there
  obtain ⟨cookie, matched, rfl⟩ := List.mem_map.mp there
  obtain ⟨held, applies⟩ := mem_matched.mp matched
  obtain ⟨event, latest⟩ := held_latest stored held
  obtain ⟨⟨source, from', canonical⟩, named, parsed, -⟩ := latest.parsed
  obtain ⟨transport, domain, below⟩ := applies_iff.mp applies
  rw [canonical] at parsed
  refine ⟨event, cookie, source, target, latest, rfl, named, parsed, from', found, ?_, below, ?_⟩
  · intro secure
    simpa [Uri.isHttps] using transport secure
  · rcases parsed_domain parsed with ⟨bound, own⟩ | ⟨wide, under, -, listed, same⟩
    · rw [bound, if_pos rfl] at domain
      exact .inl (domain.trans own)
    · rw [wide, if_neg (by simp)] at domain
      exact .inr ⟨cookie.domain, listed, same, under, domainMatches_under domain⟩

/-! A login at `auth.example.com` that hands a cookie to `app.example.com`. -/

def exampleHost (host path : String) : Uri where
  scheme := some "https".toList
  authority := some ⟨host.toList, host.toList, none⟩
  path := path.toList
  query := none

/-- The public suffix list as far as names under `example.com` go. -/
def exampleList (name : Str) : Option Str :=
  if ".example.com".toList.isSuffixOf ('.' :: name) then some "example.com".toList else none

def loginHop : Hop where
  headers := [("Set-Cookie".toList, "sid=1; Domain=example.com; Path=/app; Secure".toList)]
  uri := exampleHost "auth.example.com" "/login"
  clock := fun _ => 0

def loginCookie : Cookie where
  name := "sid".toList
  value := "1".toList
  domain := "example.com".toList
  hostOnly := false
  path := "/app".toList
  secure := true

theorem headerFor_scope_login :
    ∃ event cookie source target,
      LatestEvent ((ChainCookies.withCallerCookies []).events exampleList [loginHop]) event
        cookie ∧
      ("sid".toList, "1".toList) = (cookie.name, cookie.value) ∧
      eqIgnoreAsciiCase event.line.1 "set-cookie".toList = true ∧
      parseSetCookie exampleList event.line.2 (canonicalHost source) event.uri.path event.now =
        .ok (some (cookie, false)) ∧
      event.uri.host = some source ∧
      (exampleHost "app.example.com" "/app/home").host = some target ∧
      (cookie.secure = true → (exampleHost "app.example.com" "/app/home").scheme =
        some "https".toList) ∧
      Below (exampleHost "app.example.com" "/app/home").path cookie.path ∧
      SharedDomain exampleList (canonicalHost source) (canonicalHost target) :=
  @headerFor_scope exampleList [] [loginHop] ⟨[loginCookie], []⟩ (by decide +kernel)
    (exampleHost "app.example.com" "/app/home") "sid=1".toList (by decide +kernel)
    ("sid".toList, "1".toList) (by decide +kernel)

end Blasthttp.Cookies
