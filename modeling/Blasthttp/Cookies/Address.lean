/-
# Blasthttp.Cookies.Address -- cookies and IP addresses

A response from an address sets cookies for that address alone, whatever `Domain` it
names.  A request to an address gets the cookies whose domain is the address itself,
and that equality is taken before the address is looked at: a name that ends in an
address, `foo.1.2.3.4`, may widen a cookie onto it.  `sent_keepsAddresses_iff` says when
addresses share with nobody all the same.
-/
import Blasthttp.Cookies.Registrable

namespace Blasthttp.Cookies

open Blasthttp.Rust Blasthttp.Http

set_option autoImplicit false

variable {psl : Str → Option Str}

def isAddress (host : Str) : Bool := (IpAddr.parse host).isSome

/-- Nothing sent to an address comes from elsewhere, and nothing an address set goes
elsewhere. -/
structure KeepsAddresses (events : List Event) (chain : ChainCookies) (uri : Uri) : Prop where
  inward : isAddress (Uri.canonicalHost uri) = true → ∀ cookie ∈ chain.sent uri, ∀ event,
    LatestEvent events event cookie → event.host = Uri.canonicalHost uri
  outward : ∀ cookie ∈ chain.sent uri, ∀ event, LatestEvent events event cookie →
    isAddress event.host = true → Uri.canonicalHost uri = event.host

/-- No cookie was widened onto the address that `uri` names, or it is withheld for its
transport or its path. -/
def NoneWidened (chain : ChainCookies) (uri : Uri) : Prop :=
  isAddress (Uri.canonicalHost uri) = true → ∀ cookie ∈ chain.cookies,
    cookie.hostOnly = false → cookie.domain = Uri.canonicalHost uri →
      ¬ ((cookie.secure = true → uri.isHttps = true) ∧ pathMatches uri.path cookie.path = true)

theorem mem_sent_iff {chain : ChainCookies} {uri : Uri} {host : Str} (found : uri.host = some host)
    {cookie : Cookie} :
    cookie ∈ chain.sent uri ↔
      cookie ∈ chain.cookies ∧ (cookie.secure = true → uri.isHttps = true) ∧
        (if cookie.hostOnly then Uri.canonicalHost uri = cookie.domain
          else domainMatches (Uri.canonicalHost uri) cookie.domain = true) ∧
        pathMatches uri.path cookie.path = true := by
  rw [mem_sent, canonicalHost_of_host found, pathMatches_iff, ← applies_iff, found]
  simp

theorem host_of_isAddress {uri : Uri} (address : isAddress (Uri.canonicalHost uri) = true) :
    ∃ host, uri.host = some host := by
  cases found : uri.host with
  | some host => exact ⟨host, rfl⟩
  | none =>
      unfold Uri.canonicalHost Uri.hostOrEmpty at address
      rw [found] at address
      exact absurd address (by decide)

/-- At an address only the equality of `domain_matches` is left. -/
theorem domainMatches_address {host domain : Str} (address : isAddress host = true) :
    domainMatches host domain = true ↔ host = domain := by
  rw [domainMatches_iff]
  constructor
  · rintro (same | ⟨name, -⟩)
    · exact same
    · unfold isAddress at address
      rw [name] at address
      cases address
  · exact Or.inl

/-- What an address sets stays there, over every run. -/
theorem address_outward {callerNames : List Str} {hops : List Hop} {event : Event} {cookie : Cookie}
    (latest : LatestEvent ((ChainCookies.withCallerCookies callerNames).events psl hops) event
      cookie)
    (address : isAddress event.host = true) :
    cookie.hostOnly = true ∧ cookie.domain = event.host := by
  rcases parsed_domain latest.parsed.2.2.1 with bound | ⟨-, -, name, -⟩
  · exact bound
  · unfold isAddress at address
    rw [name] at address
    cases address

/-- **When addresses share cookies with nobody**: in every state a chain reaches, a
request shares nothing with an address exactly when no cookie was widened onto it. -/
theorem sent_keepsAddresses_iff {callerNames : List Str} {hops : List Hop} {chain : ChainCookies}
    (stored : (ChainCookies.withCallerCookies callerNames).storeAll psl hops = .ok chain)
    (uri : Uri) :
    KeepsAddresses ((ChainCookies.withCallerCookies callerNames).events psl hops) chain uri ↔
      NoneWidened chain uri := by
  constructor
  · rintro ⟨inward, -⟩ address cookie held wide domain ⟨secure, path⟩
    obtain ⟨host, found⟩ := host_of_isAddress address
    have goes : domainMatches (Uri.canonicalHost uri) cookie.domain = true :=
      (domainMatches_address address).mpr domain.symm
    have sent : cookie ∈ chain.sent uri :=
      (mem_sent_iff found).mpr ⟨held, secure, by rw [wide]; exact goes, path⟩
    obtain ⟨event, latest⟩ := held_latest stored held
    have source := inward address cookie sent event latest
    rw [← source] at address
    obtain ⟨bound, -⟩ := address_outward latest address
    rw [wide] at bound
    cases bound
  · intro none
    refine ⟨?_, ?_⟩
    · intro address cookie sent event latest
      obtain ⟨host, found⟩ := host_of_isAddress address
      obtain ⟨held, secure, domain, path⟩ := (mem_sent_iff found).mp sent
      cases scope : cookie.hostOnly with
      | true =>
          rw [scope, if_pos rfl] at domain
          rcases parsed_domain latest.parsed.2.2.1 with ⟨-, own⟩ | ⟨wide, -⟩
          · exact own.symm.trans domain.symm
          · rw [scope] at wide
            cases wide
      | false =>
          rw [scope, if_neg (by simp)] at domain
          have same := (domainMatches_address address).mp domain
          exact absurd ⟨secure, path⟩ (none address cookie held scope same.symm)
    · intro cookie sent event latest address
      obtain ⟨bound, own⟩ := address_outward latest address
      obtain ⟨-, domain⟩ := sent_domain sent
      rw [bound, if_pos rfl] at domain
      exact domain.trans own

theorem sent_keepsAddresses_iff_sibling :
    KeepsAddresses ((ChainCookies.withCallerCookies []).events (domainStr nestedRules) [widenHop])
        ⟨[wideCookie], []⟩ (exampleHost "10.0.0.1" "/") ↔
      NoneWidened ⟨[wideCookie], []⟩ (exampleHost "10.0.0.1" "/") :=
  @sent_keepsAddresses_iff (domainStr nestedRules) [] [widenHop] ⟨[wideCookie], []⟩
    (by decide +kernel) (exampleHost "10.0.0.1" "/")

/-! A name under an address: its last label is in no rule, so the last two are its
registrable domain. -/

def underAddressHop : Hop where
  headers := [("set-cookie".toList, "sid=1; Domain=1.2.3.4".toList)]
  uri := exampleHost "foo.1.2.3.4" "/"
  clock := fun _ => 0

def addressCookie : Cookie where
  name := "sid".toList
  value := "1".toList
  domain := "1.2.3.4".toList
  hostOnly := false
  path := "/".toList
  secure := false

/-- The cookie of `foo.1.2.3.4` goes to `1.2.3.4`. -/
theorem sent_onto_address :
    (ChainCookies.withCallerCookies []).storeAll (domainStr nestedRules) [underAddressHop] =
      .ok ⟨[addressCookie], []⟩ ∧
    ChainCookies.headerFor ⟨[addressCookie], []⟩ (exampleHost "1.2.3.4" "/") =
      some "sid=1".toList ∧
    ¬ KeepsAddresses
      ((ChainCookies.withCallerCookies []).events (domainStr nestedRules) [underAddressHop])
      ⟨[addressCookie], []⟩ (exampleHost "1.2.3.4" "/") := by
  refine ⟨by decide +kernel, by decide +kernel, fun keeps => ?_⟩
  have latest : LatestEvent
      ((ChainCookies.withCallerCookies []).events (domainStr nestedRules) [underAddressHop])
      ⟨underAddressHop.uri, "foo.1.2.3.4".toList,
        ("set-cookie".toList, "sid=1; Domain=1.2.3.4".toList), 0, .stored addressCookie⟩
      addressCookie := ⟨[], [], by decide +kernel, rfl, by simp⟩
  have source := keeps.inward (by decide +kernel) addressCookie (by decide +kernel) _ latest
  exact absurd source (by decide +kernel)

end Blasthttp.Cookies
