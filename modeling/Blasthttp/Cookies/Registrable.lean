/-
# Blasthttp.Cookies.Registrable -- cookies and registrable domains

`domainStr` is `psl::domain_str` over a list of rules: the public suffix of a name and
the label in front of it.  A `Domain` is checked when a cookie is stored, between the
host that sets it and the attribute; where it goes is decided by labels alone.  The
two agree on a host exactly when the host's own public suffix lies above the `Domain`
(`domainStr_under_iff`), so a cookie stays within its registrable domain in just the
chains where no suffix nested below the `Domain` gets in between
(`sent_withinRegistrable_iff`).
-/
import Blasthttp.Cookies.Scope
import Blasthttp.Lib.SuffixList

namespace Blasthttp.Cookies

open Blasthttp.Rust Blasthttp.Http Blasthttp.Lib

set_option autoImplicit false

/-! ## The public suffix list -/

abbrev SuffixRules := List (SuffixList.Rule Str)

def labels (name : Str) : List Str := name.splitOn '.'

def dotted (labels : List Str) : Str := ['.'].intercalate labels

/-- The number of labels in the public suffix of `name`. -/
def publicSuffixLength (rules : SuffixRules) (name : Str) : Nat :=
  SuffixList.suffixLength rules (labels name)

/-- `psl::domain_str`: the public suffix with one more label, unless the suffix is
empty or nothing but a dot stands in front of it.  A trailing root dot never gets
here, `canonical_host` has dropped it. -/
def domainStr (rules : SuffixRules) (name : Str) : Option Str :=
  let parts := labels name
  let front := parts.length - publicSuffixLength rules name
  if (dotted (parts.drop front)).isEmpty then none
  else if (parts.take front).flatten.isEmpty && front ≤ 1 then none
  else some (dotted (parts.drop (front - 1)))

theorem labels_dotted {parts : List Str} (some' : parts ≠ []) (plain : ∀ part ∈ parts, '.' ∉ part) :
    labels (dotted parts) = parts :=
  List.splitOn_intercalate '.' plain some'

theorem labels_under {host domain : Str} (under : Under host domain) :
    ∃ front, labels host = front ++ labels domain := by
  rcases under with rfl | ⟨front, rfl⟩
  · exact ⟨[], rfl⟩
  · exact ⟨labels front, List.splitOn_append_cons_self front domain⟩

/-- A registrable domain is one label more than the public suffix. -/
theorem labels_domainStr {rules : SuffixRules} {name r : Str} (found : domainStr rules name = some r) :
    publicSuffixLength rules name < (labels name).length ∧
      labels r = (labels name).drop
        ((labels name).length - publicSuffixLength rules name - 1) := by
  simp only [domainStr] at found
  split at found
  · cases found
  · split at found
    · cases found
    · rename_i suffix front
      cases found
      have room : publicSuffixLength rules name < (labels name).length := by
        by_contra all
        have nothing : (labels name).length - publicSuffixLength rules name = 0 := by omega
        rw [nothing] at front
        exact front (by simp)
      refine ⟨room, labels_dotted ?_ ?_⟩
      · rw [Ne, List.drop_eq_nil_iff]
        omega
      · intro part there
        exact not_mem_of_mem_splitOn (List.mem_of_mem_drop there)

/-- A name under a domain ends in the domain's own labels. -/
theorem labels_drop_under {host domain : Str} {front : List Str}
    (split : labels host = front ++ labels domain) {k : Nat} (small : k ≤ (labels domain).length) :
    (labels host).drop ((labels host).length - k) =
      (labels domain).drop ((labels domain).length - k) := by
  have place : (labels host).length - k = front.length + ((labels domain).length - k) := by
    rw [split, List.length_append]
    omega
  rw [place, split, List.drop_append]
  simp

/-- A suffix that stays inside the domain is the domain's. -/
theorem publicSuffixLength_under {rules : SuffixRules} {host domain : Str} {front : List Str}
    (split : labels host = front ++ labels domain)
    (inside : publicSuffixLength rules host < (labels domain).length) :
    publicSuffixLength rules host = publicSuffixLength rules domain := by
  unfold publicSuffixLength at inside ⊢
  rw [split] at inside ⊢
  exact SuffixList.suffixLength_append inside

/-- **When names under a domain share its registrable domain.** -/
theorem domainStr_under_iff {rules : SuffixRules} {host domain r : Str} (under : Under host domain)
    (registered : domainStr rules domain = some r) :
    domainStr rules host = some r ↔
      publicSuffixLength rules host < (labels domain).length := by
  obtain ⟨room, top⟩ := labels_domainStr registered
  obtain ⟨front, split⟩ := labels_under under
  constructor
  · intro same
    obtain ⟨hostRoom, hostTop⟩ := labels_domainStr same
    have lengths := congrArg List.length (top.symm.trans hostTop)
    rw [List.length_drop, List.length_drop] at lengths
    omega
  · intro inside
    have shared := publicSuffixLength_under split inside
    unfold domainStr at registered ⊢
    simp only at registered ⊢
    rw [shared, labels_drop_under split room.le]
    split at registered
    · cases registered
    · rename_i suffix
      split at registered
      · cases registered
      · rename_i ahead
        rw [if_neg suffix]
        have hostAhead : ¬ (((labels host).take
            ((labels host).length - publicSuffixLength rules domain)).flatten.isEmpty &&
              (labels host).length - publicSuffixLength rules domain ≤ 1) = true := by
          intro alone
          rw [Bool.and_eq_true, decide_eq_true_eq] at alone
          have nothing : front = [] := by
            have length := congrArg List.length split
            rw [List.length_append] at length
            exact List.length_eq_zero_iff.mp (by omega)
          rw [nothing, List.nil_append] at split
          rw [split] at alone
          exact ahead (by rw [Bool.and_eq_true, decide_eq_true_eq]; exact alone)
        rw [if_neg hostAhead, ← registered]
        have one := labels_drop_under split room
        simp only [Nat.succ_eq_add_one, Nat.sub_add_eq] at one
        rw [one]

/-! ## Where cookies go -/

/-- The cookies `header_for` prints for `uri`. -/
def ChainCookies.sent (chain : ChainCookies) (uri : Uri) : List Cookie :=
  match uri.host with
  | none => []
  | some host => chain.matched (canonicalHost host) uri

/-- The canonical host of a request. -/
def Uri.canonicalHost (uri : Uri) : Str := Cookies.canonicalHost uri.hostOrEmpty

/-- Every cookie sent to `uri` was set by that very host or by one with the same
registrable domain. -/
def WithinRegistrable (rules : SuffixRules) (events : List Event) (chain : ChainCookies)
    (uri : Uri) : Prop :=
  ∀ cookie ∈ chain.sent uri, ∀ event, LatestEvent events event cookie →
    Uri.canonicalHost uri = event.host ∨
      ∃ r, domainStr rules (Uri.canonicalHost uri) = some r ∧ domainStr rules event.host = some r

/-- No cookie held that applies to `uri` has a `Domain` at or below which the host's own
public suffix ends. -/
def NoNestedSuffix (rules : SuffixRules) (chain : ChainCookies) (uri : Uri) : Prop :=
  ∀ host, uri.host = some host → ∀ cookie ∈ chain.cookies,
    cookie.applies (canonicalHost host) uri.path uri.isHttps = true → cookie.hostOnly = false →
      publicSuffixLength rules (canonicalHost host) < (labels cookie.domain).length

theorem canonicalHost_of_host {uri : Uri} {host : Str} (found : uri.host = some host) :
    Uri.canonicalHost uri = canonicalHost host := by
  unfold Uri.canonicalHost Uri.hostOrEmpty
  rw [found]
  rfl

theorem mem_sent {chain : ChainCookies} {uri : Uri} {cookie : Cookie} :
    cookie ∈ chain.sent uri ↔ ∃ host, uri.host = some host ∧ cookie ∈ chain.cookies ∧
      cookie.applies (canonicalHost host) uri.path uri.isHttps = true := by
  unfold ChainCookies.sent
  cases found : uri.host with
  | none => simp
  | some host => simp [mem_matched]

theorem sent_domain {chain : ChainCookies} {uri : Uri} {cookie : Cookie}
    (sent : cookie ∈ chain.sent uri) :
    cookie ∈ chain.cookies ∧
      (if cookie.hostOnly then Uri.canonicalHost uri = cookie.domain
        else domainMatches (Uri.canonicalHost uri) cookie.domain = true) := by
  obtain ⟨host, found, held, applies⟩ := mem_sent.mp sent
  rw [canonicalHost_of_host found]
  exact ⟨held, (applies_iff.mp applies).2.1⟩

/-- **When a cookie stays in its registrable domain.** In every state a chain reaches
and for every request, each cookie sent was set within the request's registrable
domain exactly when no public suffix is nested at or below the `Domain` of one. -/
theorem sent_withinRegistrable_iff {rules : SuffixRules} {callerNames : List Str}
    {hops : List Hop} {chain : ChainCookies}
    (stored : (ChainCookies.withCallerCookies callerNames).storeAll (domainStr rules) hops =
      .ok chain) (uri : Uri) :
    WithinRegistrable rules
      ((ChainCookies.withCallerCookies callerNames).events (domainStr rules) hops) chain uri ↔
        NoNestedSuffix rules chain uri := by
  constructor
  · intro within host found cookie held applies wide
    have sent : cookie ∈ chain.sent uri := mem_sent.mpr ⟨host, found, held, applies⟩
    obtain ⟨-, domain⟩ := sent_domain sent
    rw [wide, if_neg (by simp)] at domain
    rw [← canonicalHost_of_host found]
    obtain ⟨event, latest⟩ := held_latest stored held
    rcases parsed_domain latest.parsed.2.2.1 with ⟨bound, -⟩ | ⟨-, under, -, listed, same⟩
    · rw [wide] at bound
      cases bound
    · obtain ⟨r, registered⟩ := Option.ne_none_iff_exists'.mp listed
      rw [registered] at same
      refine (domainStr_under_iff (domainMatches_under domain) registered).mp ?_
      rcases within cookie sent event latest with own | ⟨r', target, source⟩
      · rw [own]
        exact same
      · rw [source, Option.some.injEq] at same
        rw [target, same]
  · intro nested cookie sent event latest
    obtain ⟨held, domain⟩ := sent_domain sent
    rcases parsed_domain latest.parsed.2.2.1 with ⟨bound, own⟩ | ⟨wide, under, -, listed, same⟩
    · rw [bound, if_pos rfl] at domain
      exact .inl (domain.trans own)
    · rw [wide, if_neg (by simp)] at domain
      obtain ⟨r, registered⟩ := Option.ne_none_iff_exists'.mp listed
      rw [registered] at same
      obtain ⟨host, found, -, applies⟩ := mem_sent.mp sent
      have inside := nested host found cookie held applies wide
      rw [← canonicalHost_of_host found] at inside
      exact .inr ⟨r, (domainStr_under_iff (domainMatches_under domain) registered).mpr inside, same⟩

/-! `s3.amazonaws.com` is a public suffix below `amazonaws.com`, which is none. -/

def nestedRules : SuffixRules :=
  [⟨[some "com".toList], false⟩,
    ⟨[some "s3".toList, some "amazonaws".toList, some "com".toList], false⟩]

def widenHop : Hop where
  headers := [("set-cookie".toList, "sid=1; Domain=amazonaws.com".toList)]
  uri := exampleHost "foo.amazonaws.com" "/"
  clock := fun _ => 0

def wideCookie : Cookie where
  name := "sid".toList
  value := "1".toList
  domain := "amazonaws.com".toList
  hostOnly := false
  path := "/".toList
  secure := false

/-- The cookie of `foo.amazonaws.com` goes to `victim.s3.amazonaws.com`. -/
theorem sent_past_nested_suffix :
    (ChainCookies.withCallerCookies []).storeAll (domainStr nestedRules) [widenHop] =
      .ok ⟨[wideCookie], []⟩ ∧
    ¬ WithinRegistrable nestedRules
      ((ChainCookies.withCallerCookies []).events (domainStr nestedRules) [widenHop])
      ⟨[wideCookie], []⟩ (exampleHost "victim.s3.amazonaws.com" "/") := by
  refine ⟨by decide +kernel, fun within => ?_⟩
  have latest : LatestEvent
      ((ChainCookies.withCallerCookies []).events (domainStr nestedRules) [widenHop])
      ⟨widenHop.uri, "foo.amazonaws.com".toList,
        ("set-cookie".toList, "sid=1; Domain=amazonaws.com".toList), 0, .stored wideCookie⟩
      wideCookie := ⟨[], [], by decide +kernel, rfl, by simp⟩
  have target : domainStr nestedRules
      (Uri.canonicalHost (exampleHost "victim.s3.amazonaws.com" "/")) =
        some "victim.s3.amazonaws.com".toList := by decide +kernel
  have source : domainStr nestedRules "foo.amazonaws.com".toList = some "amazonaws.com".toList := by
    decide +kernel
  rcases within wideCookie (by decide +kernel) _ latest with own | ⟨r, one, other⟩
  · exact absurd own (by decide +kernel)
  · have same := one.symm.trans target
    rw [other.symm.trans source] at same
    exact absurd same (by decide)

/-- A request back to a host with no suffix in between. -/
theorem sent_withinRegistrable_iff_sibling :
    WithinRegistrable nestedRules
      ((ChainCookies.withCallerCookies []).events (domainStr nestedRules) [widenHop])
      ⟨[wideCookie], []⟩ (exampleHost "bar.amazonaws.com" "/") ↔
        NoNestedSuffix nestedRules ⟨[wideCookie], []⟩ (exampleHost "bar.amazonaws.com" "/") :=
  @sent_withinRegistrable_iff nestedRules [] [widenHop] ⟨[wideCookie], []⟩ (by decide +kernel)
    (exampleHost "bar.amazonaws.com" "/")

end Blasthttp.Cookies
