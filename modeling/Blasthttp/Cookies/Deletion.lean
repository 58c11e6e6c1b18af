/-
# Blasthttp.Cookies.Deletion -- what an expired line takes out

A line that parses as expired names a key to be cleared.  The size check stands in front
of the expiry, so a line whose value is oversized is refused like one to be stored, and
what is held under its key stays (`expired_deletes_iff`).
-/
import Blasthttp.Cookies.Frame

namespace Blasthttp.Cookies

open Blasthttp.Rust Blasthttp.Http Blasthttp.Lib

set_option autoImplicit false

variable {psl : Str → Option Str}

theorem Reached.callerNames {callerNames : List Str} {chain : ChainCookies}
    (reached : Reached psl callerNames chain) : chain.callerNames = callerNames := by
  induction reached with
  | start => rfl
  | line _ _ _ ih => rw [keep_callerNames, ih]

/-- An expired line under a name of the site's own is judged by its size alone. -/
theorem judge_expired {chain : ChainCookies} {host path : Str} {now : Int} {line : Line}
    {cookie : Cookie} (named : eqIgnoreAsciiCase line.1 "set-cookie".toList = true)
    (parsed : parseSetCookie psl line.2 host path now = .ok (some (cookie, true)))
    (free : cookie.name ∉ chain.callerNames) :
    chain.judge psl host path now line =
      .ok (if maxCookieBytes < entrySize cookie.name cookie.value then .overLimit cookie
        else .expired cookie) := by
  unfold ChainCookies.judge
  rw [named, if_neg (by simp)]
  simp only [parsed, if_neg free, if_true]
  split <;> rfl

/-- One line through `store`. -/
theorem store_line {chain : ChainCookies} {uri : Uri} {host : Str} {line : Line}
    {clock : Nat → Int} {verdict : Verdict} (found : uri.host = some host)
    (judged : chain.judge psl (canonicalHost host) uri.path (clock 0) line = .ok verdict) :
    chain.store psl [line] uri clock =
      .ok (chain.keep verdict, Rejected.record ⟨[], []⟩ verdict) := by
  unfold ChainCookies.store
  simp only [found, ChainCookies.storeLoop, judged]

/-- **When an expired line deletes**: its pair is within the size of one cookie, or
nothing was held under its key. -/
theorem expired_deletes_iff {callerNames : List Str} {chain : ChainCookies} {uri : Uri} {host : Str}
    {line : Line} {clock : Nat → Int} {cookie : Cookie} (reached : Reached psl callerNames chain)
    (found : uri.host = some host)
    (named : eqIgnoreAsciiCase line.1 "set-cookie".toList = true)
    (parsed : parseSetCookie psl line.2 (canonicalHost host) uri.path (clock 0) =
      .ok (some (cookie, true)))
    (free : cookie.name ∉ callerNames) :
    ∃ out, chain.store psl [line] uri clock = .ok out ∧
      ((∀ c ∈ out.1.cookies, c.key ≠ cookie.key) ↔
        entrySize cookie.name cookie.value ≤ maxCookieBytes ∨
          ∀ c ∈ chain.cookies, c.key ≠ cookie.key) := by
  have judged := judge_expired named parsed (by rw [reached.callerNames]; exact free)
  refine ⟨_, store_line found judged, ?_⟩
  by_cases large : maxCookieBytes < entrySize cookie.name cookie.value
  · rw [if_pos large]
    constructor
    · intro gone
      exact .inr gone
    · rintro (small | absent)
      · omega
      · exact absent
  · rw [if_neg large]
    refine iff_of_true ?_ (.inl (Nat.le_of_not_lt large))
    intro c there
    have cleared : c ∈ KeyedList.erase Cookie.key cookie.key chain.cookies := by
      rw [← remove_eq]
      exact there
    exact ((KeyedList.mem_erase reached.distinct).mp cleared).2

theorem expired_deletes_iff_logout :
    ∃ out, ChainCookies.store exampleList ⟨[loginCookie], []⟩ [logoutLine] loginHop.uri
        (fun _ => 0) = .ok out ∧
      ((∀ c ∈ out.1.cookies, c.key ≠ logoutCookie.key) ↔
        entrySize logoutCookie.name logoutCookie.value ≤ maxCookieBytes ∨
          ∀ c ∈ [loginCookie], c.key ≠ logoutCookie.key) :=
  @expired_deletes_iff exampleList [] ⟨[loginCookie], []⟩ loginHop.uri "auth.example.com".toList
    logoutLine (fun _ => 0) logoutCookie
    (storeAll_reached [loginHop] .start (by decide +kernel)) (by decide +kernel)
    (by decide +kernel) (by decide +kernel) (by decide)

/-! A logout whose value is as long as a cookie may be. -/

theorem trim_solid {s : Str} (solid : ∀ c ∈ s, isWhitespace c = false) : trim s = s := by
  obtain ⟨before, after, split, front, back⟩ := trim_spec s
  have noFront : before = [] := by
    refine List.eq_nil_iff_forall_not_mem.mpr fun c there => ?_
    have dark := solid c (by rw [split]; simp [there])
    rw [front c there] at dark
    cases dark
  have noBack : after = [] := by
    refine List.eq_nil_iff_forall_not_mem.mpr fun c there => ?_
    have dark := solid c (by rw [split]; simp [there])
    rw [back c there] at dark
    cases dark
  rw [noFront, noBack, List.nil_append, List.append_nil] at split
  exact split.symm

def logoutWith (value : Str) : Line :=
  ("Set-Cookie".toList,
    ("sid=".toList ++ value) ++ ';' :: " Domain=example.com; Path=/app; Max-Age=0".toList)

theorem splitSetCookie_logoutWith {value : Str} (solid : ∀ c ∈ value, isWhitespace c = false)
    (absent : ';' ∉ value) :
    splitSetCookie (logoutWith value).2 =
      some ("sid".toList, value,
        [" Domain=example.com".toList, " Path=/app".toList, " Max-Age=0".toList]) := by
  have whole : ';' ∉ "sid=".toList ++ value := by
    rw [List.mem_append]
    rintro (inName | inValue)
    · exact absurd inName (by decide)
    · exact absent inValue
  have dark : ∀ c ∈ "sid=".toList ++ value, isWhitespace c = false := by
    intro c there
    rcases List.mem_append.mp there with inName | inValue
    · have nameSolid : ("sid=".toList.all fun c => !isWhitespace c) = true := by decide
      simpa using List.all_eq_true.mp nameSolid c inName
    · exact solid c inValue
  have pieces : (logoutWith value).2.splitOn ';' = ("sid=".toList ++ value) ::
      [" Domain=example.com".toList, " Path=/app".toList, " Max-Age=0".toList] := by
    unfold logoutWith
    rw [List.splitOn_append_cons_self, List.splitOn_eq_singleton whole]
    rfl
  have once : splitOnce '=' ("sid=".toList ++ value) = some ("sid".toList, value) :=
    @splitOnce_append '=' "sid".toList (by decide) value
  unfold splitSetCookie
  simp only [pieces, trim_solid dark, once, trim_solid solid]
  rfl

theorem parseSetCookie_logoutWith {value : Str} (solid : ∀ c ∈ value, isWhitespace c = false)
    (absent : ';' ∉ value) :
    parseSetCookie exampleList (logoutWith value).2 (canonicalHost "auth.example.com".toList)
        loginHop.uri.path 0 = .ok (some ({ logoutCookie with value := value }, true)) := by
  unfold parseSetCookie
  rw [splitSetCookie_logoutWith solid absent]
  rfl

def bulkyValue : Str := List.replicate 4096 'x'

theorem byteLen_xs (n : Nat) : byteLen (List.replicate n 'x') = n := by
  induction n with
  | zero => rfl
  | succ n ih =>
      have one : ('x' : Char).utf8Size = 1 := by decide
      rw [List.replicate_succ, byteLen, ih, one, Nat.add_comm]

/-- The logout is read as an expired line of the login's key, and the login's cookie
stays. -/
theorem bulky_logout_keeps :
    Reached exampleList [] ⟨[loginCookie], []⟩ ∧
    parseSetCookie exampleList (logoutWith bulkyValue).2 (canonicalHost "auth.example.com".toList)
        loginHop.uri.path 0 = .ok (some ({ logoutCookie with value := bulkyValue }, true)) ∧
    Cookie.key { logoutCookie with value := bulkyValue } = loginCookie.key ∧
    ChainCookies.store exampleList ⟨[loginCookie], []⟩ [logoutWith bulkyValue] loginHop.uri
      (fun _ => 0) = .ok (⟨[loginCookie], []⟩, ⟨[], ["sid".toList]⟩) := by
  have plain : ∀ c ∈ bulkyValue, c = 'x' := fun c there => List.eq_of_mem_replicate there
  have solid : ∀ c ∈ bulkyValue, isWhitespace c = false := by
    intro c there
    rw [plain c there]
    decide
  have absent : ';' ∉ bulkyValue := fun there => absurd (plain ';' there) (by decide)
  have large : maxCookieBytes <
      entrySize logoutCookie.name { logoutCookie with value := bulkyValue }.value := by
    have size : byteLen bulkyValue = 4096 := byteLen_xs 4096
    have name : byteLen logoutCookie.name = 3 := by decide
    simp only [entrySize, size, name, maxCookieBytes]
    decide
  have parsed := parseSetCookie_logoutWith solid absent
  have judged := @judge_expired exampleList ⟨[loginCookie], []⟩ _ _ _ (logoutWith bulkyValue) _
    (by decide) parsed (by decide)
  rw [if_pos large] at judged
  exact ⟨storeAll_reached [loginHop] .start (by decide +kernel), parsed, rfl,
    @store_line _ _ _ _ _ (fun _ => 0) _ rfl judged⟩

end Blasthttp.Cookies
