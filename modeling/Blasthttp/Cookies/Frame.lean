/-
# Blasthttp.Cookies.Frame -- what one line can touch

A `Set-Cookie` line writes under the key of its own cookie or not at all
(`LineExit.writes`).  The list is a keyed list, so the entries of every other key stay
as they are and where they are, and no key is ever held twice.
-/
import Blasthttp.Cookies.Budget

namespace Blasthttp.Cookies

open Blasthttp.Rust Blasthttp.Http Blasthttp.Lib

set_option autoImplicit false

variable {psl : Str → Option Str}

/-! ## Keys -/

theorem keep_distinct {chain : ChainCookies} (distinct : KeyedList.Distinct Cookie.key chain.cookies)
    (verdict : Verdict) : KeyedList.Distinct Cookie.key (chain.keep verdict).cookies := by
  rw [keep_cookies]
  exact KeyedList.run_distinct distinct _

theorem Reached.distinct {callerNames : List Str} {chain : ChainCookies}
    (reached : Reached psl callerNames chain) : KeyedList.Distinct Cookie.key chain.cookies := by
  induction reached with
  | start => exact KeyedList.distinct_nil
  | line _ _ _ ih => exact keep_distinct ih _

/-! ## One line -/

/-- The lines `store` must not act on: another header, one that yields no cookie
(malformed, or out of the host's domain), a cookie of the caller's, and one to be
stored that is oversized or has no room. -/
inductive Refused (psl : Str → Option Str) (chain : ChainCookies) (host path : Str) (now : Int)
    (line : Line) : Prop
  | otherHeader (named : eqIgnoreAsciiCase line.1 "set-cookie".toList = false)
  | unparsed (parsed : parseSetCookie psl line.2 host path now = .ok none)
  | callerOwned (cookie : Cookie) (expired : Bool)
      (parsed : parseSetCookie psl line.2 host path now = .ok (some (cookie, expired)))
      (owned : cookie.name ∈ chain.callerNames)
  | overLimit (cookie : Cookie)
      (parsed : parseSetCookie psl line.2 host path now = .ok (some (cookie, false)))
      (tooMuch : maxCookieBytes < entrySize cookie.name cookie.value ∨ chain.full cookie = true)

/-- A line that writes does so under its own key, and was not to be refused. -/
theorem LineExit.writes {chain : ChainCookies} {host path : Str} {now : Int} {line : Line}
    {verdict : Verdict} (ends : LineExit psl chain host path now line verdict)
    {w : KeyedList.Write Cookie Key} (write : verdict.write? = some w) :
    ¬ Refused psl chain host path now line ∧
      ∃ cookie expired, parseSetCookie psl line.2 host path now = .ok (some (cookie, expired)) ∧
        w.key Cookie.key = cookie.key := by
  cases ends with
  | otherHeader | unparsed | callerOwned | oversized | full => cases write
  | @expired cookie named parsed free =>
      cases write
      refine ⟨fun refused => ?_, cookie, true, parsed, rfl⟩
      cases refused with
      | otherHeader other => rw [named] at other; cases other
      | unparsed nothing => rw [parsed] at nothing; cases nothing
      | callerOwned c e same owned => rw [parsed] at same; cases same; exact free owned
      | overLimit c same => rw [parsed] at same; cases same
  | @stored cookie named parsed free small room =>
      cases write
      refine ⟨fun refused => ?_, cookie, false, parsed, rfl⟩
      cases refused with
      | otherHeader other => rw [named] at other; cases other
      | unparsed nothing => rw [parsed] at nothing; cases nothing
      | callerOwned c e same owned => rw [parsed] at same; cases same; exact free owned
      | overLimit c same tooMuch =>
          rw [parsed] at same
          cases same
          rcases tooMuch with large | full
          · omega
          · rw [room] at full
            cases full

/-- **A line touches at most its own cookie.** In every reachable chain no key is held
twice; a line leaves the entries of all keys but its cookie's as they were, in their
order, and a refused one leaves the whole list. -/
theorem line_frame {callerNames : List Str} {chain : ChainCookies} {uri : Uri} {host : Str}
    {now : Int} {line : Line} {verdict : Verdict} (reached : Reached psl callerNames chain)
    (named : uri.host = some host)
    (judged : chain.judge psl (canonicalHost host) uri.path now line = .ok verdict) :
    (chain.cookies.map Cookie.key).Nodup ∧ ((chain.keep verdict).cookies.map Cookie.key).Nodup ∧
    (∀ cookie expired,
      parseSetCookie psl line.2 (canonicalHost host) uri.path now = .ok (some (cookie, expired)) →
      (chain.keep verdict).cookies.filter (fun c => c.key ≠ cookie.key) =
        chain.cookies.filter fun c => c.key ≠ cookie.key) ∧
    (Refused psl chain (canonicalHost host) uri.path now line →
      (chain.keep verdict).cookies = chain.cookies) := by
  have distinct := reached.distinct
  have ends := judge_exit judged
  refine ⟨distinct, (reached.line named judged).distinct, ?_, ?_⟩
  · intro cookie expired parsed
    rw [keep_cookies]
    cases write : verdict.write? with
    | none => rfl
    | some w =>
        obtain ⟨-, c, e, same, key⟩ := ends.writes write
        rw [parsed] at same
        cases same
        rw [← key]
        exact KeyedList.step_frame distinct w
  · intro refused
    rw [keep_cookies]
    cases write : verdict.write? with
    | none => rfl
    | some w => exact absurd refused (ends.writes write).1

def logoutLine : Line :=
  ("Set-Cookie".toList, "sid=; Domain=example.com; Path=/app; Max-Age=0".toList)

def logoutCookie : Cookie := { loginCookie with value := [], secure := false }

/-- The line that deletes the cookie a login set. -/
theorem line_frame_logout :
    ([loginCookie].map Cookie.key).Nodup ∧
    ((ChainCookies.keep ⟨[loginCookie], []⟩ (.expired logoutCookie)).cookies.map Cookie.key).Nodup ∧
    (∀ cookie expired,
      parseSetCookie exampleList logoutLine.2 (canonicalHost "auth.example.com".toList)
        loginHop.uri.path 0 = .ok (some (cookie, expired)) →
      (ChainCookies.keep ⟨[loginCookie], []⟩ (.expired logoutCookie)).cookies.filter
          (fun c => c.key ≠ cookie.key) =
        [loginCookie].filter fun c => c.key ≠ cookie.key) ∧
    (Refused exampleList ⟨[loginCookie], []⟩ (canonicalHost "auth.example.com".toList)
        loginHop.uri.path 0 logoutLine →
      (ChainCookies.keep ⟨[loginCookie], []⟩ (.expired logoutCookie)).cookies = [loginCookie]) :=
  @line_frame exampleList [] ⟨[loginCookie], []⟩ loginHop.uri "auth.example.com".toList 0
    logoutLine (.expired logoutCookie)
    (storeAll_reached [loginHop] .start (by decide +kernel)) (by decide +kernel)
    (by decide +kernel)

end Blasthttp.Cookies
