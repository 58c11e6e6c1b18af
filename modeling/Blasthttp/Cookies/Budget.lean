/-
# Blasthttp.Cookies.Budget -- the ceilings of a chain

A chain keeps its ceilings from line to line whatever the lines are (`Budgeted`, by the
exits of the loop body), so the subtractions in `store` are exact, and no header it
yields is longer than the budget less the last separator.
-/
import Blasthttp.Cookies.Scope

namespace Blasthttp.Cookies

open Blasthttp.Rust Blasthttp.Http Blasthttp.Lib

set_option autoImplicit false

variable {psl : Str → Option Str}

/-! ## Reached chains -/

/-- The chains of a redirect walk: fresh, or after one more header line of a response
from some URI. -/
inductive Reached (psl : Str → Option Str) (callerNames : List Str) : ChainCookies → Prop
  | start : Reached psl callerNames (.withCallerCookies callerNames)
  | line {chain : ChainCookies} {uri : Uri} {host : Str} {now : Int} {line : Line}
      {verdict : Verdict} (before : Reached psl callerNames chain) (named : uri.host = some host)
      (judged : chain.judge psl (canonicalHost host) uri.path now line = .ok verdict) :
      Reached psl callerNames (chain.keep verdict)

theorem storeLoop_reached {callerNames : List Str} {uri : Uri} {host : Str} {clock : Nat → Int}
    (named : uri.host = some host) :
    ∀ (lines : List Line) (n : Nat) (chain : ChainCookies) (rejected : Rejected)
      {out : ChainCookies × Rejected}, Reached psl callerNames chain →
      ChainCookies.storeLoop psl (canonicalHost host) uri.path clock n chain rejected lines = .ok out →
      Reached psl callerNames out.1
  | [], _, chain, _, _, before, stored => by
      cases stored
      exact before
  | line :: rest, n, chain, rejected, out, before, stored => by
      unfold ChainCookies.storeLoop at stored
      cases judged : chain.judge psl (canonicalHost host) uri.path (clock n) line with
      | error panic => simp only [judged] at stored; cases stored
      | ok verdict =>
          simp only [judged] at stored
          exact storeLoop_reached named rest (n + 1) _ _ (before.line named judged) stored

/-- A call of `store` leads from a reached chain to a reached one. -/
theorem store_reached {callerNames : List Str} {chain : ChainCookies} {headers : List Line}
    {uri : Uri} {clock : Nat → Int} {out : ChainCookies × Rejected}
    (before : Reached psl callerNames chain) (stored : chain.store psl headers uri clock = .ok out) :
    Reached psl callerNames out.1 := by
  unfold ChainCookies.store at stored
  cases named : uri.host with
  | none =>
      simp only [named] at stored
      cases stored
      exact before
  | some host =>
      simp only [named] at stored
      exact storeLoop_reached named headers 0 chain _ before stored

/-- Any sequence of calls does. -/
theorem storeAll_reached {callerNames : List Str} :
    ∀ (hops : List Hop) {chain after : ChainCookies}, Reached psl callerNames chain →
      chain.storeAll psl hops = .ok after → Reached psl callerNames after
  | [], chain, _, before, stored => by
      cases stored
      exact before
  | hop :: rest, chain, after, before, stored => by
      unfold ChainCookies.storeAll at stored
      cases here : chain.store psl hop.headers hop.uri hop.clock with
      | error panic => simp only [here] at stored; cases stored
      | ok out =>
          simp only [here] at stored
          exact storeAll_reached rest (store_reached before here) stored

/-! ## Taking out the replaced cookie -/

theorem replacing_lt {chain : ChainCookies} {cookie : Cookie} {i : Nat}
    (found : chain.replacing cookie = some i) : i < chain.cookies.length :=
  (List.findIdx?_eq_some_iff_findIdx_eq.mp found).1

/-- Either nothing is replaced, or one held cookie goes and its bytes with it. -/
theorem remove_cases (chain : ChainCookies) (cookie : Cookie) :
    (chain.replacing cookie = none ∧ chain.freed cookie = 0 ∧
      chain.remove cookie = chain.cookies) ∨
    ∃ i c, chain.replacing cookie = some i ∧ chain.freed cookie = entrySize c.name c.value ∧
      (c :: chain.remove cookie).Perm chain.cookies := by
  unfold ChainCookies.freed ChainCookies.remove
  cases found : chain.replacing cookie with
  | none => exact .inl ⟨rfl, rfl, rfl⟩
  | some i =>
      have inside := replacing_lt found
      refine .inr ⟨i, chain.cookies[i], rfl, ?_, ?_⟩
      · simp only [List.getElem?_eq_getElem inside]
      · exact List.getElem_cons_eraseIdx_perm inside

/-- What a list of cookies costs. -/
def cost (cookies : List Cookie) : Nat := (cookies.map fun c => entrySize c.name c.value).sum

theorem cost_cons (c : Cookie) (cookies : List Cookie) :
    cost (c :: cookies) = entrySize c.name c.value + cost cookies := rfl

theorem cost_concat (cookies : List Cookie) (c : Cookie) :
    cost (cookies ++ [c]) = cost cookies + entrySize c.name c.value := by
  simp [cost]

theorem cost_perm {a b : List Cookie} (perm : a.Perm b) : cost a = cost b :=
  (perm.map _).sum_eq

/-- The two subtractions of `store` are exact. -/
theorem remove_exact (chain : ChainCookies) (cookie : Cookie) :
    (chain.remove cookie).length + (if (chain.replacing cookie).isSome then 1 else 0) =
        chain.cookies.length ∧
      cost (chain.remove cookie) + chain.freed cookie = chain.bytes ∧
      ∀ c ∈ chain.remove cookie, c ∈ chain.cookies := by
  rcases remove_cases chain cookie with ⟨none, freed, same⟩ | ⟨i, c, found, freed, perm⟩
  · rw [none, freed, same]
    exact ⟨rfl, rfl, fun c there => there⟩
  · have length := perm.length_eq
    have bytes : cost (c :: chain.remove cookie) = chain.bytes := cost_perm perm
    rw [cost_cons] at bytes
    rw [List.length_cons] at length
    refine ⟨by simpa [found] using length, by omega, ?_⟩
    intro b there
    exact perm.mem_iff.mp (List.mem_cons_of_mem _ there)

/-! ## The ceilings -/

structure Budgeted (chain : ChainCookies) : Prop where
  count : chain.cookies.length ≤ maxCookies
  each : ∀ c ∈ chain.cookies, entrySize c.name c.value ≤ maxCookieBytes
  total : chain.bytes ≤ maxChainBytes

theorem budgeted_new (callerNames : List Str) : Budgeted (.withCallerCookies callerNames) where
  count := Nat.zero_le _
  each := fun c there => by cases there
  total := Nat.zero_le _

/-- Taking a cookie out keeps every ceiling. -/
theorem Budgeted.drop {chain : ChainCookies} (budgeted : Budgeted chain) (cookie : Cookie) :
    Budgeted { chain with cookies := chain.remove cookie } := by
  obtain ⟨length, bytes, held⟩ := remove_exact chain cookie
  have count := budgeted.count
  have total := budgeted.total
  refine ⟨?_, fun c there => budgeted.each c (held c there), ?_⟩
  · show (chain.remove cookie).length ≤ maxCookies
    omega
  · show cost (chain.remove cookie) ≤ maxChainBytes
    omega

/-- Replacing a cookie, or adding one, where there is room. -/
theorem Budgeted.put {chain : ChainCookies} (budgeted : Budgeted chain) {cookie : Cookie}
    (small : entrySize cookie.name cookie.value ≤ maxCookieBytes)
    (room : chain.full cookie = false) :
    Budgeted { chain with cookies := chain.remove cookie ++ [cookie] } := by
  obtain ⟨length, bytes, held⟩ := remove_exact chain cookie
  obtain ⟨fewer, cheaper⟩ : ¬ maxCookies ≤ chain.cookies.length -
        (if (chain.replacing cookie).isSome then 1 else 0) ∧
      ¬ maxChainBytes < chain.bytes - chain.freed cookie + entrySize cookie.name cookie.value := by
    simpa [ChainCookies.full] using room
  refine ⟨?_, ?_, ?_⟩
  · show (chain.remove cookie ++ [cookie]).length ≤ maxCookies
    rw [List.length_append, List.length_singleton]
    omega
  · intro c there
    rcases List.mem_append.mp there with old | new
    · exact budgeted.each c (held c old)
    · rw [List.mem_singleton.mp new]
      exact small
  · show cost (chain.remove cookie ++ [cookie]) ≤ maxChainBytes
    rw [cost_concat]
    omega

theorem keep_budgeted {chain : ChainCookies} {host path : Str} {now : Int} {line : Line}
    {verdict : Verdict} (budgeted : Budgeted chain)
    (judged : chain.judge psl host path now line = .ok verdict) :
    Budgeted (chain.keep verdict) := by
  cases judge_exit judged with
  | otherHeader named => exact budgeted
  | unparsed parsed => exact budgeted
  | callerOwned parsed owned => exact budgeted
  | oversized parsed large => exact budgeted
  | expired named parsed free => exact budgeted.drop _
  | full parsed noRoom => exact budgeted
  | stored named parsed free small room => exact budgeted.put small room

theorem Reached.budgeted {callerNames : List Str} {chain : ChainCookies}
    (reached : Reached psl callerNames chain) : Budgeted chain := by
  induction reached with
  | start => exact budgeted_new callerNames
  | line _ _ judged ih => exact keep_budgeted ih judged

/-! ## The length of a header -/

/-- A printed list, the separator it does not end in included. -/
theorem byteLen_intercalate (sep : Str) :
    ∀ (parts : List Str), parts ≠ [] →
      byteLen (sep.intercalate parts) + byteLen sep =
        (parts.map fun part => byteLen part + byteLen sep).sum
  | [], nonempty => absurd rfl nonempty
  | [part], _ => by simp
  | part :: next :: rest, _ => by
      have later := byteLen_intercalate sep (next :: rest) (List.cons_ne_nil _ _)
      rw [List.intercalate_cons_cons, byteLen_append, byteLen_append, List.map_cons, List.sum_cons,
        ← later]
      omega

theorem byteLen_text (cookie : Cookie) :
    byteLen cookie.text + byteLen "; ".toList = entrySize cookie.name cookie.value := by
  have equals : byteLen ('=' :: cookie.value) = 1 + byteLen cookie.value := rfl
  have separator : byteLen "; ".toList = 2 := by decide
  rw [Cookie.text, byteLen_append, equals, separator, entrySize]
  omega

/-- The header for a URI costs what its cookies do, less one separator. -/
theorem headerFor_length {chain : ChainCookies} {uri : Uri} {text : Str}
    (sent : chain.headerFor uri = some text) : byteLen text + 2 ≤ chain.bytes := by
  unfold ChainCookies.headerFor at sent
  split at sent
  · cases sent
  · rename_i host named
    simp only at sent
    split at sent
    · cases sent
    · rename_i some
      cases sent
      have nonempty : (chain.matched (canonicalHost host) uri).map Cookie.text ≠ [] := by
        simpa using some
      have printed := byteLen_intercalate "; ".toList _ nonempty
      have separator : byteLen "; ".toList = 2 := by decide
      have parts : (((chain.matched (canonicalHost host) uri).map Cookie.text).map
          fun part => byteLen part + byteLen "; ".toList).sum =
            cost (chain.matched (canonicalHost host) uri) := by
        rw [List.map_map]
        exact congrArg List.sum (List.map_congr_left fun c _ => byteLen_text c)
      have sorted : cost (chain.matched (canonicalHost host) uri) =
          cost (chain.cookies.filter fun c =>
            c.applies (canonicalHost host) uri.path uri.isHttps) :=
        cost_perm (List.perm_insertionSort _ _)
      have subset : cost (chain.cookies.filter fun c =>
          c.applies (canonicalHost host) uri.path uri.isHttps) ≤ chain.bytes :=
        (List.filter_sublist.map _).sum_le_sum fun _ _ => Nat.zero_le _
      omega

/-- **The ceilings hold in every reachable state**: the number of cookies, the size of
each, their total, and the length of every header; and the two subtractions of `store`
never go below zero. -/
theorem cookie_budgets {callerNames : List Str} {chain : ChainCookies}
    (reached : Reached psl callerNames chain) :
    chain.cookies.length ≤ 50 ∧
    (∀ c ∈ chain.cookies, entrySize c.name c.value ≤ 4096) ∧
    chain.bytes ≤ 8192 ∧
    (∀ cookie, (if (chain.replacing cookie).isSome then 1 else 0) ≤ chain.cookies.length ∧
      chain.freed cookie ≤ chain.bytes) ∧
    (∀ uri text, chain.headerFor uri = some text → byteLen text ≤ 8190) := by
  have budgeted := reached.budgeted
  have total : chain.bytes ≤ 8192 := budgeted.total
  refine ⟨budgeted.count, budgeted.each, total, ?_, ?_⟩
  · intro cookie
    obtain ⟨length, bytes, -⟩ := remove_exact chain cookie
    exact ⟨by omega, by omega⟩
  · intro uri text sent
    have size := headerFor_length sent
    omega

/-- A chain that holds what one response set. -/
theorem cookie_budgets_login :
    ([loginCookie].length ≤ 50 ∧
    (∀ c ∈ [loginCookie], entrySize c.name c.value ≤ 4096) ∧
    ChainCookies.bytes ⟨[loginCookie], []⟩ ≤ 8192 ∧
    (∀ cookie,
      (if (ChainCookies.replacing ⟨[loginCookie], []⟩ cookie).isSome then 1 else 0) ≤
        [loginCookie].length ∧
      ChainCookies.freed ⟨[loginCookie], []⟩ cookie ≤ ChainCookies.bytes ⟨[loginCookie], []⟩) ∧
    (∀ uri text, ChainCookies.headerFor ⟨[loginCookie], []⟩ uri = some text →
      byteLen text ≤ 8190)) :=
  @cookie_budgets exampleList [] ⟨[loginCookie], []⟩
    (storeAll_reached [loginHop] .start (by decide +kernel))

end Blasthttp.Cookies
