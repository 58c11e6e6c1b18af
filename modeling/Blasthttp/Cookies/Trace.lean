/-
# Blasthttp.Cookies.Trace -- the lines a chain has seen

A chain is fed hop by hop.  `events` lists every header line with the verdict `store`
reached on it, and `storeAll_cookies` says that the cookies held are the ones a keyed
list holds after the writes of those verdicts, so each held cookie is the latest line
of its key that was kept and has not been deleted since (`held_latest`).
-/
import Blasthttp.Cookies.Pairs
import Blasthttp.Lib.KeyedList

namespace Blasthttp.Cookies

open Blasthttp.Rust Blasthttp.Http Blasthttp.Lib

set_option autoImplicit false

variable {psl : Str → Option Str}

/-! ## What parsing guarantees -/

theorem splitSetCookie_spec {value name val : Str} {parts : List Str}
    (split : splitSetCookie value = some (name, val, parts)) :
    name ≠ [] ∧ trim name = name ∧ '=' ∉ name ∧ ';' ∉ name ∧ trim val = val ∧ ';' ∉ val := by
  unfold splitSetCookie at split
  split at split
  · cases split
  · rename_i first rest pieces
    split at split
    · cases split
    · rename_i n v once
      split at split
      · cases split
      · rename_i named
        cases split
        obtain ⟨whole, before⟩ := splitOnce_spec once
        have clean : ';' ∉ first := by
          have piece : first ∈ value.splitOn ';' := by rw [pieces]; exact List.mem_cons_self
          exact not_mem_of_mem_splitOn piece
        have inside : ∀ c, c ∈ n ∨ c ∈ v → c ∈ first := by
          intro c there
          apply mem_of_mem_trim
          rw [whole, List.mem_append, List.mem_cons]
          rcases there with inName | inValue
          · exact .inl inName
          · exact .inr (.inr inValue)
        refine ⟨?_, trim_trim n, ?_, ?_, trim_trim v, ?_⟩
        · simpa using named
        · exact fun there => before (mem_of_mem_trim there)
        · exact fun there => clean (inside _ (.inl (mem_of_mem_trim there)))
        · exact fun there => clean (inside _ (.inr (mem_of_mem_trim there)))

/-- The scopes a host may set: its own name, or a wider one that it is under, that is
not a public suffix and that has the same registrable domain. -/
theorem cookieScope_spec {host domain : Str} {asked : Option Str} {hostOnly : Bool}
    (scope : cookieScope psl host asked = some (domain, hostOnly)) :
    (hostOnly = true ∧ domain = host) ∨
    (hostOnly = false ∧ domainMatches host domain = true ∧ IpAddr.parse host = none ∧
      psl domain ≠ none ∧ psl host = psl domain) := by
  unfold cookieScope at scope
  split at scope
  · cases scope
    exact .inl ⟨rfl, rfl⟩
  · rename_i d
    split at scope
    · cases scope
    · rename_i covers
      split at scope
      · cases scope
        exact .inl ⟨rfl, rfl⟩
      · rename_i name
        split at scope
        · split at scope
          · cases scope
            exact .inl ⟨rfl, rfl⟩
          · cases scope
        · rename_i listed
          split at scope
          · cases scope
          · rename_i same
            cases scope
            refine .inr ⟨rfl, by simpa using covers, by simpa using name, ?_, ?_⟩
            · simpa [isPublicSuffix] using listed
            · simpa [registrable] using same

theorem parseSetCookie_spec {value host path : Str} {now : Int} {cookie : Cookie} {expired : Bool}
    (parsed : parseSetCookie psl value host path now = .ok (some (cookie, expired))) :
    cookie.Clean ∧ ∃ asked,
      cookieScope psl host asked = some (cookie.domain, cookie.hostOnly) := by
  unfold parseSetCookie at parsed
  split at parsed
  · cases parsed
  · rename_i name val parts pieces
    obtain ⟨named, nameTrim, nameEq, nameSep, valueTrim, valueSep⟩ := splitSetCookie_spec pieces
    split at parsed
    · cases parsed
    · rename_i attrs _
      split at parsed
      · cases parsed
      · rename_i scope
        cases parsed
        exact ⟨⟨named, nameTrim, nameEq, nameSep, valueTrim, valueSep⟩, attrs.domain, scope⟩

/-! ## The exits of the loop body -/

/-- How the loop body of `store` ends for a line, by what it saw. -/
inductive LineExit (psl : Str → Option Str) (chain : ChainCookies) (host path : Str) (now : Int)
    (line : Line) : Verdict → Prop
  | otherHeader (named : eqIgnoreAsciiCase line.1 "set-cookie".toList = false) :
      LineExit psl chain host path now line .ignored
  | unparsed (parsed : parseSetCookie psl line.2 host path now = .ok none) :
      LineExit psl chain host path now line .ignored
  | callerOwned {cookie : Cookie} {expired : Bool}
      (parsed : parseSetCookie psl line.2 host path now = .ok (some (cookie, expired)))
      (owned : cookie.name ∈ chain.callerNames) :
      LineExit psl chain host path now line (.callerOwned cookie)
  | oversized {cookie : Cookie} {expired : Bool}
      (parsed : parseSetCookie psl line.2 host path now = .ok (some (cookie, expired)))
      (large : maxCookieBytes < entrySize cookie.name cookie.value) :
      LineExit psl chain host path now line (.overLimit cookie)
  | expired {cookie : Cookie} (named : eqIgnoreAsciiCase line.1 "set-cookie".toList = true)
      (parsed : parseSetCookie psl line.2 host path now = .ok (some (cookie, true)))
      (free : cookie.name ∉ chain.callerNames) :
      LineExit psl chain host path now line (.expired cookie)
  | full {cookie : Cookie}
      (parsed : parseSetCookie psl line.2 host path now = .ok (some (cookie, false)))
      (noRoom : chain.full cookie = true) :
      LineExit psl chain host path now line (.overLimit cookie)
  | stored {cookie : Cookie} (named : eqIgnoreAsciiCase line.1 "set-cookie".toList = true)
      (parsed : parseSetCookie psl line.2 host path now = .ok (some (cookie, false)))
      (free : cookie.name ∉ chain.callerNames)
      (small : entrySize cookie.name cookie.value ≤ maxCookieBytes)
      (room : chain.full cookie = false) :
      LineExit psl chain host path now line (.stored cookie)

theorem judge_exit {chain : ChainCookies} {host path : Str} {now : Int} {line : Line}
    {verdict : Verdict} (judged : chain.judge psl host path now line = .ok verdict) :
    LineExit psl chain host path now line verdict := by
  unfold ChainCookies.judge at judged
  split at judged
  · rename_i other
    cases judged
    exact .otherHeader (by simpa using other)
  · rename_i known
    have named : eqIgnoreAsciiCase line.1 "set-cookie".toList = true := by simpa using known
    split at judged
    · cases judged
    · rename_i unparsed
      cases judged
      exact .unparsed unparsed
    · rename_i cookie expired parsed
      split at judged
      · rename_i owned
        cases judged
        exact .callerOwned parsed owned
      · rename_i free
        split at judged
        · rename_i large
          cases judged
          exact .oversized parsed large
        · rename_i small
          split at judged
          · rename_i gone
            cases judged
            subst gone
            exact .expired named parsed free
          · rename_i kept
            obtain rfl : expired = false := by simpa using kept
            split at judged
            · rename_i noRoom
              cases judged
              exact .full parsed noRoom
            · rename_i room
              cases judged
              exact .stored named parsed free (by omega) (by simpa using room)

/-- A line kept or deleting is a `Set-Cookie` that parses, under a name of its own. -/
theorem judge_write {chain : ChainCookies} {host path : Str} {now : Int} {line : Line}
    {verdict : Verdict} (judged : chain.judge psl host path now line = .ok verdict)
    {cookie : Cookie} (write : verdict = .stored cookie ∨ verdict = .expired cookie) :
    eqIgnoreAsciiCase line.1 "set-cookie".toList = true ∧
      parseSetCookie psl line.2 host path now = .ok (some (cookie, verdict = .expired cookie)) ∧
      cookie.name ∉ chain.callerNames := by
  rcases write with rfl | rfl
  · cases judge_exit judged with
    | stored named parsed free small room => exact ⟨named, by simpa using parsed, free⟩
  · cases judge_exit judged with
    | expired named parsed free => exact ⟨named, by simpa using parsed, free⟩

/-! ## Runs -/

/-- A response of the chain: its headers, where it came from, and the clock. -/
structure Hop where
  headers : List Line
  uri : Uri
  clock : Nat → Int

/-- `store` for one hop after the other. -/
def ChainCookies.storeAll (psl : Str → Option Str) (chain : ChainCookies) :
    List Hop → Except Panic ChainCookies
  | [] => .ok chain
  | hop :: rest =>
      match chain.store psl hop.headers hop.uri hop.clock with
      | .error panic => .error panic
      | .ok (chain, _) => storeAll psl chain rest

/-- A header line received from `uri`, whose canonical host is `host`, and what
`store` made of it. -/
structure Event where
  uri : Uri
  host : Str
  line : Line
  now : Int
  verdict : Verdict
  deriving DecidableEq

def ChainCookies.storeEvents (psl : Str → Option Str) (uri : Uri) (host : Str)
    (clock : Nat → Int) : Nat → ChainCookies → List Line → List Event
  | _, _, [] => []
  | n, chain, line :: rest =>
      match chain.judge psl host uri.path (clock n) line with
      | .error _ => []
      | .ok verdict =>
          ⟨uri, host, line, clock n, verdict⟩ ::
            storeEvents psl uri host clock (n + 1) (chain.keep verdict) rest

def ChainCookies.hopEvents (psl : Str → Option Str) (chain : ChainCookies) (hop : Hop) :
    List Event :=
  match hop.uri.host with
  | none => []
  | some host => storeEvents psl hop.uri (canonicalHost host) hop.clock 0 chain hop.headers

/-- The lines of all hops with their verdicts, oldest first. -/
def ChainCookies.events (psl : Str → Option Str) (chain : ChainCookies) : List Hop → List Event
  | [] => []
  | hop :: rest =>
      chain.hopEvents psl hop ++
        match chain.store psl hop.headers hop.uri hop.clock with
        | .error _ => []
        | .ok (chain, _) => events psl chain rest

/-! ## The cookies held -/

abbrev Key := Str × Str × Str

def Cookie.key (cookie : Cookie) : Key := (cookie.name, cookie.domain, cookie.path)

/-- What a verdict writes into the chain. -/
def Verdict.write? : Verdict → Option (KeyedList.Write Cookie Key)
  | .stored cookie => some (.put cookie)
  | .expired cookie => some (.drop cookie.key)
  | _ => none

def writes (events : List Event) : List (KeyedList.Write Cookie Key) :=
  events.filterMap fun event => event.verdict.write?

theorem sameKey_iff {cookie c : Cookie} : cookie.sameKey c = true ↔ c.key = cookie.key := by
  simp [Cookie.sameKey, Cookie.key, and_assoc]

theorem remove_eq (chain : ChainCookies) (cookie : Cookie) :
    chain.remove cookie = KeyedList.erase Cookie.key cookie.key chain.cookies := by
  have judge : cookie.sameKey = fun c => decide (c.key = cookie.key) := by
    funext c
    rw [Bool.eq_iff_iff, sameKey_iff, decide_eq_true_eq]
  unfold ChainCookies.remove ChainCookies.replacing KeyedList.erase
  rw [judge, List.eraseP_eq_eraseIdx]
  cases chain.cookies.findIdx? fun c => decide (c.key = cookie.key) <;> rfl

theorem keep_cookies (chain : ChainCookies) (verdict : Verdict) :
    (chain.keep verdict).cookies =
      KeyedList.run Cookie.key chain.cookies verdict.write?.toList := by
  cases verdict with
  | stored cookie => exact congrArg (· ++ [cookie]) (remove_eq chain cookie)
  | expired cookie => exact remove_eq chain cookie
  | ignored => rfl
  | callerOwned cookie => rfl
  | overLimit cookie => rfl

theorem keep_callerNames (chain : ChainCookies) (verdict : Verdict) :
    (chain.keep verdict).callerNames = chain.callerNames := by
  cases verdict <;> rfl

/-- The chain after a list of events. -/
structure ChainCookies.Follows (before after : ChainCookies) (events : List Event) : Prop where
  cookies : after.cookies = KeyedList.run Cookie.key before.cookies (writes events)
  callerNames : after.callerNames = before.callerNames

theorem ChainCookies.Follows.refl (chain : ChainCookies) : chain.Follows chain [] := ⟨rfl, rfl⟩

theorem ChainCookies.Follows.append {a b c : ChainCookies} {xs ys : List Event}
    (first : a.Follows b xs) (second : b.Follows c ys) : a.Follows c (xs ++ ys) := by
  refine ⟨?_, second.callerNames.trans first.callerNames⟩
  rw [second.cookies, first.cookies]
  simp [KeyedList.run, List.foldl_append, writes, List.filterMap_append]

theorem keep_follows (chain : ChainCookies) (event : Event) :
    chain.Follows (chain.keep event.verdict) [event] := by
  refine ⟨?_, keep_callerNames chain event.verdict⟩
  rw [keep_cookies, writes, List.filterMap_cons]
  cases event.verdict.write? <;> rfl

theorem storeLoop_follows {uri : Uri} {host : Str} {clock : Nat → Int} :
    ∀ (lines : List Line) (n : Nat) (chain : ChainCookies) (rejected : Rejected)
      {out : ChainCookies × Rejected},
      ChainCookies.storeLoop psl host uri.path clock n chain rejected lines = .ok out →
      chain.Follows out.1 (ChainCookies.storeEvents psl uri host clock n chain lines)
  | [], _, chain, _, _, stored => by
      cases stored
      exact .refl chain
  | line :: rest, n, chain, rejected, out, stored => by
      unfold ChainCookies.storeLoop at stored
      unfold ChainCookies.storeEvents
      cases judged : chain.judge psl host uri.path (clock n) line with
      | error panic => simp only [judged] at stored; cases stored
      | ok verdict =>
          simp only [judged] at stored ⊢
          have here := keep_follows chain ⟨uri, host, line, clock n, verdict⟩
          exact here.append (storeLoop_follows rest (n + 1) _ _ stored)

theorem store_follows {chain : ChainCookies} {hop : Hop} {out : ChainCookies × Rejected}
    (stored : chain.store psl hop.headers hop.uri hop.clock = .ok out) :
    chain.Follows out.1 (chain.hopEvents psl hop) := by
  unfold ChainCookies.store at stored
  unfold ChainCookies.hopEvents
  cases found : hop.uri.host with
  | none =>
      simp only [found] at stored
      cases stored
      exact .refl chain
  | some host =>
      simp only [found] at stored ⊢
      exact storeLoop_follows _ _ _ _ stored

theorem storeAll_follows :
    ∀ (hops : List Hop) {chain after : ChainCookies},
      chain.storeAll psl hops = .ok after → chain.Follows after (chain.events psl hops)
  | [], chain, _, stored => by
      cases stored
      exact .refl chain
  | hop :: rest, chain, after, stored => by
      unfold ChainCookies.storeAll at stored
      unfold ChainCookies.events
      cases here : chain.store psl hop.headers hop.uri hop.clock with
      | error panic => simp only [here] at stored; cases stored
      | ok out =>
          simp only [here] at stored ⊢
          exact (store_follows here).append (storeAll_follows rest stored)

/-! ## Where events come from -/

/-- An event is a verdict some chain with the caller's names reached on a line of a
hop with a host. -/
structure Event.Judged (psl : Str → Option Str) (callerNames : List Str) (event : Event) :
    Prop where
  host : ∃ host, event.uri.host = some host ∧ event.host = canonicalHost host
  judged : ∃ chain : ChainCookies, chain.callerNames = callerNames ∧
    chain.judge psl event.host event.uri.path event.now event.line = .ok event.verdict

theorem storeEvents_judged {uri : Uri} {host : Str} {clock : Nat → Int}
    (found : uri.host = some host) :
    ∀ (lines : List Line) (n : Nat) (chain : ChainCookies), ∀ event ∈
      ChainCookies.storeEvents psl uri (canonicalHost host) clock n chain lines,
      event.Judged psl chain.callerNames
  | [], _, _, _, there => by cases there
  | line :: rest, n, chain, event, there => by
      unfold ChainCookies.storeEvents at there
      cases judged : chain.judge psl (canonicalHost host) uri.path (clock n) line with
      | error panic => simp only [judged] at there; cases there
      | ok verdict =>
          simp only [judged] at there
          rcases List.mem_cons.mp there with rfl | later
          · exact ⟨⟨host, found, rfl⟩, chain, rfl, judged⟩
          · have next := storeEvents_judged found rest (n + 1) (chain.keep verdict) event later
            rwa [keep_callerNames] at next

theorem events_judged :
    ∀ (hops : List Hop) (chain : ChainCookies), ∀ event ∈ chain.events psl hops,
      event.Judged psl chain.callerNames
  | [], _, _, there => by cases there
  | hop :: rest, chain, event, there => by
      unfold ChainCookies.events at there
      rcases List.mem_append.mp there with here | later
      · unfold ChainCookies.hopEvents at here
        cases found : hop.uri.host with
        | none => simp only [found] at here; cases here
        | some host =>
            simp only [found] at here
            exact storeEvents_judged found _ _ _ event here
      · cases stored : chain.store psl hop.headers hop.uri hop.clock with
        | error panic => simp only [stored] at later; cases later
        | ok out =>
            simp only [stored] at later
            have next := events_judged rest out.1 event later
            rwa [(store_follows stored).callerNames] at next

/-! ## The latest line of a key -/

/-- Whether a verdict writes under `key`: keeps a cookie there or deletes one. -/
def Verdict.touches (verdict : Verdict) (key : Key) : Prop :=
  ∃ cookie : Cookie, (verdict = .stored cookie ∨ verdict = .expired cookie) ∧ cookie.key = key

/-- `event` kept `cookie`, and no later event kept or deleted its key. -/
def LatestEvent (events : List Event) (event : Event) (cookie : Cookie) : Prop :=
  ∃ before after, events = before ++ event :: after ∧ event.verdict = .stored cookie ∧
    ∀ later ∈ after, ¬ later.verdict.touches cookie.key

theorem write_touches {verdict : Verdict} {key : Key} (touches : verdict.touches key) :
    ∃ w, verdict.write? = some w ∧ w.key Cookie.key = key := by
  obtain ⟨cookie, rfl | rfl, rfl⟩ := touches
  · exact ⟨_, rfl, rfl⟩
  · exact ⟨_, rfl, rfl⟩

theorem latestEvent_of_latest {events : List Event} {cookie : Cookie}
    (latest : KeyedList.Latest Cookie.key (writes events) cookie) :
    ∃ event, LatestEvent events event cookie := by
  obtain ⟨before, after, split, untouched⟩ := latest
  unfold writes at split
  obtain ⟨front, rest, whole, -, tail⟩ := List.filterMap_eq_append_iff.mp split
  obtain ⟨skipped, event, later, shape, idle, written, lateWrites⟩ :=
    List.filterMap_eq_cons_iff.mp tail
  refine ⟨event, front ++ skipped, later, by rw [whole, shape, List.append_assoc], ?_, ?_⟩
  · cases kind : event.verdict with
    | stored c =>
        rw [kind] at written
        cases written
        rfl
    | expired c => rw [kind] at written; cases written
    | ignored => rw [kind] at written; cases written
    | callerOwned c => rw [kind] at written; cases written
    | overLimit c => rw [kind] at written; cases written
  · intro e there touches
    obtain ⟨w, wrote, same⟩ := write_touches touches
    exact untouched w (by rw [← lateWrites]; exact List.mem_filterMap.mpr ⟨e, there, wrote⟩) same

/-- **Every held cookie is the latest line of its key.** -/
theorem held_latest {callerNames : List Str} {hops : List Hop} {chain : ChainCookies}
    (stored : (ChainCookies.withCallerCookies callerNames).storeAll psl hops = .ok chain)
    {cookie : Cookie} (held : cookie ∈ chain.cookies) :
    ∃ event, LatestEvent ((ChainCookies.withCallerCookies callerNames).events psl hops) event
      cookie := by
  have follows := storeAll_follows hops stored
  rw [follows.cookies] at held
  exact latestEvent_of_latest (KeyedList.mem_run.mp held)

/-- The line behind a kept cookie. -/
theorem LatestEvent.parsed {callerNames : List Str} {hops : List Hop} {event : Event}
    {cookie : Cookie}
    (latest : LatestEvent ((ChainCookies.withCallerCookies callerNames).events psl hops) event
      cookie) :
    (∃ host, event.uri.host = some host ∧ event.host = canonicalHost host) ∧
      eqIgnoreAsciiCase event.line.1 "set-cookie".toList = true ∧
      parseSetCookie psl event.line.2 event.host event.uri.path event.now =
        .ok (some (cookie, false)) ∧
      cookie.name ∉ callerNames := by
  obtain ⟨before, after, whole, kept, -⟩ := latest
  have there : event ∈ (ChainCookies.withCallerCookies callerNames).events psl hops := by
    rw [whole]
    simp
  have source := events_judged hops _ event there
  obtain ⟨chain, names, judged⟩ := source.judged
  obtain ⟨named, parsed, free⟩ := judge_write judged (.inl kept)
  refine ⟨source.host, named, ?_, ?_⟩
  · simpa [kept] using parsed
  · rw [names] at free
    exact free

/-- Held cookies print unambiguously. -/
theorem held_clean {callerNames : List Str} {hops : List Hop} {chain : ChainCookies}
    (stored : (ChainCookies.withCallerCookies callerNames).storeAll psl hops = .ok chain) :
    ∀ cookie ∈ chain.cookies, cookie.Clean := by
  intro cookie held
  obtain ⟨event, latest⟩ := held_latest stored held
  exact (parseSetCookie_spec latest.parsed.2.2.1).1

theorem mem_matched {chain : ChainCookies} {host : Str} {uri : Uri} {cookie : Cookie} :
    cookie ∈ chain.matched host uri ↔
      cookie ∈ chain.cookies ∧ cookie.applies host uri.path uri.isHttps = true := by
  have perm := List.perm_insertionSort (fun a b : Cookie => byteLen b.path ≤ byteLen a.path)
    (chain.cookies.filter fun c => c.applies host uri.path uri.isHttps)
  unfold ChainCookies.matched
  rw [perm.mem_iff, List.mem_filter]

/-- The header sent says exactly what the matching cookies are. -/
theorem cookiePairs_headerFor {callerNames : List Str} {hops : List Hop} {chain : ChainCookies}
    (stored : (ChainCookies.withCallerCookies callerNames).storeAll psl hops = .ok chain)
    {uri : Uri} {text : Str} (sent : chain.headerFor uri = some text) :
    ∃ host, uri.host = some host ∧
      cookiePairs text =
        (chain.matched (canonicalHost host) uri).map fun c => (c.name, c.value) := by
  unfold ChainCookies.headerFor at sent
  split at sent
  · cases sent
  · rename_i host found
    simp only at sent
    split at sent
    · cases sent
    · cases sent
      refine ⟨host, found, cookiePairs_intercalate ?_⟩
      intro c there
      exact held_clean stored c (mem_matched.mp there).1

end Blasthttp.Cookies
