/-
# Blasthttp.Cookies.Jar -- the chain against a jar without limits

A user agent of RFC 6265 holds the last cookie of each key that has not expired, and sends
those that apply.  `ChainCookies` does the same with the lines it does not turn away for
its limits (`headerFor_jar`), and each of those has its name in a report: no cookie is
dropped quietly.
-/
import Blasthttp.Cookies.Frame

namespace Blasthttp.Cookies

open Blasthttp.Rust Blasthttp.Http Blasthttp.Lib

set_option autoImplicit false

variable {psl : Str → Option Str}

/-! ## The jar -/

/-- A header line as a user agent receives it. -/
structure Receipt where
  host : Str
  path : Str
  line : Line
  now : Int
  deriving DecidableEq

/-- The cookies held, each under its key. -/
abbrev Jar := Key → Option Cookie

def Jar.empty : Jar := fun _ => none

/-- What a `Set-Cookie` does to its key, if its name is not one of the caller's. -/
def Jar.receive (psl : Str → Option Str) (callerNames : List Str) (jar : Jar) (r : Receipt) : Jar :=
  if eqIgnoreAsciiCase r.line.1 "set-cookie".toList then
    match parseSetCookie psl r.line.2 r.host r.path r.now with
    | .ok (some (cookie, expired)) =>
        if callerNames.contains cookie.name then jar
        else Function.update jar cookie.key (if expired then none else some cookie)
    | _ => jar
  else jar

def Jar.receiveAll (psl : Str → Option Str) (callerNames : List Str) (receipts : List Receipt) : Jar :=
  receipts.foldl (Jar.receive psl callerNames) Jar.empty

/-! ## The lines of a chain -/

def receiptsFrom (host path : Str) (clock : Nat → Int) : Nat → List Line → List Receipt
  | _, [] => []
  | n, line :: rest => ⟨host, path, line, clock n⟩ :: receiptsFrom host path clock (n + 1) rest

/-- The lines a response brings; one from a URI without a host brings none. -/
def Hop.receipts (hop : Hop) : List Receipt :=
  match hop.uri.host with
  | none => []
  | some host => receiptsFrom (canonicalHost host) hop.uri.path hop.clock 0 hop.headers

def Event.receipt (event : Event) : Receipt := ⟨event.host, event.uri.path, event.line, event.now⟩

/-- The name of a cookie that is turned away for the limits. -/
def Verdict.limited? : Verdict → Option Str
  | .overLimit cookie => some cookie.name
  | _ => none

/-- What `store` reports for each hop. -/
def ChainCookies.reports (psl : Str → Option Str) (chain : ChainCookies) : List Hop → List Rejected
  | [] => []
  | hop :: rest =>
      match chain.store psl hop.headers hop.uri hop.clock with
      | .error _ => []
      | .ok (chain, rejected) => rejected :: reports psl chain rest

theorem storeEvents_receipts {uri : Uri} {host : Str} {clock : Nat → Int} :
    ∀ (lines : List Line) (n : Nat) (chain : ChainCookies) (rejected : Rejected)
      {out : ChainCookies × Rejected},
      ChainCookies.storeLoop psl host uri.path clock n chain rejected lines = .ok out →
      (ChainCookies.storeEvents psl uri host clock n chain lines).map Event.receipt =
        receiptsFrom host uri.path clock n lines
  | [], _, _, _, _, _ => rfl
  | line :: rest, n, chain, rejected, out, stored => by
      unfold ChainCookies.storeLoop at stored
      unfold ChainCookies.storeEvents
      cases judged : chain.judge psl host uri.path (clock n) line with
      | error panic => simp only [judged] at stored; cases stored
      | ok verdict =>
          simp only [judged] at stored ⊢
          rw [List.map_cons, storeEvents_receipts rest (n + 1) _ _ stored]
          rfl

theorem hopEvents_receipts {chain : ChainCookies} {hop : Hop} {out : ChainCookies × Rejected}
    (stored : chain.store psl hop.headers hop.uri hop.clock = .ok out) :
    (chain.hopEvents psl hop).map Event.receipt = hop.receipts := by
  unfold ChainCookies.store at stored
  unfold ChainCookies.hopEvents Hop.receipts
  cases found : hop.uri.host with
  | none => rfl
  | some host =>
      simp only [found] at stored ⊢
      exact storeEvents_receipts _ _ _ _ stored

/-- Every line of every hop is judged, in order. -/
theorem events_receipts :
    ∀ (hops : List Hop) {chain after : ChainCookies}, chain.storeAll psl hops = .ok after →
      (chain.events psl hops).map Event.receipt = hops.flatMap Hop.receipts
  | [], _, _, _ => rfl
  | hop :: rest, chain, after, stored => by
      unfold ChainCookies.storeAll at stored
      unfold ChainCookies.events
      cases here : chain.store psl hop.headers hop.uri hop.clock with
      | error panic => simp only [here] at stored; cases stored
      | ok out =>
          simp only [here] at stored ⊢
          rw [List.map_append, hopEvents_receipts here, events_receipts rest stored]
          rfl

/-! ## What is reported -/

theorem mem_note {list : List Str} {name other : Str} :
    name ∈ Rejected.note list other ↔ name ∈ list ∨ name = other := by
  unfold Rejected.note
  split
  · rename_i there
    constructor
    · exact .inl
    · rintro (old | rfl)
      · exact old
      · exact there
  · rw [List.mem_append, List.mem_singleton]

theorem mem_record {rejected : Rejected} {verdict : Verdict} {name : Str} :
    name ∈ (rejected.record verdict).overLimit ↔
      name ∈ rejected.overLimit ∨ verdict.limited? = some name := by
  cases verdict with
  | overLimit cookie =>
      rw [Rejected.record, mem_note, Verdict.limited?, Option.some.injEq]
      exact or_congr_right eq_comm
  | _ => simp [Rejected.record, Verdict.limited?]

theorem storeLoop_reports {uri : Uri} {host : Str} {clock : Nat → Int} {name : Str} :
    ∀ (lines : List Line) (n : Nat) (chain : ChainCookies) (rejected : Rejected)
      {out : ChainCookies × Rejected},
      ChainCookies.storeLoop psl host uri.path clock n chain rejected lines = .ok out →
      (name ∈ out.2.overLimit ↔ name ∈ rejected.overLimit ∨
        ∃ e ∈ ChainCookies.storeEvents psl uri host clock n chain lines,
          e.verdict.limited? = some name)
  | [], _, _, _, _, stored => by
      cases stored
      simp [ChainCookies.storeEvents]
  | line :: rest, n, chain, rejected, out, stored => by
      unfold ChainCookies.storeLoop at stored
      unfold ChainCookies.storeEvents
      cases judged : chain.judge psl host uri.path (clock n) line with
      | error panic => simp only [judged] at stored; cases stored
      | ok verdict =>
          simp only [judged] at stored ⊢
          rw [storeLoop_reports rest (n + 1) _ _ stored, mem_record, or_assoc]
          simp only [List.mem_cons, exists_eq_or_imp]

theorem store_reports {chain : ChainCookies} {hop : Hop} {out : ChainCookies × Rejected}
    (stored : chain.store psl hop.headers hop.uri hop.clock = .ok out) (name : Str) :
    name ∈ out.2.overLimit ↔ ∃ e ∈ chain.hopEvents psl hop, e.verdict.limited? = some name := by
  unfold ChainCookies.store at stored
  unfold ChainCookies.hopEvents
  cases found : hop.uri.host with
  | none =>
      simp only [found] at stored
      cases stored
      simp
  | some host =>
      simp only [found] at stored ⊢
      rw [storeLoop_reports _ _ _ _ stored]
      simp

/-- The names in the reports are those of the cookies the limits turned away. -/
theorem mem_reports (name : Str) :
    ∀ (hops : List Hop) {chain after : ChainCookies}, chain.storeAll psl hops = .ok after →
      ((∃ r ∈ chain.reports psl hops, name ∈ r.overLimit) ↔
        ∃ e ∈ chain.events psl hops, e.verdict.limited? = some name)
  | [], _, _, _ => by simp [ChainCookies.reports, ChainCookies.events]
  | hop :: rest, chain, after, stored => by
      unfold ChainCookies.storeAll at stored
      unfold ChainCookies.events ChainCookies.reports
      cases here : chain.store psl hop.headers hop.uri hop.clock with
      | error panic => simp only [here] at stored; cases stored
      | ok out =>
          simp only [here] at stored ⊢
          simp only [List.mem_cons, exists_eq_left, List.mem_append, or_and_right, exists_or]
          rw [store_reports here, mem_reports name rest stored]

/-! ## The chain holds the jar -/

/-- A line that the limits do not turn away does to the chain what it does to the jar. -/
theorem LineExit.receive {chain : ChainCookies} {event : Event}
    (ends : LineExit psl chain event.host event.uri.path event.now event.line event.verdict)
    (kept : event.verdict.limited? = none) (jar : Jar) :
    jar.receive psl chain.callerNames event.receipt =
      event.verdict.write?.toList.foldl (KeyedList.update Cookie.key) jar := by
  unfold Jar.receive
  generalize event.verdict = verdict at ends kept
  cases ends with
  | otherHeader named =>
      simp only [Event.receipt, named, Bool.false_eq_true, if_false]
      rfl
  | unparsed parsed =>
      simp only [Event.receipt, parsed, ite_self]
      rfl
  | callerOwned parsed owned =>
      have owned := List.contains_iff_mem.mpr owned
      simp only [Event.receipt, parsed, owned, if_true, ite_self]
      rfl
  | oversized parsed large => cases kept
  | full parsed noRoom => cases kept
  | expired named parsed free =>
      have free := mt List.contains_iff_mem.mp free
      simp only [Event.receipt, named, parsed, free, if_true]
      rfl
  | stored named parsed free small room =>
      have free := mt List.contains_iff_mem.mp free
      simp only [Event.receipt, named, parsed, free, if_true, if_false, Bool.false_eq_true]
      rfl

theorem limited_write {verdict : Verdict} (limited : verdict.limited?.isSome = true) :
    verdict.write? = none := by
  cases verdict with
  | overLimit cookie => rfl
  | _ => cases limited

/-- The events the limits let through, as a jar receives them. -/
def unlimited (events : List Event) : List Receipt :=
  (events.filter fun e => e.verdict.limited?.isNone).map Event.receipt

/-- A keyed list that is written to by judged events stands for the jar. -/
theorem represents_events {callerNames : List Str} {events : List Event}
    (judged : ∀ e ∈ events, e.Judged psl callerNames) {cookies : List Cookie} {jar : Jar}
    (rep : KeyedList.Represents Cookie.key cookies jar) :
    KeyedList.Represents Cookie.key (KeyedList.run Cookie.key cookies (writes events))
      ((unlimited events).foldl (Jar.receive psl callerNames) jar) := by
  induction events generalizing cookies jar with
  | nil => exact rep
  | cons e events ih =>
      have later : ∀ e ∈ events, e.Judged psl callerNames := fun e there =>
        judged e (List.mem_cons_of_mem _ there)
      unfold unlimited
      rw [writes, List.filterMap_cons, List.filter_cons]
      cases limited : e.verdict.limited? with
      | some name =>
          rw [limited_write (by rw [limited]; rfl)]
          exact ih later rep
      | none =>
          obtain ⟨chain, names, here⟩ := (judged e List.mem_cons_self).judged
          have received := (judge_exit here).receive limited jar
          rw [names] at received
          rw [Option.isNone_none, if_pos rfl, List.map_cons, List.foldl_cons, received]
          cases e.verdict.write? with
          | none => exact ih later rep
          | some w => exact ih later (rep.step w)

theorem storeAll_jar {callerNames : List Str} {hops : List Hop} {chain : ChainCookies}
    (stored : (ChainCookies.withCallerCookies callerNames).storeAll psl hops = .ok chain) :
    KeyedList.Represents Cookie.key chain.cookies
      (Jar.receiveAll psl callerNames
        (unlimited ((ChainCookies.withCallerCookies callerNames).events psl hops))) := by
  rw [(storeAll_follows hops stored).cookies]
  exact represents_events (events_judged hops _) KeyedList.represents_nil

theorem matched_nodup {chain : ChainCookies} (distinct : KeyedList.Distinct Cookie.key chain.cookies)
    (host : Str) (uri : Uri) : (chain.matched host uri).Nodup := by
  unfold ChainCookies.matched
  have perm := List.perm_insertionSort (fun a b : Cookie => byteLen b.path ≤ byteLen a.path)
    (chain.cookies.filter fun c => c.applies host uri.path uri.isHttps)
  rw [perm.nodup_iff]
  exact (List.Nodup.of_map _ distinct).filter _

/-- **The chain is an RFC 6265 jar.**  After any responses, `header_for` sends exactly the
cookies that apply of a jar that received the lines the limits let through: all lines
of all hops, but for those whose cookie is named in a report. -/
theorem headerFor_jar {callerNames : List Str} {hops : List Hop} {chain : ChainCookies}
    (stored : (ChainCookies.withCallerCookies callerNames).storeAll psl hops = .ok chain) :
    let start := ChainCookies.withCallerCookies callerNames
    let events := start.events psl hops
    let jar := Jar.receiveAll psl callerNames (unlimited events)
    events.map Event.receipt = hops.flatMap Hop.receipts ∧
    (∀ name, (∃ r ∈ start.reports psl hops, name ∈ r.overLimit) ↔
      ∃ e ∈ events, e.verdict.limited? = some name) ∧
    ((∀ r ∈ start.reports psl hops, r.overLimit = []) →
      jar = Jar.receiveAll psl callerNames (hops.flatMap Hop.receipts)) ∧
    ∀ u host, u.host = some host → ∃ sent : List Cookie, sent.Nodup ∧
      (∀ c, c ∈ sent ↔
        jar c.key = some c ∧ c.applies (canonicalHost host) u.path u.isHttps = true) ∧
      chain.headerFor u =
        if sent.isEmpty then none else some ("; ".toList.intercalate (sent.map Cookie.text)) := by
  intro start events jar
  have rep : KeyedList.Represents Cookie.key chain.cookies jar := storeAll_jar stored
  have lines : events.map Event.receipt = hops.flatMap Hop.receipts := events_receipts hops stored
  refine ⟨lines, fun name => mem_reports name hops stored, ?_, ?_⟩
  · intro quiet
    have all : events.filter (fun e => e.verdict.limited?.isNone) = events := by
      rw [List.filter_eq_self]
      intro e there
      cases limited : e.verdict.limited? with
      | none => rfl
      | some name =>
          obtain ⟨r, report, named⟩ := (mem_reports name hops stored).mpr ⟨e, there, limited⟩
          rw [quiet r report] at named
          cases named
    show Jar.receiveAll psl callerNames ((events.filter _).map Event.receipt) = _
    rw [all, lines]
  · intro u host found
    refine ⟨chain.matched (canonicalHost host) u, matched_nodup rep.distinct _ _, ?_, ?_⟩
    · intro c
      rw [mem_matched, rep.mem_iff]
    · unfold ChainCookies.headerFor
      rw [found]

/-! A login at `auth.example.com`, and a landing page that renews its cookie, sets two more
and a third which the caller has sent. -/

def landingHop : Hop where
  headers :=
    [("set-cookie".toList, "cart=7; Path=/".toList), ("Set-Cookie".toList, "theme=dark".toList),
      ("set-cookie".toList, "sid=; Domain=example.com; Path=/app; Max-Age=0".toList),
      ("server".toList, "x".toList), ("Set-Cookie".toList, "lang=de".toList),
      ("set-cookie".toList, "sid=2; Domain=example.com; Path=/app; Secure".toList)]
  uri := exampleHost "www.example.com" "/app"
  clock := fun _ => 0

def landedChain : ChainCookies where
  cookies :=
    [⟨"cart".toList, "7".toList, "www.example.com".toList, true, "/".toList, false⟩,
      ⟨"lang".toList, "de".toList, "www.example.com".toList, true, "/".toList, false⟩,
      ⟨"sid".toList, "2".toList, "example.com".toList, false, "/app".toList, true⟩]
  callerNames := ["theme".toList]

theorem headerFor_jar_landed :
    let start := ChainCookies.withCallerCookies ["theme".toList]
    let events := start.events exampleList [loginHop, landingHop]
    let jar := Jar.receiveAll exampleList ["theme".toList] (unlimited events)
    landedChain.headerFor (exampleHost "www.example.com" "/app") =
      some "sid=2; cart=7; lang=de".toList ∧
    jar = Jar.receiveAll exampleList ["theme".toList]
      ([loginHop, landingHop].flatMap Hop.receipts) ∧
    ∃ sent : List Cookie, sent.Nodup ∧
      (∀ c, c ∈ sent ↔ jar c.key = some c ∧
        c.applies (canonicalHost "www.example.com".toList) "/app".toList true = true) ∧
      landedChain.headerFor (exampleHost "www.example.com" "/app") =
        if sent.isEmpty then none else some ("; ".toList.intercalate (sent.map Cookie.text)) := by
  intro start events jar
  obtain ⟨-, -, quiet, sends⟩ := @headerFor_jar exampleList ["theme".toList] [loginHop, landingHop]
    landedChain (by decide +kernel)
  refine ⟨by decide +kernel, quiet ?_, sends (exampleHost "www.example.com" "/app") _ rfl⟩
  have reports : start.reports exampleList [loginHop, landingHop] =
      [⟨[], []⟩, ⟨["theme".toList], []⟩] := by decide +kernel
  intro r there
  rw [reports] at there
  simp only [List.mem_cons, List.not_mem_nil, or_false] at there
  rcases there with rfl | rfl <;> rfl

end Blasthttp.Cookies
