/-
# Blasthttp.Cookies.Creation -- the order of a `Cookie` header

`header_for` sorts by path length and leaves ties in the order of the chain's list.  A
cookie that is replaced goes to the end of that list, so ties come in the order of their
last writes (`sent_written`), not of their creations; the two agree where no cookie was
replaced after a younger one of the same path length was written
(`sent_creationOrdered_iff`).
-/
import Blasthttp.Cookies.Address
import Blasthttp.Lib.Recency

namespace Blasthttp.Cookies

open Blasthttp.Rust Blasthttp.Http Blasthttp.Lib

set_option autoImplicit false

variable {psl : Str → Option Str}

/-- The creation times of the keys held: replacing a cookie keeps its time, deleting it
forgets it. -/
def creationTimes (events : List Event) : Key → Option Nat :=
  KeyedList.created Cookie.key (writes events)

/-- The times at which the cookies held were last set. -/
def writeTimes (events : List Event) : Key → Option Nat :=
  KeyedList.written Cookie.key (writes events)

/-- Longer paths first, and by `times` among paths of one length. -/
def Ordered (times : Key → Option Nat) (a b : Cookie) : Prop :=
  byteLen b.path < byteLen a.path ∨
    (byteLen a.path = byteLen b.path ∧ KeyedList.Before times a.key b.key)

/-- The cookies sent to `uri` stand as RFC 6265 5.4 has them. -/
def CreationOrdered (events : List Event) (chain : ChainCookies) (uri : Uri) : Prop :=
  (chain.sent uri).Pairwise (Ordered (creationTimes events))

/-- Cookies for `uri` with paths of one length were last set in the order in which they
were created. -/
def WrittenAsCreated (events : List Event) (chain : ChainCookies) (uri : Uri) : Prop :=
  ∀ host, uri.host = some host → ∀ a ∈ chain.cookies, ∀ b ∈ chain.cookies,
    a.applies (canonicalHost host) uri.path uri.isHttps = true →
    b.applies (canonicalHost host) uri.path uri.isHttps = true →
    byteLen a.path = byteLen b.path → KeyedList.Before (creationTimes events) a.key b.key →
      KeyedList.Before (writeTimes events) a.key b.key

/-! ## The order sent -/

/-- The sort is stable, so ties stand in the order of their last writes. -/
theorem sent_written {callerNames : List Str} {hops : List Hop} {chain : ChainCookies}
    (stored : (ChainCookies.withCallerCookies callerNames).storeAll psl hops = .ok chain)
    (uri : Uri) :
    (chain.sent uri).Pairwise
      (Ordered (writeTimes ((ChainCookies.withCallerCookies callerNames).events psl hops))) := by
  have held := (storeAll_follows hops stored).cookies
  have order := @KeyedList.run_written Cookie Key _ Cookie.key
    (writes ((ChainCookies.withCallerCookies callerNames).events psl hops))
  have start : (ChainCookies.withCallerCookies callerNames).cookies = [] := rfl
  rw [start] at held
  rw [← held] at order
  unfold ChainCookies.sent
  cases uri.host with
  | none => exact List.Pairwise.nil
  | some host =>
      have sorted := KeyedList.pairwise_insertionSort_ties
        (r := fun a b : Cookie => byteLen b.path ≤ byteLen a.path)
        (fun a b => Nat.le_total _ _) (fun a b c first second => second.trans first)
        (order.sublist (List.filter_sublist (p := fun c : Cookie =>
          c.applies (canonicalHost host) uri.path uri.isHttps)))
      refine sorted.imp ?_
      rintro a b ⟨longer, ties⟩
      rcases Nat.lt_or_ge (byteLen b.path) (byteLen a.path) with more | same
      · exact .inl more
      · exact .inr ⟨Nat.le_antisymm same longer, ties same⟩

/-- **When cookies go out in the order of their creation.** -/
theorem sent_creationOrdered_iff {callerNames : List Str} {hops : List Hop} {chain : ChainCookies}
    (stored : (ChainCookies.withCallerCookies callerNames).storeAll psl hops = .ok chain)
    (uri : Uri) :
    (∀ text, chain.headerFor uri = some text →
      cookiePairs text = (chain.sent uri).map fun c => (c.name, c.value)) ∧
    (CreationOrdered ((ChainCookies.withCallerCookies callerNames).events psl hops) chain uri ↔
      WrittenAsCreated ((ChainCookies.withCallerCookies callerNames).events psl hops) chain uri) := by
  have order := sent_written stored uri
  have held := (storeAll_follows hops stored).cookies
  have start : (ChainCookies.withCallerCookies callerNames).cookies = [] := rfl
  rw [start] at held
  refine ⟨?_, ?_, ?_⟩
  · intro text printed
    obtain ⟨host, found, pairs⟩ := cookiePairs_headerFor stored printed
    rw [pairs, ChainCookies.sent, found]
  · intro created host found a heldA b heldB appliesA appliesB same before
    have sentA := mem_sent.mpr ⟨host, found, heldA, appliesA⟩
    have sentB := mem_sent.mpr ⟨host, found, heldB, appliesB⟩
    have other : a ≠ b := by
      rintro rfl
      exact before.asymm before
    -- whichever stands first does so by both orders
    rcases KeyedList.pairwise_or (created.and order) sentA sentB other with
      ⟨-, byWrite⟩ | ⟨byCreation, -⟩
    · rcases byWrite with longer | ⟨-, less⟩
      · omega
      · exact less
    · rcases byCreation with longer | ⟨-, less⟩
      · omega
      · exact absurd less before.asymm
  · intro agree
    refine order.imp_of_mem ?_
    rintro a b sentA sentB (longer | ⟨same, less⟩)
    · exact .inl longer
    · obtain ⟨host, found, heldA, appliesA⟩ := mem_sent.mp sentA
      obtain ⟨host', found', heldB, appliesB⟩ := mem_sent.mp sentB
      rw [found] at found'
      cases found'
      have other : a.key ≠ b.key := by
        intro keys
        rw [keys] at less
        exact less.asymm less
      rw [held] at heldA heldB
      rcases @KeyedList.marks_total _ _ _ Cookie.key true _ a b heldA heldB other with
        before | after
      · exact .inr ⟨same, before⟩
      · rw [← held] at heldA heldB
        have swapped := agree host found b heldB a heldA appliesB appliesA same.symm after
        exact absurd swapped less.asymm

/-! `a` is set, then `b`, then `a` again. -/

def resetAgainHop : Hop where
  headers := [("set-cookie".toList, "a=1".toList), ("set-cookie".toList, "b=2".toList),
    ("set-cookie".toList, "a=3".toList)]
  uri := exampleHost "example.com" "/"
  clock := fun _ => 0

def siteCookie (name value : String) : Cookie where
  name := name.toList
  value := value.toList
  domain := "example.com".toList
  hostOnly := true
  path := "/".toList
  secure := false

theorem sent_creationOrdered_iff_login :
    (∀ text, ChainCookies.headerFor ⟨[loginCookie], []⟩ (exampleHost "app.example.com" "/app") =
        some text →
      cookiePairs text =
        (ChainCookies.sent ⟨[loginCookie], []⟩ (exampleHost "app.example.com" "/app")).map
          fun c => (c.name, c.value)) ∧
    (CreationOrdered ((ChainCookies.withCallerCookies []).events exampleList [loginHop])
        ⟨[loginCookie], []⟩ (exampleHost "app.example.com" "/app") ↔
      WrittenAsCreated ((ChainCookies.withCallerCookies []).events exampleList [loginHop])
        ⟨[loginCookie], []⟩ (exampleHost "app.example.com" "/app")) :=
  @sent_creationOrdered_iff exampleList [] [loginHop] ⟨[loginCookie], []⟩ (by decide +kernel)
    (exampleHost "app.example.com" "/app")

/-- `b` goes out in front of `a`, which is older. -/
theorem sent_reordered :
    (ChainCookies.withCallerCookies []).storeAll exampleList [resetAgainHop] =
      .ok ⟨[siteCookie "b" "2", siteCookie "a" "3"], []⟩ ∧
    ChainCookies.headerFor ⟨[siteCookie "b" "2", siteCookie "a" "3"], []⟩
      (exampleHost "example.com" "/") = some "b=2; a=3".toList ∧
    creationTimes ((ChainCookies.withCallerCookies []).events exampleList [resetAgainHop])
      (siteCookie "a" "3").key = some 0 ∧
    creationTimes ((ChainCookies.withCallerCookies []).events exampleList [resetAgainHop])
      (siteCookie "b" "2").key = some 1 ∧
    ¬ CreationOrdered ((ChainCookies.withCallerCookies []).events exampleList [resetAgainHop])
      ⟨[siteCookie "b" "2", siteCookie "a" "3"], []⟩ (exampleHost "example.com" "/") := by
  have older : creationTimes ((ChainCookies.withCallerCookies []).events exampleList
      [resetAgainHop]) (siteCookie "a" "3").key = some 0 := by decide +kernel
  have younger : creationTimes ((ChainCookies.withCallerCookies []).events exampleList
      [resetAgainHop]) (siteCookie "b" "2").key = some 1 := by decide +kernel
  have sent : ChainCookies.sent ⟨[siteCookie "b" "2", siteCookie "a" "3"], []⟩
      (exampleHost "example.com" "/") = [siteCookie "b" "2", siteCookie "a" "3"] := by
    decide +kernel
  refine ⟨by decide +kernel, by decide +kernel, older, younger, fun ordered => ?_⟩
  rw [CreationOrdered, sent, List.pairwise_pair] at ordered
  rcases ordered with longer | ⟨-, m, n, first, second, less⟩
  · exact absurd longer (by decide)
  · rw [younger] at first
    rw [older] at second
    cases first
    cases second
    exact absurd less (by decide)

end Blasthttp.Cookies
