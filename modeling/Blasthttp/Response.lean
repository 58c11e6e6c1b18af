/-
# Blasthttp.Response -- what is made of a response when it is asked for

The headers as one text, the cookies, the body as text and the hashes are worked out at
the first access and kept in a cell each.  `rawHeaders_read_iff` says which header
lists the text still determines, and `access_sound` that no cell ever shows.
-/
import Blasthttp.Client.SendInner
import Blasthttp.Lib.LastValue
import Blasthttp.Lib.Separated
import Blasthttp.Rust.Bytes

namespace Blasthttp

open Rust Client Lib.LastValue Lib.Separated

set_option autoImplicit false

/-! ## Raw headers -/

def lineBreak : Str := "\r\n".toList

def nameEnd : Str := ": ".toList

/-- The loop of `build_raw_headers`. -/
def pushHeaders : Str → Bool → List (Str × Str) → Str
  | out, _, [] => out
  | out, first, (k, v) :: rest =>
      let out := if first then out else out ++ lineBreak
      pushHeaders (out ++ k ++ nameEnd ++ v) false rest

def buildRawHeaders (headers : List (Str × Str)) : Str := pushHeaders [] true headers

/-- How the text is read as headers again: a line each, the name up to the first `": "`. -/
def readRawHeaders (raw : Str) : Option (List (Str × Str)) :=
  if raw = [] then some [] else (split lineBreak raw).mapM (cut nameEnd)

def headerLine (header : Str × Str) : Str := header.1 ++ nameEnd ++ header.2

/-- A header that stays in its line and whose name ends where it should. -/
structure OneLine (header : Str × Str) : Prop where
  name : ¬ lineBreak <:+: header.1
  value : ¬ lineBreak <:+: header.2
  ends : ¬ nameEnd <:+: header.1

theorem plain_lineBreak : Plain lineBreak := plain_pair (by decide)

theorem plain_nameEnd : Plain nameEnd := plain_pair (by decide)

theorem pushHeaders_false (out : Str) (headers : List (Str × Str)) :
    pushHeaders out false headers = out ++ headers.flatMap fun h => lineBreak ++ headerLine h := by
  induction headers generalizing out with
  | nil => simp [pushHeaders]
  | cons header rest ih =>
      rw [pushHeaders, ih, List.flatMap_cons]
      simp [headerLine]

theorem intercalate_flatMap (first : Str) (rest : List Str) :
    lineBreak.intercalate (first :: rest) = first ++ rest.flatMap (lineBreak ++ ·) := by
  induction rest generalizing first with
  | nil => simp
  | cons next rest ih => rw [List.intercalate_cons_cons, ih, List.flatMap_cons, List.append_assoc,
      List.append_assoc]

theorem buildRawHeaders_eq (headers : List (Str × Str)) :
    buildRawHeaders headers = lineBreak.intercalate (headers.map headerLine) := by
  cases headers with
  | nil => rfl
  | cons header rest =>
      rw [List.map_cons, intercalate_flatMap, buildRawHeaders, pushHeaders, pushHeaders_false,
        List.flatMap_map]
      simp [headerLine]

/-- A line break inside a line is inside the name or inside the value. -/
theorem headerLine_free_iff (header : Str × Str) :
    ¬ lineBreak <:+: headerLine header ↔
      ¬ lineBreak <:+: header.1 ∧ ¬ lineBreak <:+: header.2 := by
  constructor
  · intro free
    refine ⟨fun inside => free ?_, fun inside => free ?_⟩
    · rw [headerLine, List.append_assoc]
      exact inside.trans (List.prefix_append _ _).isInfix
    · exact inside.trans (List.suffix_append _ _).isInfix
  · rintro ⟨name, value⟩ inside
    rw [headerLine, List.append_assoc] at inside
    rcases pair_infix_append inside with here | there | ⟨-, starts⟩
    · exact name here
    · rcases pair_infix_append there with middle | behind | ⟨ends, -⟩
      · revert middle
        decide
      · exact value behind
      · revert ends
        decide
    · obtain ⟨rest, whole⟩ := starts
      cases whole

/-- A line that is read as a header is that header's line. -/
theorem headerLine_of_read {line : Str} {header : Str × Str} (read : cut nameEnd line = some header) :
    line = headerLine header :=
  (@cut_spec _ _ nameEnd line header.1 header.2 read).1

theorem headerLine_ne_nil (header : Str × Str) : headerLine header ≠ [] := by
  simp [headerLine, nameEnd]

theorem buildRawHeaders_eq_nil {headers : List (Str × Str)} :
    buildRawHeaders headers = [] ↔ headers = [] := by
  rw [buildRawHeaders_eq]
  cases headers with
  | nil => simp
  | cons header rest =>
      rw [List.map_cons, intercalate_flatMap]
      simp [headerLine_ne_nil]

theorem mapM_cut_lines {lines : List Str} {headers : List (Str × Str)}
    (read : lines.mapM (cut nameEnd) = some headers) : lines = headers.map headerLine := by
  induction lines generalizing headers with
  | nil =>
      cases read
      rfl
  | cons line lines ih =>
      rw [List.mapM_cons] at read
      obtain ⟨header, first, later⟩ := Option.bind_eq_some_iff.mp read
      obtain ⟨rest, others, all⟩ := Option.bind_eq_some_iff.mp later
      cases all
      rw [List.map_cons, ← headerLine_of_read first, ← ih others]

theorem cut_headerLine_iff (header : Str × Str) :
    cut nameEnd (headerLine header) = some header ↔ ¬ nameEnd <:+: header.1 :=
  plain_nameEnd.cut_append_iff

theorem mapM_cut_iff (headers : List (Str × Str)) :
    (headers.map headerLine).mapM (cut nameEnd) = some headers ↔
      ∀ header ∈ headers, ¬ nameEnd <:+: header.1 := by
  induction headers with
  | nil => simp
  | cons header rest ih =>
      rw [List.map_cons, List.mapM_cons, List.forall_mem_cons, ← ih, ← cut_headerLine_iff]
      constructor
      · intro read
        obtain ⟨first, here, later⟩ := Option.bind_eq_some_iff.mp read
        obtain ⟨others, behind, all⟩ := Option.bind_eq_some_iff.mp later
        cases all
        exact ⟨here, behind⟩
      · rintro ⟨here, behind⟩
        simp [here, behind]

/-- **The text is as good as the list.**  Raw headers are read as the headers they were built
from, exactly when none of these has a line break inside or a `": "` in its name. -/
theorem rawHeaders_read_iff (headers : List (Str × Str)) :
    readRawHeaders (buildRawHeaders headers) = some headers ↔
      ∀ header ∈ headers, OneLine header := by
  by_cases none_ : headers = []
  · subst none_
    simp [readRawHeaders, buildRawHeaders, pushHeaders]
  have some_ : headers.map headerLine ≠ [] := by simp [none_]
  rw [readRawHeaders, if_neg (mt buildRawHeaders_eq_nil.mp none_), buildRawHeaders_eq]
  constructor
  · intro read header there
    have lines := mapM_cut_lines read
    have free := (plain_lineBreak.split_intercalate_iff.mp lines).2 _
      (List.mem_map_of_mem there)
    obtain ⟨name, value⟩ := (headerLine_free_iff header).mp free
    refine ⟨name, value, ?_⟩
    rw [lines] at read
    exact (mapM_cut_iff headers).mp read header there
  · intro each
    have free : ∀ line ∈ headers.map headerLine, ¬ lineBreak <:+: line := by
      intro line there
      obtain ⟨header, mem, rfl⟩ := List.mem_map.mp there
      exact (headerLine_free_iff header).mpr ⟨(each header mem).name, (each header mem).value⟩
    rw [plain_lineBreak.split_intercalate_iff.mpr ⟨some_, free⟩, mapM_cut_iff]
    exact fun header there => (each header there).ends

/-! ## Cookies -/

/-- The pair before the first `;` of a `Set-Cookie` line. -/
def setCookiePair (header : Str × Str) : Option (Str × Str) :=
  if eqIgnoreAsciiCase header.1 "set-cookie".toList then
    (splitOnce '=' ((header.2.splitOn ';').headD [])).map fun parts => (trim parts.1, trim parts.2)
  else none

def parseSetCookies (headers : List (Str × Str)) : Finmap fun _ : Str => Str :=
  headers.foldl
    (fun out header =>
      match setCookiePair header with
      | some (name, value) => out.insert name value
      | none => out) ∅

/-! ## Text and hashes -/

def bodyText (bytes : List UInt8) : Str :=
  match fromUtf8 bytes with
  | some s => s
  | none => fromUtf8Lossy bytes

/-- What OpenSSL and the `murmur3` crate compute, a failure being `none`. -/
structure Digests where
  md5 : List UInt8 → Option (List UInt8)
  sha256 : List UInt8 → Option (List UInt8)
  murmur3 : List UInt8 → Option UInt32

def hexDigest (algo : List UInt8 → Option (List UInt8)) (data : List UInt8) : Str :=
  ((algo data).map fun digest => digest.flatMap fun b =>
    [Nat.digitChar (b.toNat / 16), Nat.digitChar (b.toNat % 16)]).getD []

def mmh3 (digests : Digests) (data : List UInt8) : Int32 := ((digests.murmur3 data).getD 0).toInt32

structure ResponseHash where
  bodyMd5 : Str
  bodyMmh3 : Int32
  bodySha256 : Str
  headerMd5 : Str
  headerMmh3 : Int32
  headerSha256 : Str
  deriving DecidableEq

def ResponseHash.compute (digests : Digests) (body : List UInt8) (rawHeaders : Str) :
    ResponseHash where
  bodyMd5 := hexDigest digests.md5 body
  bodyMmh3 := mmh3 digests body
  bodySha256 := hexDigest digests.sha256 body
  headerMd5 := hexDigest digests.md5 (utf8Bytes rawHeaders)
  headerMmh3 := mmh3 digests (utf8Bytes rawHeaders)
  headerSha256 := hexDigest digests.sha256 (utf8Bytes rawHeaders)

/-! ## Cells -/

/-- A response with the cells of what has been asked of it. -/
structure CachedResponse where
  inner : Response
  bodyCache : Option Str
  rawHeadersCache : Option Str
  cookiesCache : Option (Finmap fun _ : Str => Str)
  hashCache : Option ResponseHash

/-- What `serialize` writes; the fields that are read off the response are the response. -/
structure Serialized where
  inner : Response
  body : Str
  rawHeaders : Str
  cookies : Finmap fun _ : Str => Str
  hash : ResponseHash

namespace CachedResponse

/-- No cell is filled yet. -/
def fresh (inner : Response) : CachedResponse := ⟨inner, none, none, none, none⟩

def clone (r : CachedResponse) : CachedResponse := fresh r.inner

def body (r : CachedResponse) : Str × CachedResponse :=
  let text := r.bodyCache.getD (bodyText r.inner.bodyBytes)
  (text, { r with bodyCache := some text })

def rawHeaders (r : CachedResponse) : Str × CachedResponse :=
  let raw := r.rawHeadersCache.getD (buildRawHeaders r.inner.headers)
  (raw, { r with rawHeadersCache := some raw })

def cookies (r : CachedResponse) : (Finmap fun _ : Str => Str) × CachedResponse :=
  let found := r.cookiesCache.getD (parseSetCookies r.inner.headers)
  (found, { r with cookiesCache := some found })

/-- The raw headers are asked for first. -/
def hash (digests : Digests) (r : CachedResponse) : ResponseHash × CachedResponse :=
  let (raw, r) := r.rawHeaders
  let hash := r.hashCache.getD (ResponseHash.compute digests r.inner.bodyBytes raw)
  (hash, { r with hashCache := some hash })

def serialize (digests : Digests) (r : CachedResponse) : Serialized × CachedResponse :=
  let (body, r) := r.body
  let (raw, r) := r.rawHeaders
  let (found, r) := r.cookies
  let (hash, r) := r.hash digests
  (⟨r.inner, body, raw, found, hash⟩, r)

end CachedResponse

inductive Accessor where
  | body
  | rawHeaders
  | cookies
  | hash
  | serialize
  deriving DecidableEq

inductive Shown where
  | text (s : Str)
  | cookies (map : Finmap fun _ : Str => Str)
  | hash (hash : ResponseHash)
  | serialized (out : Serialized)

def CachedResponse.access (digests : Digests) (r : CachedResponse) :
    Accessor → Shown × CachedResponse
  | .body => (.text r.body.1, r.body.2)
  | .rawHeaders => (.text r.rawHeaders.1, r.rawHeaders.2)
  | .cookies => (.cookies r.cookies.1, r.cookies.2)
  | .hash => (.hash (r.hash digests).1, (r.hash digests).2)
  | .serialize => (.serialized (r.serialize digests).1, (r.serialize digests).2)

/-- What a response shows, worked out anew. -/
def Client.Response.shown (digests : Digests) (r : Response) : Accessor → Shown
  | .body => .text (bodyText r.bodyBytes)
  | .rawHeaders => .text (buildRawHeaders r.headers)
  | .cookies => .cookies (parseSetCookies r.headers)
  | .hash => .hash (ResponseHash.compute digests r.bodyBytes (buildRawHeaders r.headers))
  | .serialize =>
      .serialized ⟨r, bodyText r.bodyBytes, buildRawHeaders r.headers, parseSetCookies r.headers,
        ResponseHash.compute digests r.bodyBytes (buildRawHeaders r.headers)⟩

/-- A filled cell holds what is worked out. -/
structure CachedResponse.Sound (digests : Digests) (r : CachedResponse) : Prop where
  body : ∀ s ∈ r.bodyCache, s = bodyText r.inner.bodyBytes
  rawHeaders : ∀ s ∈ r.rawHeadersCache, s = buildRawHeaders r.inner.headers
  cookies : ∀ map ∈ r.cookiesCache, map = parseSetCookies r.inner.headers
  hash : ∀ hash ∈ r.hashCache,
    hash = ResponseHash.compute digests r.inner.bodyBytes (buildRawHeaders r.inner.headers)

section Sound

variable {digests : Digests} {r : CachedResponse}

theorem sound_fresh (inner : Response) : (CachedResponse.fresh inner).Sound digests :=
  ⟨nofun, nofun, nofun, nofun⟩

theorem getD_of_sound {α : Type} {cell : Option α} {value : α} (sound : ∀ a ∈ cell, a = value) :
    cell.getD value = value := by
  cases cell with
  | none => rfl
  | some a => exact sound a rfl

theorem sound_filled {α : Type} {cell : Option α} {value : α} (sound : ∀ a ∈ cell, a = value) :
    ∀ a ∈ some (cell.getD value), a = value := by
  rintro a ⟨⟩
  exact getD_of_sound sound

theorem CachedResponse.Sound.withBody (sound : r.Sound digests) : r.body.2.Sound digests :=
  ⟨sound_filled sound.body, sound.rawHeaders, sound.cookies, sound.hash⟩

theorem CachedResponse.Sound.withRawHeaders (sound : r.Sound digests) :
    r.rawHeaders.2.Sound digests :=
  ⟨sound.body, sound_filled sound.rawHeaders, sound.cookies, sound.hash⟩

theorem CachedResponse.Sound.withCookies (sound : r.Sound digests) : r.cookies.2.Sound digests :=
  ⟨sound.body, sound.rawHeaders, sound_filled sound.cookies, sound.hash⟩

theorem CachedResponse.Sound.hash_eq (sound : r.Sound digests) :
    (r.hash digests).1 =
      ResponseHash.compute digests r.inner.bodyBytes (buildRawHeaders r.inner.headers) := by
  have raw : r.rawHeaders.1 = buildRawHeaders r.inner.headers := getD_of_sound sound.rawHeaders
  show Option.getD _ (ResponseHash.compute digests r.inner.bodyBytes r.rawHeaders.1) = _
  rw [raw]
  exact getD_of_sound sound.hash

theorem CachedResponse.Sound.withHash (sound : r.Sound digests) :
    (r.hash digests).2.Sound digests where
  body := sound.body
  rawHeaders := sound.withRawHeaders.rawHeaders
  cookies := sound.cookies
  hash := by
    rintro hash ⟨⟩
    exact sound.hash_eq

/-- **No cell shows.**  An access gives what would be worked out anew, and leaves the response
with cells that are right. -/
theorem access_sound (sound : r.Sound digests) (what : Accessor) :
    (r.access digests what).1 = r.inner.shown digests what ∧
      (r.access digests what).2.inner = r.inner ∧ (r.access digests what).2.Sound digests := by
  have raw : r.rawHeaders.1 = buildRawHeaders r.inner.headers := getD_of_sound sound.rawHeaders
  cases what with
  | body => exact ⟨congrArg Shown.text (getD_of_sound sound.body), rfl, sound.withBody⟩
  | rawHeaders => exact ⟨congrArg Shown.text raw, rfl, sound.withRawHeaders⟩
  | cookies => exact ⟨congrArg Shown.cookies (getD_of_sound sound.cookies), rfl, sound.withCookies⟩
  | hash => exact ⟨congrArg Shown.hash sound.hash_eq, rfl, sound.withHash⟩
  | serialize =>
      have before := sound.withBody.withRawHeaders.withCookies
      refine ⟨?_, rfl, before.withHash⟩
      have same : (r.serialize digests).1 =
          ⟨r.inner, r.body.1, r.body.2.rawHeaders.1, r.body.2.rawHeaders.2.cookies.1,
            (r.body.2.rawHeaders.2.cookies.2.hash digests).1⟩ := rfl
      show Shown.serialized (r.serialize digests).1 = _
      rw [same, before.hash_eq]
      have text : r.body.1 = bodyText r.inner.bodyBytes := getD_of_sound sound.body
      have raw' : r.body.2.rawHeaders.1 = buildRawHeaders r.inner.headers :=
        getD_of_sound sound.withBody.rawHeaders
      have found : r.body.2.rawHeaders.2.cookies.1 = parseSetCookies r.inner.headers :=
        getD_of_sound sound.withBody.withRawHeaders.cookies
      rw [text, raw', found]
      rfl

end Sound

end Blasthttp
