/-
# Blasthttp.Cookies.NoPanic -- when cookie handling does not panic

Of all the operations that could panic only the slice `token[..3]` does: the date parser
checks that a word has three bytes, not that the third is the last one of a character.
`Torn` says when a word of a date is sliced apart, and `cookies_return_iff` what a header
has to look like for the functions to return.
-/
import Blasthttp.Cookies.Checked
import Blasthttp.Cookies.HttpDate
import Blasthttp.Cookies.Scope
import Blasthttp.Lib.Places

namespace Blasthttp.Cookies

open Blasthttp.Rust Blasthttp.Http Blasthttp.Lib.Places

set_option autoImplicit false

variable {psl : Str → Option Str}

/-! ## The words of a date -/

/-- The first word with a colon: it is read as the time. -/
def ClockWord (before : List Str) (word : Str) : Prop := ':' ∈ word ∧ ∀ w ∈ before, ':' ∉ w

/-- The hours or the minutes are no number. -/
def NoTime (word : Str) : Prop :=
  ∀ h m rest, word.splitOn ':' = h :: m :: rest → parseI64 h = none ∨ parseI64 m = none

/-- The word begins with the name of a month. -/
def NamesMonth (word : Str) : Prop :=
  ∃ start rest, word = start ++ rest ∧ toAsciiLowercase start ∈ months

/-- Nothing behind this word is read. -/
def LastWord (before : List Str) (word : Str) : Prop := ClockWord before word ∧ NoTime word

def MonthWord (before : List Str) (word : Str) : Prop := ¬ ClockWord before word ∧ NamesMonth word

/-- A word whose third byte is not the last one of a character, where a month is looked for. -/
def Torn (before : List Str) (word : Str) : Prop :=
  Inside 3 word ∧ ¬ ClockWord before word ∧ ¬ AtSome LastWord before ∧ ¬ AtSome MonthWord before

def SafeDate (date : Str) : Prop := ¬ AtSome Torn (dateWords date)

/-! ## What is read of a word -/

theorem NamesMonth.take {word : Str} (names : NamesMonth word) :
    ∃ start, takeBytes word 3 = some start ∧ toAsciiLowercase start ∈ months := by
  obtain ⟨start, rest, rfl, listed⟩ := names
  have three : ∀ month ∈ months, byteLen month = 3 := by decide
  have length : byteLen start = 3 := by rw [← byteLen_toAsciiLowercase, three _ listed]
  exact ⟨start, by rw [← length, takeBytes_append], listed⟩

theorem NamesMonth.whole {word : Str} (names : NamesMonth word) : ¬ Inside 3 word := by
  intro inside
  obtain ⟨start, taken, -⟩ := names.take
  rw [takeBytes_none_iff.mpr (.inr inside)] at taken
  cases taken

theorem readTime_of_noTime {fields : DateFields} {word : Str} (noTime : NoTime word) :
    fields.readTime word = none := by
  unfold DateFields.readTime
  split
  · rename_i h m rest parts
    rcases noTime h m rest parts with hour | minute
    · rw [hour]
      rfl
    · rw [minute]
      cases parseI64 h <;> rfl
  · rfl

theorem readTime_of_time {fields : DateFields} {word : Str} (time : ¬ NoTime word) :
    ∃ found, fields.readTime word = some { fields with time := some found } := by
  unfold NoTime at time
  push Not at time
  obtain ⟨h, m, rest, parts, hour, minute⟩ := time
  obtain ⟨hour, read⟩ := Option.ne_none_iff_exists'.mp hour
  obtain ⟨minute, readMinute⟩ := Option.ne_none_iff_exists'.mp minute
  unfold DateFields.readTime
  rw [parts]
  simp only [read, readMinute]
  exact ⟨_, rfl⟩

/-- What one word does, by the words in front of it. -/
inductive Reads (fields : DateFields) (word : Str) : Except Panic (Option DateFields) → Prop where
  | clock (time : Int × Int × Int) (colon : ':' ∈ word ∧ fields.time = none) (time' : ¬ NoTime word) :
      Reads fields word (.ok (some { fields with time := some time }))
  | givesUp (colon : ':' ∈ word ∧ fields.time = none) (noTime : NoTime word) :
      Reads fields word (.ok none)
  | month (i : Int) (other : ¬ (':' ∈ word ∧ fields.time = none)) (missing : fields.month = none)
      (names : NamesMonth word) : Reads fields word (.ok (some { fields with month := some i }))
  | torn (other : ¬ (':' ∈ word ∧ fields.time = none)) (missing : fields.month = none)
      (inside : Inside 3 word) : Reads fields word (.error (.sliceNotOnBoundary word))
  | number (next : DateFields) (other : ¬ (':' ∈ word ∧ fields.time = none))
      (whole : fields.month ≠ none ∨ (¬ Inside 3 word ∧ ¬ NamesMonth word))
      (time : next.time = fields.time) (month : next.month = fields.month) :
      Reads fields word (.ok (some next))

theorem readNumber_keeps (fields : DateFields) (word : Str) :
    (fields.readNumber word).time = fields.time ∧ (fields.readNumber word).month = fields.month := by
  unfold DateFields.readNumber
  split
  · exact ⟨rfl, rfl⟩
  · split
    · exact ⟨rfl, rfl⟩
    · split <;> exact ⟨rfl, rfl⟩

theorem reads (fields : DateFields) (word : Str) : Reads fields word (fields.readToken word) := by
  have keeps := readNumber_keeps fields word
  unfold DateFields.readToken
  simp only [Option.isNone_iff_eq_none]
  by_cases colon : ':' ∈ word ∧ fields.time = none
  · rw [if_pos colon]
    by_cases noTime : NoTime word
    · rw [readTime_of_noTime noTime]
      exact .givesUp colon noTime
    · obtain ⟨time, read⟩ := @readTime_of_time fields word noTime
      rw [read]
      exact .clock time colon noTime
  rw [if_neg colon]
  by_cases name : fields.month = none ∧ 3 ≤ byteLen word
  · rw [if_pos name]
    cases taken : takeBytes word 3 with
    | none =>
        have inside := (takeBytes_none_iff.mp taken).resolve_left (by omega)
        exact .torn colon name.1 inside
    | some start =>
        have whole : ¬ Inside 3 word := by
          intro inside
          rw [takeBytes_none_iff.mpr (.inr inside)] at taken
          cases taken
        dsimp only
        cases found : months.idxOf? (toAsciiLowercase start) with
        | none =>
            refine .number _ colon (.inr ⟨whole, fun names => ?_⟩) keeps.1 keeps.2
            obtain ⟨start', taken', listed⟩ := names.take
            rw [taken] at taken'
            cases taken'
            exact List.idxOf?_eq_none_iff.mp found listed
        | some i =>
            obtain ⟨rest, split, -⟩ := takeBytes_some taken
            obtain ⟨inside, here, -⟩ := List.idxOf?_eq_some_iff.mp found
            exact .month _ colon name.1 ⟨start, rest, split, here ▸ List.getElem_mem inside⟩
  · rw [if_neg name]
    refine .number _ colon ?_ keeps.1 keeps.2
    by_cases missing : fields.month = none
    · have short : ¬ 3 ≤ byteLen word := fun long => name ⟨missing, long⟩
      refine .inr ⟨fun inside => short (Nat.le_of_lt inside.lt), fun names => ?_⟩
      obtain ⟨start, taken, -⟩ := names.take
      obtain ⟨rest, rfl, length⟩ := takeBytes_some taken
      rw [byteLen_append] at short
      omega
    · exact .inl missing

/-! ## A whole date -/

/-- What the fields say about the words read so far. -/
structure Follows (seen : List Str) (fields : DateFields) : Prop where
  time : fields.time = none ↔ ∀ w ∈ seen, ':' ∉ w
  month : fields.month = none ↔ ¬ AtSome MonthWord seen
  going : ¬ AtSome LastWord seen

theorem follows_nil : Follows [] noFields where
  time := by simp [noFields]
  month := by simp [noFields, not_atSome_nil]
  going := not_atSome_nil

theorem Follows.clockWord {seen : List Str} {fields : DateFields} (follows : Follows seen fields)
    {word : Str} : (':' ∈ word ∧ fields.time = none) ↔ ClockWord seen word := by
  rw [follows.time]
  rfl

/-- One word more. -/
theorem Follows.concat {seen : List Str} {fields next : DateFields} (follows : Follows seen fields)
    {word : Str} (time : next.time = none ↔ ':' ∉ word ∧ fields.time = none)
    (month : next.month = none ↔ ¬ MonthWord seen word ∧ fields.month = none)
    (going : ¬ LastWord seen word) : Follows (seen ++ [word]) next where
  time := by
    rw [time, follows.time]
    constructor
    · rintro ⟨here, before⟩ w there
      rcases List.mem_append.mp there with early | last
      · exact before w early
      · rw [List.mem_singleton.mp last]
        exact here
    · intro none
      exact ⟨none word (by simp), fun w early => none w (by simp [early])⟩
  month := by
    rw [month, follows.month, atSome_concat, not_or, and_comm]
  going := by
    rw [atSome_concat, not_or]
    exact ⟨follows.going, going⟩

/-- What is still to come panics exactly at a word sliced apart. -/
theorem readTokens_returns_iff {seen words : List Str} {fields : DateFields}
    (follows : Follows seen fields) :
    Returns (fields.readTokens words) ↔ ¬ AtSome (fun early => Torn (seen ++ early)) words := by
  induction words generalizing seen fields with
  | nil => exact iff_of_true (returns_ok _) not_atSome_nil
  | cons word words ih =>
      have goesOn : ∀ {next : DateFields}, Follows (seen ++ [word]) next → ¬ Torn seen word →
          (Returns (next.readTokens words) ↔
            ¬ (Torn seen word ∨ AtSome (fun early => Torn (seen ++ word :: early)) words)) := by
        intro next followed whole
        rw [not_or, and_iff_right whole]
        simpa using ih followed
      rw [DateFields.readTokens, atSome_cons, List.append_nil]
      have step := reads fields word
      generalize fields.readToken word = read at step
      cases step with
      | clock time colon time' =>
          have clock := follows.clockWord.mp colon
          refine goesOn (follows.concat ?_ ?_ fun last => time' last.2) fun torn => torn.2.1 clock
          · simp [colon.1]
          · simp [MonthWord, clock]
      | givesUp colon noTime =>
          have clock := follows.clockWord.mp colon
          have last : ∀ early, AtSome LastWord (seen ++ word :: early) := fun early =>
            ⟨seen, word, early, rfl, clock, noTime⟩
          refine iff_of_true (returns_ok _) ?_
          rintro (here | ⟨early, w, late, -, later⟩)
          · exact here.2.1 clock
          · exact later.2.2.1 (last early)
      | month i other missing names =>
          have clock : ¬ ClockWord seen word := fun clock => other (follows.clockWord.mpr clock)
          refine goesOn (follows.concat ?_ ?_ fun last => clock last.1) fun torn => names.whole torn.1
          · exact ⟨fun none => ⟨fun colon => other ⟨colon, none⟩, none⟩, And.right⟩
          · simp [MonthWord, clock, names]
      | torn other missing inside =>
          have clock : ¬ ClockWord seen word := fun clock => other (follows.clockWord.mpr clock)
          refine iff_of_false (not_returns_error _) (not_not_intro (.inl ?_))
          exact ⟨inside, clock, follows.going, follows.month.mp missing⟩
      | number next other whole time month =>
          have clock : ¬ ClockWord seen word := fun clock => other (follows.clockWord.mpr clock)
          refine goesOn (follows.concat ?_ ?_ fun last => clock last.1) ?_
          · rw [time]
            exact ⟨fun none => ⟨fun colon => other ⟨colon, none⟩, none⟩, And.right⟩
          · rw [month]
            refine ⟨fun none => ⟨fun named => ?_, none⟩, And.right⟩
            exact (whole.resolve_left (not_not_intro none)).2 named.2
          · intro torn
            rcases whole with found | ⟨whole, -⟩
            · exact found (follows.month.mpr torn.2.2.2)
            · exact whole torn.1

theorem parseHttpDate_returns_iff (date : Str) : Returns (parseHttpDate date) ↔ SafeDate date := by
  have words : Returns (noFields.readTokens (dateWords date)) ↔ SafeDate date :=
    readTokens_returns_iff follows_nil
  rw [← words]
  unfold parseHttpDate
  cases read : noFields.readTokens (dateWords date) with
  | error panic =>
      unfold noFields dateWords at read
      simp only [read]
      exact iff_of_false (not_returns_error _) (not_returns_error _)
  | ok last =>
      unfold noFields dateWords at read
      simp only [read]
      cases last <;> exact iff_of_true (returns_ok _) (returns_ok _)

/-! ## A whole response -/

def SafeSetCookie (value : Str) : Prop :=
  Named value → ∀ date ∈ attributeValues "expires" (attributeParts value), SafeDate date

def SafeResponse (headers : List Line) (uri : Uri) : Prop :=
  uri.host ≠ none → ∀ line ∈ headers,
    eqIgnoreAsciiCase line.1 "set-cookie".toList = true → SafeSetCookie line.2

theorem read_returns_iff (attrs : Attributes) (part : Str) :
    Returns (attrs.read part) ↔
      (eqIgnoreAsciiCase (keyValue part).1 "expires".toList = true →
        SafeDate (keyValue part).2) := by
  rw [read_eq]
  generalize (keyValue part).1 = key
  generalize (keyValue part).2 = aval
  by_cases expires : eqIgnoreAsciiCase key "expires".toList = true
  · have domain := eqIgnoreAsciiCase_exclusive (b := "domain") expires (by decide)
    have path := eqIgnoreAsciiCase_exclusive (b := "path") expires (by decide)
    have secure := eqIgnoreAsciiCase_exclusive (b := "secure") expires (by decide)
    have age := eqIgnoreAsciiCase_exclusive (b := "max-age") expires (by decide)
    rw [domain, path, secure, age, expires, forall_prop_of_true rfl, ← parseHttpDate_returns_iff]
    exact returns_map
  · rw [if_neg expires]
    refine iff_of_true ?_ fun named => absurd named expires
    split
    · exact returns_ok _
    · split
      · exact returns_ok _
      · split
        · exact returns_ok _
        · split <;> exact returns_ok _

theorem readAll_returns_iff (attrs : Attributes) (parts : List Str) :
    Returns (attrs.readAll parts) ↔
      ∀ date ∈ attributeValues "expires" parts, SafeDate date := by
  induction parts generalizing attrs with
  | nil => exact iff_of_true (returns_ok _) (by simp [attributeValues])
  | cons part parts ih =>
      have here := read_returns_iff attrs part
      rw [Attributes.readAll, attributeValues_cons]
      cases read : attrs.read part with
      | error panic =>
          rw [read, iff_false_left (not_returns_error panic), Classical.not_imp] at here
          rw [if_pos here.1]
          exact iff_of_false (not_returns_error panic) fun all => here.2 (all _ List.mem_cons_self)
      | ok next =>
          rw [read, iff_true_left (returns_ok next)] at here
          show Returns (next.readAll parts) ↔ _
          rw [ih next]
          split
          · rename_i named
            rw [List.forall_mem_cons, and_iff_right (here named)]
          · rfl

theorem parseSetCookie_returns_iff (value host path : Str) (now : Int) :
    Returns (parseSetCookie psl value host path now) ↔ SafeSetCookie value := by
  unfold parseSetCookie SafeSetCookie
  rcases splitSetCookie_cases value with ⟨named, name, val, split⟩ | ⟨unnamed, split⟩
  · rw [split, forall_prop_of_true named,
      ← readAll_returns_iff ⟨none, none, false, none, none⟩ (attributeParts value)]
    dsimp only
    cases Attributes.readAll ⟨none, none, false, none, none⟩ (attributeParts value) with
    | error panic => exact iff_of_false (not_returns_error _) (not_returns_error _)
    | ok attrs =>
        refine iff_of_true ?_ (returns_ok _)
        dsimp only
        cases cookieScope psl host attrs.domain <;> exact returns_ok _
  · rw [split]
    exact iff_of_true (returns_ok _) fun named => absurd named unnamed

/-- Does the line panic. -/
theorem judge_returns_iff (chain : ChainCookies) (host path : Str) (now : Int) (line : Line) :
    Returns (chain.judge psl host path now line) ↔
      (eqIgnoreAsciiCase line.1 "set-cookie".toList = true → SafeSetCookie line.2) := by
  rw [← @parseSetCookie_returns_iff psl line.2 host path now]
  unfold ChainCookies.judge
  by_cases named : eqIgnoreAsciiCase line.1 "set-cookie".toList = true
  · rw [named, forall_prop_of_true rfl, Bool.not_true, if_neg Bool.false_ne_true]
    cases parseSetCookie psl line.2 host path now with
    | error panic => exact iff_of_false (not_returns_error _) (not_returns_error _)
    | ok parsed =>
        refine iff_of_true ?_ (returns_ok _)
        cases parsed with
        | none => exact returns_ok _
        | some found =>
            obtain ⟨cookie, expired⟩ := found
            dsimp only
            split
            · exact returns_ok _
            · split
              · exact returns_ok _
              · split
                · exact returns_ok _
                · split <;> exact returns_ok _
  · rw [if_pos (by simpa using named)]
    exact iff_of_true (returns_ok _) fun there => absurd there named

theorem storeLoop_returns_iff (host path : Str) (clock : Nat → Int) (n : Nat)
    (chain : ChainCookies) (rejected : Rejected) (lines : List Line) :
    Returns (ChainCookies.storeLoop psl host path clock n chain rejected lines) ↔
      ∀ line ∈ lines, eqIgnoreAsciiCase line.1 "set-cookie".toList = true →
        SafeSetCookie line.2 := by
  induction lines generalizing n chain rejected with
  | nil => exact iff_of_true (returns_ok _) (by simp)
  | cons line lines ih =>
      have here := @judge_returns_iff psl chain host path (clock n) line
      rw [ChainCookies.storeLoop, List.forall_mem_cons, ← here]
      cases chain.judge psl host path (clock n) line with
      | error panic =>
          exact iff_of_false (not_returns_error _) fun both => not_returns_error _ both.1
      | ok verdict =>
          rw [and_iff_right (returns_ok verdict)]
          exact ih (n + 1) (chain.keep verdict) (rejected.record verdict)

theorem store_returns_iff (chain : ChainCookies) (headers : List Line) (uri : Uri)
    (clock : Nat → Int) :
    Returns (chain.store psl headers uri clock) ↔ SafeResponse headers uri := by
  unfold ChainCookies.store SafeResponse
  cases uri.host with
  | none => exact iff_of_true (returns_ok _) (by simp)
  | some host =>
      rw [forall_prop_of_true (Option.some_ne_none host)]
      exact storeLoop_returns_iff (canonicalHost host) uri.path clock 0 chain _ headers

/-! ## Text that is never sliced apart -/

def Ascii (s : Str) : Prop := ∀ c ∈ s, c.toNat < 128

theorem Ascii.not_inside {s : Str} (ascii : Ascii s) (n : Nat) : ¬ Inside n s := by
  rintro ⟨front, c, back, rfl, low, high⟩
  have small := ascii c (by simp)
  have size : c.utf8Size = 1 := by
    rw [Char.utf8Size_eq_one_iff, UInt32.le_iff_toNat_le]
    exact Nat.le_of_lt_succ small
  rw [byteLen_append, byteLen, byteLen, size] at high
  omega

theorem Ascii.dateWords {date : Str} (ascii : Ascii date) : ∀ w ∈ dateWords date, Ascii w := by
  intro w there c inside
  obtain ⟨piece, -⟩ := List.mem_filter.mp there
  obtain ⟨d, from', rfl⟩ := List.mem_map.mp (mem_of_mem_splitOnP piece inside)
  split
  · decide
  · exact ascii d from'

theorem Ascii.safeDate {date : Str} (ascii : Ascii date) : SafeDate date := by
  rintro ⟨early, w, late, words, torn⟩
  exact (ascii.dateWords w (by rw [words]; simp)).not_inside 3 torn.1

theorem Ascii.keyValue {part : Str} (ascii : Ascii part) : Ascii (keyValue part).2 := by
  intro c there
  unfold Cookies.keyValue at there
  cases once : splitOnce '=' (trim part) with
  | none =>
      rw [once] at there
      cases there
  | some pair =>
      rw [once] at there
      obtain ⟨whole, -⟩ := splitOnce_spec once
      refine ascii c (mem_of_mem_trim ?_)
      rw [whole]
      exact List.mem_append_right _ (List.mem_cons_of_mem _ (mem_of_mem_trim there))

theorem Ascii.safeSetCookie {value : Str} (ascii : Ascii value) : SafeSetCookie value := by
  rintro - date there
  obtain ⟨part, from', rfl⟩ := List.mem_map.mp there
  have piece : part ∈ value.splitOn ';' := List.mem_of_mem_tail (List.mem_filter.mp from').1
  have plain : Ascii part := fun c inside => ascii c (mem_of_mem_splitOnP piece inside)
  exact plain.keyValue.safeDate

/-- Header lines in ASCII, the only ones the HTTP client hands on as they are, never make
`store` panic. -/
theorem store_returns_of_ascii (psl : Str → Option Str) (chain : ChainCookies)
    {headers : List Line} (uri : Uri) (clock : Nat → Int)
    (ascii : ∀ line ∈ headers, Ascii line.2) :
    Returns (Checked.store psl chain headers uri clock) := by
  rw [Checked.store_eq, returns_mapError, store_returns_iff]
  exact fun _ line there _ => (ascii line there).safeSetCookie

/-- **When cookie handling does not panic.** -/
theorem cookies_return_iff (psl : Str → Option Str) (chain : ChainCookies) (headers : List Line)
    (uri : Uri) (clock : Nat → Int) (value host path date : Str) (now : Int) :
    (Returns (Checked.store psl chain headers uri clock) ↔ SafeResponse headers uri) ∧
    (Returns (Checked.parseSetCookie psl value host path now) ↔ SafeSetCookie value) ∧
    (Returns (Checked.parseHttpDate date) ↔ SafeDate date) ∧
    Returns (Checked.headerFor chain uri) := by
  refine ⟨?_, ?_, ?_, ?_⟩
  · rw [Checked.store_eq, returns_mapError]
    exact store_returns_iff chain headers uri clock
  · rw [Checked.parseSetCookie_eq, returns_mapError]
    exact parseSetCookie_returns_iff value host path now
  · rw [Checked.parseHttpDate_eq, returns_mapError]
    exact parseHttpDate_returns_iff date
  · rw [Checked.headerFor_eq]
    exact returns_ok _

/-- Byte 3 of `12é` is inside the `é`. -/
def tornLine : Line := ("Set-Cookie".toList, "a=1; Expires=12é".toList)

/-- A new chain and one header line. -/
theorem store_panics :
    ¬ Returns (Checked.store exampleList (.withCallerCookies []) [tornLine]
      (exampleHost "example.com" "/") fun _ => 0) := by
  have panic : Checked.store exampleList (.withCallerCookies []) [tornLine]
      (exampleHost "example.com" "/") (fun _ => 0) = .error (.slice "12é".toList 3) := by
    decide +kernel
  rw [panic]
  exact not_returns_error _

end Blasthttp.Cookies
