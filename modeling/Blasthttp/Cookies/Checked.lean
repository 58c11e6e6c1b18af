/-
# Blasthttp.Cookies.Checked -- `cookies.rs` with its panics

The same functions again, with every slice, index, `usize` subtraction and `i64`
operation of the source where it stands.  Each of them comes out as its unchecked
namesake (`Checked.store_eq`, `Checked.headerFor_eq`): the checks succeed on whatever
they are handed, but for the slice `token[..3]` of the date parser.
-/
import Blasthttp.Cookies.Budget
import Blasthttp.Cookies.Expiry
import Blasthttp.Rust.Crash

namespace Blasthttp.Cookies

open Blasthttp.Rust Blasthttp.Http

set_option autoImplicit false

/-- The one panic of the unchecked functions. -/
def Panic.crash : Panic → Crash
  | .sliceNotOnBoundary s => .slice s 3

namespace Checked

/-! ## Hosts and paths -/

def domainMatches (host domain : Str) : Except Crash Bool :=
  if host = domain then .ok true
  else if (IpAddr.parse host).isSome then .ok false
  else if byteLen domain < byteLen host && domain.isSuffixOf host then do
    let i ← subUsize (byteLen host) (byteLen domain)
    let i ← subUsize i 1
    let b ← asBytesAt host i
    pure (b = UInt8.ofNat '.'.toNat)
  else .ok false

def pathMatches (requestPath cookiePath : Str) : Except Crash Bool :=
  if requestPath = cookiePath then .ok true
  else if !cookiePath.isPrefixOf requestPath then .ok false
  else if cookiePath.getLast? = some '/' then .ok true
  else do
    let b ← asBytesAt requestPath (byteLen cookiePath)
    pure (b = UInt8.ofNat '/'.toNat)

def defaultPath (requestPath : Str) : Except Crash Str :=
  match requestPath with
  | '/' :: _ =>
      match rfind '/' requestPath with
      | some 0 | none => .ok ['/']
      | some i => sliceTo requestPath i
  | _ => .ok ['/']

theorem domainMatches_eq (host domain : Str) :
    domainMatches host domain = .ok (Cookies.domainMatches host domain) := by
  unfold domainMatches Cookies.domainMatches
  by_cases same : host = domain
  · rw [if_pos same, if_pos same]
  rw [if_neg same, if_neg same]
  by_cases address : (IpAddr.parse host).isSome = true
  · rw [if_pos address, if_pos address]
  rw [if_neg address, if_neg address]
  by_cases ends : domain <:+ host
  · obtain ⟨front, rfl⟩ := ends
    rcases List.eq_nil_or_concat front with rfl | ⟨start, c, rfl⟩
    · exact absurd rfl same
    · have whole : start.concat c ++ domain = start ++ c :: domain := by simp
      obtain ⟨b, place, dot⟩ := asBytesAt_last (a := '.') (by decide) start c domain
      have some_byte := c.utf8Size_pos
      have longer : byteLen domain < byteLen (start ++ c :: domain) := by
        rw [byteLen_append, byteLen]
        omega
      have rest : byteLen (start ++ c :: domain) - byteLen domain = byteLen (start ++ [c]) := by
        rw [byteLen_append, byteLen_append, byteLen, byteLen, byteLen]
        omega
      have ends : domain.isSuffixOf (start ++ c :: domain) = true :=
        List.isSuffixOf_iff_suffix.mpr ((List.suffix_cons _ _).trans (List.suffix_append _ _))
      have front : (start ++ c :: domain).take ((start ++ c :: domain).length - domain.length) =
          start ++ [c] := by
        rw [List.append_cons, List.length_append, Nat.add_sub_cancel, List.take_left]
      have shorter : domain.length < (start ++ c :: domain).length := by
        rw [List.length_append, List.length_cons]
        omega
      rw [whole, if_pos (by simp [longer, ends]), subUsize_of_le (Nat.le_of_lt longer), ok_bind, rest,
        subUsize_of_le (by rw [byteLen_append, byteLen]; omega), ok_bind, place, ok_bind, pure_eq_ok,
        front, List.getLast?_concat]
      simp only [dot, ends, shorter, decide_true, Bool.true_and, Option.some.injEq]
  · have apart : domain.isSuffixOf host = false := by
      rw [Bool.eq_false_iff]
      exact fun there => ends (List.isSuffixOf_iff_suffix.mp there)
    simp [apart]

theorem pathMatches_eq (requestPath cookiePath : Str) :
    pathMatches requestPath cookiePath = .ok (Cookies.pathMatches requestPath cookiePath) := by
  unfold pathMatches Cookies.pathMatches
  by_cases same : requestPath = cookiePath
  · rw [if_pos same, if_pos same]
  rw [if_neg same, if_neg same]
  by_cases starts : cookiePath <+: requestPath
  · obtain ⟨rest, rfl⟩ := starts
    have begins : ¬ (!cookiePath.isPrefixOf (cookiePath ++ rest)) = true := by simp
    rw [if_neg begins, if_neg begins]
    by_cases slash : cookiePath.getLast? = some '/'
    · rw [if_pos slash]
      simp [slash]
    · cases rest with
      | nil => exact absurd (List.append_nil _) same
      | cons c rest =>
          obtain ⟨b, place, here⟩ := asBytesAt_first (a := '/') (by decide) cookiePath c rest
          rw [if_neg slash, place, ok_bind, pure_eq_ok, List.drop_left]
          simp only [here, slash, decide_false, Bool.false_or, List.head?_cons, Option.some.injEq]
  · have apart : (!cookiePath.isPrefixOf requestPath) = true := by
      rw [Bool.not_eq_true', Bool.eq_false_iff]
      exact fun there => starts (List.isPrefixOf_iff_prefix.mp there)
    rw [if_pos apart, if_pos apart]

/-- What `rfind` cuts off is what no separator comes behind. -/
theorem rdropWhile_ne {c : Char} {after : Str} (absent : c ∉ after) (before : Str) :
    (before ++ c :: after).rdropWhile (· ≠ c) = before ++ [c] := by
  induction after using List.reverseRecOn with
  | nil => rw [List.rdropWhile_concat_neg _ _ _ (by simp)]
  | append_singleton after d ih =>
      have other : d ≠ c := by
        rintro rfl
        exact absent (by simp)
      rw [← List.cons_append, ← List.append_assoc, List.rdropWhile_concat_pos _ _ _ (by simpa using other)]
      exact ih fun there => absent (by simp [there])

/-- A path that begins with no slash. -/
theorem defaultPath_relative {requestPath : Str} (relative : ∀ rest, requestPath ≠ '/' :: rest) :
    defaultPath requestPath = .ok ['/'] ∧ Cookies.defaultPath requestPath = ['/'] := by
  refine ⟨?_, ?_⟩
  · unfold defaultPath
    split
    · exact absurd rfl (relative _)
    · rfl
  · unfold Cookies.defaultPath
    split
    · exact absurd rfl (relative _)
    · rfl

theorem defaultPath_eq (requestPath : Str) :
    defaultPath requestPath = .ok (Cookies.defaultPath requestPath) := by
  by_cases absolute : ∃ rest, requestPath = '/' :: rest
  · obtain ⟨rest, rfl⟩ := absolute
    obtain ⟨before, after, whole, absent⟩ :=
      exists_last (List.mem_cons_self : '/' ∈ '/' :: rest)
    have found : rfind '/' ('/' :: rest) = some (byteLen before) := by
      rw [rfind, whole, rsplitOnce_append absent]
      rfl
    have directory : (('/' :: rest).rdropWhile (· ≠ '/')).dropLast = before := by
      rw [whole, rdropWhile_ne absent, List.dropLast_concat]
    unfold defaultPath Cookies.defaultPath
    dsimp only
    rw [found, directory]
    cases before with
    | nil => rfl
    | cons c before =>
        obtain ⟨size, positive⟩ : ∃ size, byteLen (c :: before) = size + 1 :=
          ⟨byteLen (c :: before) - 1, by
            have some_byte := c.utf8Size_pos
            rw [byteLen]
            omega⟩
        have cut := sliceTo_append (c :: before) ('/' :: after)
        rw [← whole, positive] at cut
        rw [positive]
        exact cut
  · obtain ⟨checked, plain⟩ := defaultPath_relative fun rest same => absolute ⟨rest, same⟩
    rw [checked, plain]

/-! ## Dates -/

def daysFromCivil (y m d : Int) : Except Crash Int := do
  let y ← (if m ≤ 2 then i64 (y - 1) else .ok y)
  let shifted ← (if 0 ≤ y then .ok y else i64 (y - 399))
  let era := Int.tdiv shifted 400
  let eraYears ← i64 (era * 400)
  let yoe ← i64 (y - eraYears)
  let mp ← (if 2 < m then i64 (m - 3) else i64 (m + 9))
  let months ← i64 (153 * mp)
  let months ← i64 (months + 2)
  let days ← i64 (Int.tdiv months 5 + d)
  let doy ← i64 (days - 1)
  let years ← i64 (yoe * 365)
  let years ← i64 (years + Int.tdiv yoe 4)
  let years ← i64 (years - Int.tdiv yoe 100)
  let doe ← i64 (years + doy)
  let eras ← i64 (era * 146097)
  let total ← i64 (eras + doe)
  i64 (total - 719468)

def readNumber (fields : DateFields) (token : Str) : Except Crash DateFields :=
  match parseI64 token with
  | none => .ok fields
  | some n =>
      if fields.day.isNone ∧ byteLen token ≤ 2 ∧ 1 ≤ n ∧ n ≤ 31 then
        .ok { fields with day := some n }
      else if fields.year.isNone then do
        let year ←
          (if byteLen token ≤ 2 then (if n < 70 then i64 (2000 + n) else i64 (1900 + n)) else .ok n)
        pure { fields with year := some year }
      else .ok fields

def readToken (fields : DateFields) (token : Str) : Except Crash (Option DateFields) :=
  if ':' ∈ token ∧ fields.time.isNone then .ok (fields.readTime token)
  else if fields.month.isNone ∧ 3 ≤ byteLen token then do
    let start ← sliceTo token 3
    match months.idxOf? (toAsciiLowercase start) with
    | some i => do
        let month ← i64 ((i : Int) + 1)
        pure (some { fields with month := some month })
    | none => do
        let fields ← readNumber fields token
        pure (some fields)
  else do
    let fields ← readNumber fields token
    pure (some fields)

def readTokens : DateFields → List Str → Except Crash (Option DateFields)
  | fields, [] => .ok (some fields)
  | fields, token :: rest => do
      match ← readToken fields token with
      | none => pure none
      | some fields => readTokens fields rest

def seconds (year month day h m sec : Int) : Except Crash Int := do
  let days ← daysFromCivil year month day
  let days ← i64 (days * 86400)
  let hours ← i64 (h * 3600)
  let total ← i64 (days + hours)
  let minutes ← i64 (m * 60)
  let total ← i64 (total + minutes)
  i64 (total + sec)

def finish (fields : DateFields) : Except Crash (Option Int) :=
  match fields.day, fields.month, fields.year with
  | some day, some month, some year =>
      let (h, m, sec) := fields.time.getD (0, 0, 0)
      if ¬ (0 ≤ h ∧ h ≤ 23) ∨ ¬ (0 ≤ m ∧ m ≤ 59) ∨ ¬ (0 ≤ sec ∧ sec ≤ 60) then .ok none
      else if year < 1601 then .ok none
      else (seconds (min year 9999) month day h m sec).map some
  | _, _, _ => .ok none

def parseHttpDate (s : Str) : Except Crash (Option Int) := do
  let normalized := s.map fun c => if c = '-' ∨ c = ',' then ' ' else c
  match ← readTokens ⟨none, none, none, none⟩ (splitWhitespace normalized) with
  | none => pure none
  | some fields => finish fields

theorem daysFromCivil_eq {y m d : Int} (year : 1601 ≤ y ∧ y ≤ 9999) (month : 1 ≤ m ∧ m ≤ 12)
    (day : 1 ≤ d ∧ d ≤ 31) :
    daysFromCivil y m d = .ok (Cookies.daysFromCivil y m d) ∧
      -(10 ^ 7) < Cookies.daysFromCivil y m d ∧ Cookies.daysFromCivil y m d < 10 ^ 7 := by
  have start : (if m ≤ 2 then i64 (y - 1) else .ok y) = .ok (if m ≤ 2 then y - 1 else y) := by
    split
    · exact i64_of_range (by omega) (by omega)
    · rfl
  have years : 1600 ≤ (if m ≤ 2 then y - 1 else y) ∧ (if m ≤ 2 then y - 1 else y) ≤ 9999 := by
    split <;> omega
  have shift : (if 2 < m then i64 (m - 3) else i64 (m + 9)) =
      .ok (if 2 < m then m - 3 else m + 9) := by
    split <;> exact i64_of_range (by omega) (by omega)
  have months : 0 ≤ (if 2 < m then m - 3 else m + 9) ∧ (if 2 < m then m - 3 else m + 9) ≤ 11 := by
    split <;> omega
  unfold daysFromCivil Cookies.daysFromCivil
  rw [start, shift]
  generalize (if m ≤ 2 then y - 1 else y) = year at *
  generalize (if 2 < m then m - 3 else m + 9) = mp at *
  have nonneg : 0 ≤ year := by omega
  simp (disch := omega) only [i64_of_range, ok_bind, if_pos nonneg, Int.tdiv_eq_ediv_of_nonneg]
  exact ⟨trivial, by omega, by omega⟩

theorem seconds_eq {year month day h m sec : Int} (yearOk : 1601 ≤ year ∧ year ≤ 9999)
    (monthOk : 1 ≤ month ∧ month ≤ 12) (dayOk : 1 ≤ day ∧ day ≤ 31) (hour : 0 ≤ h ∧ h ≤ 23)
    (minute : 0 ≤ m ∧ m ≤ 59) (second : 0 ≤ sec ∧ sec ≤ 60) :
    seconds year month day h m sec =
      .ok (Cookies.daysFromCivil year month day * 86400 + h * 3600 + m * 60 + sec) := by
  obtain ⟨days, low, high⟩ := daysFromCivil_eq yearOk monthOk dayOk
  unfold seconds
  rw [days]
  simp (disch := omega) only [i64_of_range, ok_bind]

/-- What a date has read so far: a month of the year, a day of one. -/
structure OnCalendar (fields : DateFields) : Prop where
  month : ∀ month, fields.month = some month → 1 ≤ month ∧ month ≤ 12
  day : ∀ day, fields.day = some day → 1 ≤ day ∧ day ≤ 31

theorem readNumber_eq (fields : DateFields) (token : Str) :
    readNumber fields token = .ok (fields.readNumber token) := by
  unfold readNumber DateFields.readNumber
  cases number : parseI64 token with
  | none => rfl
  | some n =>
      dsimp only
      by_cases day : fields.day.isNone ∧ byteLen token ≤ 2 ∧ 1 ≤ n ∧ n ≤ 31
      · rw [if_pos day, if_pos day]
      rw [if_neg day, if_neg day]
      by_cases year : fields.year.isNone = true
      · rw [if_pos year, if_pos year]
        by_cases short : byteLen token ≤ 2
        · obtain ⟨low, high⟩ := parseI64_lt number short
          rw [if_pos short, if_pos short]
          by_cases late : n < 70
          · rw [if_pos late, if_pos late, i64_of_range (by omega) (by omega)]
            rfl
          · rw [if_neg late, if_neg late, i64_of_range (by omega) (by omega)]
            rfl
        · rw [if_neg short, if_neg short]
          rfl
      · rw [if_neg year, if_neg year]

theorem readToken_eq (fields : DateFields) (token : Str) :
    readToken fields token = (fields.readToken token).mapError Panic.crash := by
  unfold readToken DateFields.readToken
  by_cases colon : ':' ∈ token ∧ fields.time.isNone
  · rw [if_pos colon, if_pos colon]
    rfl
  rw [if_neg colon, if_neg colon]
  by_cases name : fields.month.isNone ∧ 3 ≤ byteLen token
  · rw [if_pos name, if_pos name, sliceTo]
    cases takeBytes token 3 with
    | none => rfl
    | some start =>
        dsimp only
        rw [ok_bind]
        cases found : months.idxOf? (toAsciiLowercase start) with
        | none =>
            dsimp only
            rw [readNumber_eq]
            rfl
        | some i =>
            have inside : i < 12 := (List.idxOf?_eq_some_iff.mp found).1
            dsimp only
            rw [i64_of_range (by omega) (by omega)]
            rfl
  · rw [if_neg name, if_neg name, readNumber_eq]
    rfl

theorem readTokens_eq (fields : DateFields) (tokens : List Str) :
    readTokens fields tokens = (fields.readTokens tokens).mapError Panic.crash := by
  induction tokens generalizing fields with
  | nil => rfl
  | cons token tokens ih =>
      rw [readTokens, DateFields.readTokens, readToken_eq]
      cases fields.readToken token with
      | error panic => rfl
      | ok read =>
          cases read with
          | none => rfl
          | some next => exact ih next

theorem OnCalendar.readNumber {fields : DateFields} (dated : OnCalendar fields) (token : Str) :
    OnCalendar (fields.readNumber token) := by
  unfold DateFields.readNumber
  cases parseI64 token with
  | none => exact dated
  | some n =>
      dsimp only
      split
      · rename_i day
        refine ⟨dated.month, fun d same => ?_⟩
        cases same
        exact day.2.2
      · split
        · exact ⟨dated.month, dated.day⟩
        · exact dated

theorem OnCalendar.readTime {fields next : DateFields} (dated : OnCalendar fields) {token : Str}
    (read : fields.readTime token = some next) : OnCalendar next := by
  unfold DateFields.readTime at read
  split at read
  · simp only [Option.bind_eq_bind, Option.bind_eq_some_iff, Option.some.injEq] at read
    obtain ⟨h, -, m, -, rfl⟩ := read
    exact ⟨dated.month, dated.day⟩
  · cases read

theorem OnCalendar.readToken {fields next : DateFields} (dated : OnCalendar fields) {token : Str}
    (read : fields.readToken token = .ok (some next)) : OnCalendar next := by
  unfold DateFields.readToken at read
  split at read
  · exact dated.readTime (Except.ok.inj read)
  · split at read
    · split at read
      · cases read
      · split at read
        · rename_i i found
          cases read
          have inside : i < 12 := (List.idxOf?_eq_some_iff.mp found).1
          refine ⟨fun month same => ?_, dated.day⟩
          cases same
          omega
        · cases read
          exact dated.readNumber token
    · cases read
      exact dated.readNumber token

theorem OnCalendar.readTokens {fields last : DateFields} {tokens : List Str}
    (dated : OnCalendar fields) (read : fields.readTokens tokens = .ok (some last)) :
    OnCalendar last := by
  induction tokens generalizing fields with
  | nil =>
      cases read
      exact dated
  | cons token tokens ih =>
      rw [DateFields.readTokens] at read
      cases here : fields.readToken token with
      | error panic => rw [here] at read; cases read
      | ok step =>
          rw [here] at read
          cases step with
          | none => cases read
          | some next => exact ih (dated.readToken here) read

theorem finish_eq {fields : DateFields} (dated : OnCalendar fields) :
    finish fields = .ok fields.finish := by
  unfold finish DateFields.finish
  cases day : fields.day with
  | none => rfl
  | some d =>
      cases month : fields.month with
      | none => rfl
      | some mon =>
          cases fields.year with
          | none => rfl
          | some year =>
              obtain ⟨h, m, sec⟩ := fields.time.getD (0, 0, 0)
              simp only [Option.bind_eq_bind, Option.bind_some]
              split
              · rfl
              · split
                · rfl
                · rw [seconds_eq (by omega) (dated.month mon month) (dated.day d day)
                    (by omega) (by omega) (by omega)]
                  rfl

theorem parseHttpDate_eq (s : Str) :
    parseHttpDate s = (Cookies.parseHttpDate s).mapError Panic.crash := by
  have start : OnCalendar ⟨none, none, none, none⟩ := ⟨nofun, nofun⟩
  unfold parseHttpDate Cookies.parseHttpDate
  dsimp only
  rw [readTokens_eq]
  cases read : DateFields.readTokens ⟨none, none, none, none⟩
      (splitWhitespace (s.map fun c => if c = '-' ∨ c = ',' then ' ' else c)) with
  | error panic => rfl
  | ok last =>
      cases last with
      | none => rfl
      | some fields => exact finish_eq (start.readTokens read)

/-! ## Parsing a `Set-Cookie` value -/

def read (attrs : Attributes) (part : Str) : Except Crash Attributes :=
  let (key, aval) := keyValue part
  if eqIgnoreAsciiCase key "domain".toList then
    let d := canonicalHost (aval.dropWhile (· = '.'))
    .ok (if d.isEmpty then attrs else { attrs with domain := some d })
  else if eqIgnoreAsciiCase key "path".toList then
    .ok (if aval.head? = some '/' then { attrs with path := some aval } else attrs)
  else if eqIgnoreAsciiCase key "secure".toList then .ok { attrs with secure := true }
  else if eqIgnoreAsciiCase key "max-age".toList then
    .ok { attrs with maxAge := parseI64 aval }
  else if eqIgnoreAsciiCase key "expires".toList then
    (parseHttpDate aval).map fun when' => { attrs with expires := when' }
  else .ok attrs

def readAll (attrs : Attributes) : List Str → Except Crash Attributes
  | [] => .ok attrs
  | part :: rest => do
      let attrs ← read attrs part
      readAll attrs rest

def cookieScope (psl : Str → Option Str) (requestHost : Str) :
    Option Str → Except Crash (Option (Str × Bool))
  | none => .ok (some (requestHost, true))
  | some d => do
      let covers ← domainMatches requestHost d
      pure
        (if !covers then none
        else if (IpAddr.parse requestHost).isSome then some (requestHost, true)
        else if isPublicSuffix psl d then
          if d = requestHost then some (requestHost, true) else none
        else if registrable psl requestHost ≠ registrable psl d then none
        else some (d, false))

def parseSetCookie (psl : Str → Option Str) (value requestHost requestPath : Str) (now : Int) :
    Except Crash (Option (Cookie × Bool)) :=
  match splitSetCookie value with
  | none => .ok none
  | some (name, val, parts) => do
      let attrs ← readAll ⟨none, none, false, none, none⟩ parts
      match ← cookieScope psl requestHost attrs.domain with
      | none => pure none
      | some (domain, hostOnly) => do
          let path ←
            match attrs.path with
            | some path => .ok path
            | none => defaultPath requestPath
          let cookie : Cookie :=
            { name := name
              value := val
              domain := domain
              hostOnly := hostOnly
              path := path
              secure := attrs.secure }
          pure (some (cookie, attrs.expired now))

theorem read_eq (attrs : Attributes) (part : Str) :
    read attrs part = (attrs.read part).mapError Panic.crash := by
  rw [Cookies.read_eq]
  unfold read
  dsimp only
  simp only [parseHttpDate_eq]
  split
  · rfl
  · split
    · rfl
    · split
      · rfl
      · split
        · rfl
        · split
          · cases Cookies.parseHttpDate (keyValue part).2 <;> rfl
          · rfl

theorem readAll_eq (attrs : Attributes) (parts : List Str) :
    readAll attrs parts = (attrs.readAll parts).mapError Panic.crash := by
  induction parts generalizing attrs with
  | nil => rfl
  | cons part parts ih =>
      rw [readAll, Attributes.readAll, read_eq]
      cases attrs.read part with
      | error panic => rfl
      | ok next => exact ih next

theorem cookieScope_eq (psl : Str → Option Str) (host : Str) (asked : Option Str) :
    cookieScope psl host asked = .ok (Cookies.cookieScope psl host asked) := by
  cases asked with
  | none => rfl
  | some d =>
      unfold cookieScope Cookies.cookieScope
      dsimp only
      rw [domainMatches_eq, ok_bind]
      rfl

theorem parseSetCookie_eq (psl : Str → Option Str) (value host path : Str) (now : Int) :
    parseSetCookie psl value host path now =
      (Cookies.parseSetCookie psl value host path now).mapError Panic.crash := by
  unfold parseSetCookie Cookies.parseSetCookie
  cases splitSetCookie value with
  | none => rfl
  | some pieces =>
      obtain ⟨name, val, parts⟩ := pieces
      dsimp only
      rw [readAll_eq]
      cases Attributes.readAll ⟨none, none, false, none, none⟩ parts with
      | error panic => rfl
      | ok attrs =>
          show (cookieScope psl host attrs.domain >>= _) = _
          rw [cookieScope_eq, ok_bind]
          dsimp only
          cases Cookies.cookieScope psl host attrs.domain with
          | none => rfl
          | some scope =>
              cases attrs.path with
              | some path => rfl
              | none =>
                  dsimp only
                  rw [defaultPath_eq]
                  rfl

/-! ## Storing and sending -/

def freed (chain : ChainCookies) (cookie : Cookie) : Except Crash Nat :=
  match chain.replacing cookie with
  | none => .ok 0
  | some i => do
      let c ← entryAt chain.cookies i
      pure (entrySize c.name c.value)

def full (chain : ChainCookies) (cookie : Cookie) : Except Crash Bool := do
  let freed ← freed chain cookie
  let held ← subUsize chain.cookies.length (if (chain.replacing cookie).isSome then 1 else 0)
  if maxCookies ≤ held then pure true
  else do
    let left ← subUsize chain.bytes freed
    pure (maxChainBytes < left + entrySize cookie.name cookie.value)

def judge (psl : Str → Option Str) (chain : ChainCookies) (host path : Str) (now : Int)
    (line : Line) : Except Crash Verdict :=
  if !eqIgnoreAsciiCase line.1 "set-cookie".toList then .ok .ignored
  else do
    match ← parseSetCookie psl line.2 host path now with
    | none => pure .ignored
    | some (cookie, expired) =>
        if chain.callerNames.contains cookie.name then pure (.callerOwned cookie)
        else if maxCookieBytes < entrySize cookie.name cookie.value then pure (.overLimit cookie)
        else if expired then pure (.expired cookie)
        else do
          let full ← full chain cookie
          pure (if full then .overLimit cookie else .stored cookie)

def remove (chain : ChainCookies) (cookie : Cookie) : Except Crash (List Cookie) :=
  match chain.replacing cookie with
  | none => .ok chain.cookies
  | some i => removeAt chain.cookies i

def keep (chain : ChainCookies) : Verdict → Except Crash ChainCookies
  | .expired cookie => do
      let cookies ← remove chain cookie
      pure { chain with cookies := cookies }
  | .stored cookie => do
      let cookies ← remove chain cookie
      pure { chain with cookies := cookies ++ [cookie] }
  | _ => .ok chain

def storeLoop (psl : Str → Option Str) (host path : Str) (clock : Nat → Int) :
    Nat → ChainCookies → Rejected → List Line → Except Crash (ChainCookies × Rejected)
  | _, chain, rejected, [] => .ok (chain, rejected)
  | n, chain, rejected, line :: rest => do
      let verdict ← judge psl chain host path (clock n) line
      let chain ← keep chain verdict
      storeLoop psl host path clock (n + 1) chain (rejected.record verdict) rest

def store (psl : Str → Option Str) (chain : ChainCookies) (headers : List Line) (uri : Uri)
    (clock : Nat → Int) : Except Crash (ChainCookies × Rejected) :=
  match uri.host with
  | none => .ok (chain, ⟨[], []⟩)
  | some host =>
      storeLoop psl (canonicalHost host) uri.path clock 0 chain ⟨[], []⟩ headers

def applies (cookie : Cookie) (host path : Str) (secureTransport : Bool) : Except Crash Bool :=
  if cookie.secure && !secureTransport then .ok false
  else if cookie.hostOnly then
    if host ≠ cookie.domain then .ok false else pathMatches path cookie.path
  else do
    let covers ← domainMatches host cookie.domain
    if !covers then pure false else pathMatches path cookie.path

/-- The filter of `header_for`. -/
def filtered (goes : Cookie → Except Crash Bool) : List Cookie → Except Crash (List Cookie)
  | [] => .ok []
  | cookie :: rest => do
      let here ← goes cookie
      let rest ← filtered goes rest
      pure (if here then cookie :: rest else rest)

def headerFor (chain : ChainCookies) (uri : Uri) : Except Crash (Option Str) :=
  match uri.host with
  | none => .ok none
  | some host => do
      let found ← filtered (fun c => applies c (canonicalHost host) uri.path uri.isHttps) chain.cookies
      let matched := found.insertionSort fun a b => byteLen b.path ≤ byteLen a.path
      pure
        (if matched.isEmpty then none
        else some ("; ".toList.intercalate (matched.map Cookie.text)))

theorem freed_eq (chain : ChainCookies) (cookie : Cookie) :
    freed chain cookie = .ok (chain.freed cookie) := by
  unfold freed ChainCookies.freed
  cases found : chain.replacing cookie with
  | none => rfl
  | some i =>
      have inside := replacing_lt found
      dsimp only
      rw [entryAt_of_lt inside, List.getElem?_eq_getElem inside]
      rfl

theorem full_eq (chain : ChainCookies) (cookie : Cookie) :
    full chain cookie = .ok (chain.full cookie) := by
  obtain ⟨length, bytes, -⟩ := remove_exact chain cookie
  unfold full ChainCookies.full
  rw [freed_eq, ok_bind, subUsize_of_le (by omega), ok_bind]
  dsimp only
  by_cases many : maxCookies ≤
      chain.cookies.length - if (chain.replacing cookie).isSome then 1 else 0
  · rw [if_pos many]
    simp [many]
  · rw [if_neg many, subUsize_of_le (by omega), ok_bind]
    simp [many]

theorem judge_eq (psl : Str → Option Str) (chain : ChainCookies) (host path : Str) (now : Int)
    (line : Line) :
    judge psl chain host path now line =
      (chain.judge psl host path now line).mapError Panic.crash := by
  unfold judge ChainCookies.judge
  split
  · rfl
  · rw [parseSetCookie_eq]
    cases Cookies.parseSetCookie psl line.2 host path now with
    | error panic => rfl
    | ok parsed =>
        cases parsed with
        | none => rfl
        | some found =>
            obtain ⟨cookie, expired⟩ := found
            show ite _ _ _ = Except.mapError Panic.crash (ite _ _ _)
            by_cases owned : cookie.name ∈ chain.callerNames
            · rw [if_pos (List.contains_iff_mem.mpr owned), if_pos owned]
              rfl
            · rw [if_neg (mt List.contains_iff_mem.mp owned), if_neg owned]
              split
              · rfl
              · split
                · rfl
                · rw [full_eq, ok_bind]
                  split <;> rfl

theorem remove_eq (chain : ChainCookies) (cookie : Cookie) :
    remove chain cookie = .ok (chain.remove cookie) := by
  unfold remove ChainCookies.remove
  cases found : chain.replacing cookie with
  | none => rfl
  | some i => exact removeAt_of_lt (replacing_lt found)

theorem keep_eq (chain : ChainCookies) (verdict : Verdict) :
    keep chain verdict = .ok (chain.keep verdict) := by
  cases verdict with
  | expired cookie =>
      rw [keep, remove_eq]
      rfl
  | stored cookie =>
      rw [keep, remove_eq]
      rfl
  | ignored => rfl
  | callerOwned cookie => rfl
  | overLimit cookie => rfl

theorem storeLoop_eq (psl : Str → Option Str) (host path : Str) (clock : Nat → Int) (n : Nat)
    (chain : ChainCookies) (rejected : Rejected) (lines : List Line) :
    storeLoop psl host path clock n chain rejected lines =
      (ChainCookies.storeLoop psl host path clock n chain rejected lines).mapError
        Panic.crash := by
  induction lines generalizing n chain rejected with
  | nil => rfl
  | cons line lines ih =>
      rw [storeLoop, ChainCookies.storeLoop, judge_eq]
      cases chain.judge psl host path (clock n) line with
      | error panic => rfl
      | ok verdict =>
          show (keep chain verdict >>= _) = _
          rw [keep_eq, ok_bind]
          exact ih (n + 1) (chain.keep verdict) (rejected.record verdict)

/-- **`store` panics where the slice of the date parser does, and nowhere else.** -/
theorem store_eq (psl : Str → Option Str) (chain : ChainCookies) (headers : List Line) (uri : Uri)
    (clock : Nat → Int) :
    store psl chain headers uri clock =
      (chain.store psl headers uri clock).mapError Panic.crash := by
  unfold store ChainCookies.store
  cases uri.host with
  | none => rfl
  | some host => exact storeLoop_eq psl (canonicalHost host) uri.path clock 0 chain _ headers

theorem applies_eq (cookie : Cookie) (host path : Str) (secureTransport : Bool) :
    applies cookie host path secureTransport = .ok (cookie.applies host path secureTransport) := by
  unfold applies Cookie.applies
  rw [domainMatches_eq, pathMatches_eq, ok_bind]
  split
  · rfl
  · split
    · split <;> rfl
    · split <;> rfl

theorem filtered_eq {goes : Cookie → Except Crash Bool} {p : Cookie → Bool}
    (total : ∀ cookie, goes cookie = .ok (p cookie)) (cookies : List Cookie) :
    filtered goes cookies = .ok (cookies.filter p) := by
  induction cookies with
  | nil => rfl
  | cons cookie cookies ih =>
      rw [filtered, total, ok_bind, ih, ok_bind, List.filter_cons]
      rfl

/-- **`header_for` never panics.** -/
theorem headerFor_eq (chain : ChainCookies) (uri : Uri) :
    headerFor chain uri = .ok (chain.headerFor uri) := by
  unfold headerFor ChainCookies.headerFor
  cases uri.host with
  | none => rfl
  | some host =>
      dsimp only
      rw [filtered_eq fun c => applies_eq c (canonicalHost host) uri.path uri.isHttps]
      rfl

end Checked

end Blasthttp.Cookies
