/-
# Blasthttp.Cookies.Date -- `parse_http_date` and `days_from_civil` of `cookies.rs`

The date parser looks at one token at a time and fills in what is still missing.  It
has one way to panic, the slice `token[..3]`, and that one is part of the result:
whatever parses a `Set-Cookie` line may end there.
-/
import Blasthttp.Rust.Str

namespace Blasthttp.Cookies

open Blasthttp.Rust

set_option autoImplicit false

inductive Panic where
  /-- `s[..end]` where byte `end` is not a character boundary. -/
  | sliceNotOnBoundary (s : Str)
  deriving DecidableEq, Repr

/-- Howard Hinnant's `days_from_civil`, in the source's truncating arithmetic. -/
def daysFromCivil (y m d : Int) : Int :=
  let y := if m ≤ 2 then y - 1 else y
  let era := Int.tdiv (if 0 ≤ y then y else y - 399) 400
  let yoe := y - era * 400
  let mp := if 2 < m then m - 3 else m + 9
  let doy := Int.tdiv (153 * mp + 2) 5 + d - 1
  let doe := yoe * 365 + Int.tdiv yoe 4 - Int.tdiv yoe 100 + doy
  era * 146097 + doe - 719468

/-- `MONTHS`. -/
def months : List Str :=
  ["jan", "feb", "mar", "apr", "may", "jun", "jul", "aug", "sep", "oct", "nov",
    "dec"].map String.toList

/-- What the tokens seen so far have settled. -/
structure DateFields where
  day : Option Int
  month : Option Int
  year : Option Int
  time : Option (Int × Int × Int)

/-- A token with a colon in it; `none` gives the whole date up. -/
def DateFields.readTime (fields : DateFields) (token : Str) : Option DateFields :=
  match token.splitOn ':' with
  | h :: m :: rest => do
      let h ← parseI64 h
      let m ← parseI64 m
      let sec := (rest.head?.bind parseI64).getD 0
      some { fields with time := some (h, m, sec) }
  | _ => none

/-- A number: the day if it can still be one, otherwise the year. -/
def DateFields.readNumber (fields : DateFields) (token : Str) : DateFields :=
  match parseI64 token with
  | none => fields
  | some n =>
      if fields.day.isNone ∧ byteLen token ≤ 2 ∧ 1 ≤ n ∧ n ≤ 31 then
        { fields with day := some n }
      else if fields.year.isNone then
        let year := if byteLen token ≤ 2 then (if n < 70 then 2000 + n else 1900 + n) else n
        { fields with year := some year }
      else fields

/-- One token of `parse_http_date`. -/
def DateFields.readToken (fields : DateFields) (token : Str) :
    Except Panic (Option DateFields) :=
  if ':' ∈ token ∧ fields.time.isNone then .ok (fields.readTime token)
  else if fields.month.isNone ∧ 3 ≤ byteLen token then
    match takeBytes token 3 with
    | none => .error (.sliceNotOnBoundary token)
    | some start =>
        match months.idxOf? (toAsciiLowercase start) with
        | some i => .ok (some { fields with month := some ((i : Int) + 1) })
        | none => .ok (some (fields.readNumber token))
  else .ok (some (fields.readNumber token))

def DateFields.readTokens : DateFields → List Str → Except Panic (Option DateFields)
  | fields, [] => .ok (some fields)
  | fields, token :: rest =>
      match fields.readToken token with
      | .error panic => .error panic
      | .ok none => .ok none
      | .ok (some fields) => fields.readTokens rest

/-- The checks after the loop, and the seconds since the Unix epoch. -/
def DateFields.finish (fields : DateFields) : Option Int := do
  let day ← fields.day
  let month ← fields.month
  let year ← fields.year
  let (h, m, sec) := fields.time.getD (0, 0, 0)
  if ¬ (0 ≤ h ∧ h ≤ 23) ∨ ¬ (0 ≤ m ∧ m ≤ 59) ∨ ¬ (0 ≤ sec ∧ sec ≤ 60) then none
  else if year < 1601 then none
  else some (daysFromCivil (min year 9999) month day * 86400 + h * 3600 + m * 60 + sec)

def parseHttpDate (s : Str) : Except Panic (Option Int) :=
  let normalized := s.map fun c => if c = '-' ∨ c = ',' then ' ' else c
  match DateFields.readTokens ⟨none, none, none, none⟩ (splitWhitespace normalized) with
  | .error panic => .error panic
  | .ok none => .ok none
  | .ok (some fields) => .ok fields.finish

example : parseHttpDate "Sun, 06 Nov 1994 08:49:37 GMT".toList = .ok (some 784111777) := by
  decide +kernel

end Blasthttp.Cookies
