/-
# Blasthttp.Cookies.Expiry -- `Max-Age` and `Expires`

The attribute loop keeps what the last `Max-Age` and the last `Expires` parse to, and a
value that does not parse undoes the one before it (`readAll_expiry`).  RFC 6265 has
malformed attributes ignored (`standardExpired`); `parseSetCookie_expired_iff` says when
the verdict is the same.
-/
import Blasthttp.Cookies.Trace

namespace Blasthttp.Cookies

open Blasthttp.Rust

set_option autoImplicit false

variable {psl : Str → Option Str}

/-! ## What the standard says -/

/-- The attributes of a `Set-Cookie` value: what follows its first `;`. -/
def attributeParts (value : Str) : List Str := (value.splitOn ';').tail

/-- One attribute: its name and value. -/
def keyValue (part : Str) : Str × Str :=
  match splitOnce '=' (trim part) with
  | some (k, v) => (trim k, trim v)
  | none => (trim part, [])

/-- The values of the attributes of one name, in order. -/
def attributeValues (name : String) (parts : List Str) : List Str :=
  (parts.filter fun part => eqIgnoreAsciiCase (keyValue part).1 name.toList).map
    fun part => (keyValue part).2

/-- §5.2.2: an optional `-` and digits, of any size. -/
def wellFormedAge : Str → Option Int
  | '-' :: digits => (decimal digits).map fun n : Nat => -(n : Int)
  | digits => (decimal digits).map fun n : Nat => (n : Int)

/-- What `parse_http_date` makes of a value, with no panic. -/
def parsedDate (value : Str) : Option Int :=
  match parseHttpDate value with
  | .ok when' => when'
  | .error _ => none

/-- The last well-formed `Max-Age`. -/
def lastAge (ages : List Str) : Option Int := (ages.filterMap wellFormedAge).getLast?

/-- The last well-formed `Expires`. -/
def lastDate (dates : List Str) : Option Int := (dates.filterMap parsedDate).getLast?

/-- §5.3 step 3, malformed attributes ignored. -/
def standardExpired (ages dates : List Str) (now : Int) : Bool :=
  match lastAge ages with
  | some secs => secs ≤ 0
  | none =>
      match lastDate dates with
      | some when' => when' ≤ now
      | none => false

/-! ## What the loop reads -/

/-- `Attributes.read` by the name and value of the attribute. -/
theorem read_eq (attrs : Attributes) (part : Str) :
    attrs.read part =
      (if eqIgnoreAsciiCase (keyValue part).1 "domain".toList then
        .ok (if (canonicalHost ((keyValue part).2.dropWhile (· = '.'))).isEmpty then attrs
          else { attrs with domain := some (canonicalHost ((keyValue part).2.dropWhile (· = '.'))) })
      else if eqIgnoreAsciiCase (keyValue part).1 "path".toList then
        .ok (if (keyValue part).2.head? = some '/' then { attrs with path := some (keyValue part).2 }
          else attrs)
      else if eqIgnoreAsciiCase (keyValue part).1 "secure".toList then
        .ok { attrs with secure := true }
      else if eqIgnoreAsciiCase (keyValue part).1 "max-age".toList then
        .ok { attrs with maxAge := parseI64 (keyValue part).2 }
      else if eqIgnoreAsciiCase (keyValue part).1 "expires".toList then
        (parseHttpDate (keyValue part).2).map fun when' => { attrs with expires := when' }
      else .ok attrs) := by
  unfold Attributes.read keyValue
  dsimp only
  cases splitOnce '=' (trim part) with
  | none =>
      dsimp only
      generalize parseHttpDate [] = date
      cases date <;> rfl
  | some kv =>
      obtain ⟨k, v⟩ := kv
      dsimp only
      generalize parseHttpDate (trim v) = date
      cases date <;> rfl

/-- No name is two names. -/
theorem eqIgnoreAsciiCase_exclusive {key : Str} {a b : String}
    (here : eqIgnoreAsciiCase key a.toList = true)
    (apart : eqIgnoreAsciiCase b.toList a.toList = false) :
    eqIgnoreAsciiCase key b.toList = false := by
  unfold eqIgnoreAsciiCase at here apart ⊢
  rw [decide_eq_true_eq] at here
  rw [decide_eq_false_iff_not] at apart ⊢
  rw [here]
  exact fun same => apart same.symm

/-- One attribute touches at most one of the two, and leaves there what it parses to. -/
theorem read_expiry {attrs after : Attributes} {part : Str} (done : attrs.read part = .ok after) :
    after.maxAge = (if eqIgnoreAsciiCase (keyValue part).1 "max-age".toList then
        parseI64 (keyValue part).2 else attrs.maxAge) ∧
      after.expires = (if eqIgnoreAsciiCase (keyValue part).1 "expires".toList then
        parsedDate (keyValue part).2 else attrs.expires) := by
  rw [read_eq] at done
  generalize (keyValue part).1 = key at *
  generalize (keyValue part).2 = aval at *
  by_cases domain : eqIgnoreAsciiCase key "domain".toList = true
  · rw [if_pos domain] at done
    cases done
    rw [eqIgnoreAsciiCase_exclusive (b := "max-age") domain (by decide),
      eqIgnoreAsciiCase_exclusive (b := "expires") domain (by decide)]
    split <;> exact ⟨rfl, rfl⟩
  rw [if_neg domain] at done
  by_cases path : eqIgnoreAsciiCase key "path".toList = true
  · rw [if_pos path] at done
    cases done
    rw [eqIgnoreAsciiCase_exclusive (b := "max-age") path (by decide),
      eqIgnoreAsciiCase_exclusive (b := "expires") path (by decide)]
    split <;> exact ⟨rfl, rfl⟩
  rw [if_neg path] at done
  by_cases secure : eqIgnoreAsciiCase key "secure".toList = true
  · rw [if_pos secure] at done
    cases done
    rw [eqIgnoreAsciiCase_exclusive (b := "max-age") secure (by decide),
      eqIgnoreAsciiCase_exclusive (b := "expires") secure (by decide)]
    exact ⟨rfl, rfl⟩
  rw [if_neg secure] at done
  by_cases age : eqIgnoreAsciiCase key "max-age".toList = true
  · rw [if_pos age] at done
    cases done
    rw [age, eqIgnoreAsciiCase_exclusive (b := "expires") age (by decide)]
    exact ⟨rfl, rfl⟩
  rw [if_neg age] at done ⊢
  by_cases expires : eqIgnoreAsciiCase key "expires".toList = true
  · rw [if_pos expires] at done ⊢
    unfold parsedDate
    cases parsed : parseHttpDate aval with
    | error panic => rw [parsed] at done; cases done
    | ok when' =>
        rw [parsed] at done
        cases done
        exact ⟨rfl, rfl⟩
  · rw [if_neg expires] at done ⊢
    cases done
    exact ⟨rfl, rfl⟩

theorem attributeValues_cons (name : String) (part : Str) (parts : List Str) :
    attributeValues name (part :: parts) =
      if eqIgnoreAsciiCase (keyValue part).1 name.toList then
        (keyValue part).2 :: attributeValues name parts
      else attributeValues name parts := by
  unfold attributeValues
  rw [List.filter_cons]
  split <;> rfl

/-- A loop that overwrites is left with the last value. -/
theorem getLast?_elim_cons {α β : Type} (first : α) (rest : List α) (before : β) (f : α → β) :
    (first :: rest).getLast?.elim before f = rest.getLast?.elim (f first) f := by
  rw [List.getLast?_cons]
  cases rest.getLast? <;> rfl

/-- **The last of each counts**, whatever it parses to. -/
theorem readAll_expiry {parts : List Str} {attrs after : Attributes}
    (done : attrs.readAll parts = .ok after) :
    after.maxAge = (attributeValues "max-age" parts).getLast?.elim attrs.maxAge parseI64 ∧
      after.expires = (attributeValues "expires" parts).getLast?.elim attrs.expires parsedDate := by
  induction parts generalizing attrs with
  | nil =>
      cases done
      exact ⟨rfl, rfl⟩
  | cons part parts ih =>
      unfold Attributes.readAll at done
      cases here : attrs.read part with
      | error panic => simp only [here] at done; cases done
      | ok next =>
          simp only [here] at done
          obtain ⟨age, date⟩ := ih done
          obtain ⟨ageHere, dateHere⟩ := read_expiry here
          rw [age, date, ageHere, dateHere, attributeValues_cons, attributeValues_cons]
          constructor
          · split
            · rw [getLast?_elim_cons]
            · rfl
          · split
            · rw [getLast?_elim_cons]
            · rfl

/-! ## The verdict -/

/-- The first `;`-part is a pair with a name. -/
def Named (value : Str) : Prop :=
  ∃ name val, splitOnce '=' (trim ((value.splitOn ';').headD [])) = some (name, val) ∧
    trim name ≠ []

theorem splitSetCookie_cases (value : Str) :
    (Named value ∧ ∃ name val, splitSetCookie value = some (name, val, attributeParts value)) ∨
    (¬ Named value ∧ splitSetCookie value = none) := by
  unfold Named splitSetCookie attributeParts
  cases value.splitOn ';' with
  | nil =>
      refine .inr ⟨?_, rfl⟩
      rintro ⟨name, val, once, -⟩
      cases once
  | cons first rest =>
      dsimp only [List.headD_cons, List.tail_cons]
      cases splitOnce '=' (trim first) with
      | none =>
          refine .inr ⟨?_, rfl⟩
          rintro ⟨name, val, once, -⟩
          cases once
      | some pair =>
          obtain ⟨name, val⟩ := pair
          dsimp only
          by_cases named : trim name = []
          · refine .inr ⟨?_, by rw [named]; rfl⟩
            rintro ⟨name', val', once, other⟩
            cases once
            exact other named
          · refine .inl ⟨⟨name, val, rfl, named⟩, trim name, trim val, ?_⟩
            rw [if_neg (by simpa using named)]

theorem parseSetCookie_expired {value host path : Str} {now : Int} {cookie : Cookie} {expired : Bool}
    (parsed : parseSetCookie psl value host path now = .ok (some (cookie, expired))) :
    ∃ attrs, Attributes.readAll ⟨none, none, false, none, none⟩ (attributeParts value) = .ok attrs ∧
      expired = attrs.expired now := by
  unfold parseSetCookie at parsed
  rcases splitSetCookie_cases value with ⟨-, name, val, split⟩ | ⟨-, split⟩
  · simp only [split] at parsed
    cases read : Attributes.readAll ⟨none, none, false, none, none⟩ (attributeParts value) with
    | error panic => simp only [read] at parsed; cases parsed
    | ok attrs =>
        simp only [read] at parsed
        cases scope : cookieScope psl host attrs.domain with
        | none => simp only [scope] at parsed; cases parsed
        | some found =>
            simp only [scope] at parsed
            cases parsed
            exact ⟨attrs, rfl, rfl⟩
  · simp only [split] at parsed
    cases parsed

/-- The last `Expires` is a date, and past. -/
def LastDatePast (dates : List Str) (now : Int) : Prop :=
  ∃ when', dates.getLast?.bind parsedDate = some when' ∧ when' ≤ now

/-- The last `Expires` that is a date is past. -/
def DatePast (dates : List Str) (now : Int) : Prop :=
  ∃ when', lastDate dates = some when' ∧ when' ≤ now

/-- The last `Expires` is a date, or no date before it is past and the last one. -/
def DateSettled (dates : List Str) (now : Int) : Prop :=
  (dates.getLast?.bind parsedDate).isSome = true ∨ ¬ DatePast dates now

/-- What the last `Max-Age` has to be, and what else when it is no number in range. -/
def ExpirySettled (ages dates : List Str) (now : Int) : Prop :=
  match ages.getLast? with
  | none => DateSettled dates now
  | some age =>
      match wellFormedAge age, parseI64 age, lastAge ages with
      | some _, some _, _ => True
      -- past the range of an `i64`, the code goes by the date
      | some secs, none, _ => secs ≤ 0 ↔ LastDatePast dates now
      -- behind a `+`, it takes the number
      | none, some secs, some older => secs ≤ 0 ↔ older ≤ 0
      | none, some secs, none => secs ≤ 0 ↔ DatePast dates now
      -- malformed, it goes by the date
      | none, none, some older => LastDatePast dates now ↔ older ≤ 0
      | none, none, none => DateSettled dates now

theorem expired_iff {attrs : Attributes} {now : Int} :
    attrs.expired now = true ↔ (∃ secs, attrs.maxAge = some secs ∧ secs ≤ 0) ∨
      (attrs.maxAge = none ∧ ∃ when', attrs.expires = some when' ∧ when' ≤ now) := by
  unfold Attributes.expired
  cases attrs.maxAge with
  | some secs => simp
  | none => cases attrs.expires <;> simp

theorem standardExpired_iff {ages dates : List Str} {now : Int} :
    standardExpired ages dates now = true ↔ (∃ secs, lastAge ages = some secs ∧ secs ≤ 0) ∨
      (lastAge ages = none ∧ DatePast dates now) := by
  unfold standardExpired DatePast
  cases lastAge ages with
  | some secs => simp
  | none => cases lastDate dates <;> simp

theorem getLast?_filterMap_of_last {α β : Type} {f : α → Option β} {xs : List α} {x : α} {y : β}
    (last : xs.getLast? = some x) (good : f x = some y) : (xs.filterMap f).getLast? = some y := by
  obtain ⟨front, rfl⟩ := List.getLast?_eq_some_iff.mp last
  simp [good]

/-- The date alone decides rightly. -/
theorem dateSettled_iff {dates : List Str} {now : Int} :
    (LastDatePast dates now ↔ DatePast dates now) ↔ DateSettled dates now := by
  unfold DateSettled
  cases read : dates.getLast?.bind parsedDate with
  | none =>
      have past : ¬ LastDatePast dates now := by
        rintro ⟨when', found, -⟩
        rw [read] at found
        cases found
      simp [past]
  | some when' =>
      obtain ⟨value, last, parsed⟩ := Option.bind_eq_some_iff.mp read
      have same : lastDate dates = some when' := getLast?_filterMap_of_last last parsed
      simp [LastDatePast, DatePast, read, same]

theorem decimal_plus (digits : Str) : decimal ('+' :: digits) = none := by
  have plus : toDigit 10 '+' = none := by decide
  simp [decimal, List.foldlM_cons, plus]

/-- A number in range is read as it is. -/
theorem parseI64_wellFormed {age : Str} {secs taken : Int} (well : wellFormedAge age = some secs)
    (read : parseI64 age = some taken) : taken = secs := by
  unfold parseI64 at read
  split at read
  · rename_i digits
    cases number : decimal digits with
    | none => simp only [number] at read; cases read
    | some n =>
        simp only [wellFormedAge, number, Option.map_some, Option.some.injEq] at well
        simp only [number] at read
        split at read
        · cases read
          exact well
        · cases read
  · rename_i digits
    rw [wellFormedAge, decimal_plus] at well
    · cases well
    · simp
  · rename_i unsigned _
    rw [wellFormedAge] at well
    · cases number : decimal age with
      | none => simp only [number] at read; cases read
      | some n =>
          simp only [number, Option.map_some, Option.some.injEq] at well
          simp only [number] at read
          split at read
          · cases read
            exact well
          · cases read
    · exact unsigned

/-- **When the expiry attributes are judged as the standard has it.** -/
theorem parseSetCookie_expired_iff {value host path : Str} {now : Int} {cookie : Cookie}
    {expired : Bool}
    (parsed : parseSetCookie psl value host path now = .ok (some (cookie, expired))) :
    expired = standardExpired (attributeValues "max-age" (attributeParts value))
        (attributeValues "expires" (attributeParts value)) now ↔
      ExpirySettled (attributeValues "max-age" (attributeParts value))
        (attributeValues "expires" (attributeParts value)) now := by
  obtain ⟨attrs, read, rfl⟩ := parseSetCookie_expired parsed
  obtain ⟨age, date⟩ := readAll_expiry read
  generalize attributeValues "max-age" (attributeParts value) = ages at *
  generalize attributeValues "expires" (attributeParts value) = dates at *
  rw [Bool.eq_iff_iff, expired_iff, standardExpired_iff, age, date]
  have byDate : (∃ when', dates.getLast?.elim none parsedDate = some when' ∧ when' ≤ now) ↔
      LastDatePast dates now := by
    unfold LastDatePast
    cases dates.getLast? <;> rfl
  rw [byDate]
  unfold ExpirySettled
  cases last : ages.getLast? with
  | none =>
      rw [List.getLast?_eq_none_iff] at last
      subst last
      simpa [lastAge] using dateSettled_iff
  | some value =>
      simp only [Option.elim_some]
      cases well : wellFormedAge value with
      | some secs =>
          have standard : lastAge ages = some secs := getLast?_filterMap_of_last last well
          cases taken : parseI64 value with
          | some n =>
              obtain rfl := parseI64_wellFormed well taken
              simp [standard]
          | none => simp [standard, iff_comm]
      | none =>
          cases taken : parseI64 value with
          | some n => cases lastAge ages <;> simp
          | none =>
              cases lastAge ages with
              | some older => simp
              | none => simpa using dateSettled_iff

/-! Attributes that clear a cookie, and one behind them that is no number. -/

def bareCookie : Cookie where
  name := "a".toList
  value := "1".toList
  domain := "example.com".toList
  hostOnly := true
  path := "/".toList
  secure := false

theorem parseSetCookie_expired_iff_cleared :
    true = standardExpired
        (attributeValues "max-age" (attributeParts "a=1; Max-Age=-1; max-age=0".toList))
        (attributeValues "expires" (attributeParts "a=1; Max-Age=-1; max-age=0".toList)) 0 ↔
      ExpirySettled
        (attributeValues "max-age" (attributeParts "a=1; Max-Age=-1; max-age=0".toList))
        (attributeValues "expires" (attributeParts "a=1; Max-Age=-1; max-age=0".toList)) 0 :=
  @parseSetCookie_expired_iff (fun _ => none) "a=1; Max-Age=-1; max-age=0".toList
    "example.com".toList "/".toList 0 bareCookie true (by decide +kernel)

/-- The malformed `Max-Age` undoes the one before it. -/
theorem malformed_age_undoes :
    parseSetCookie (fun _ => none) "a=1; Max-Age=0; Max-Age=x".toList "example.com".toList
        "/".toList 0 = .ok (some (bareCookie, false)) ∧
    standardExpired
        (attributeValues "max-age" (attributeParts "a=1; Max-Age=0; Max-Age=x".toList))
        (attributeValues "expires" (attributeParts "a=1; Max-Age=0; Max-Age=x".toList)) 0 =
      true := by
  exact ⟨by decide +kernel, by decide +kernel⟩

end Blasthttp.Cookies
