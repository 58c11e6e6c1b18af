/-
# Blasthttp.Cookies.HttpDate -- dates that are read exactly

The three layouts of an HTTP date, written out from a calendar date and a time of day.
The tokenizer sees the same six words in each of them, up to order; every word settles
one field (`readTokens_..`), and `days_from_civil` counts the days of the calendar
(`daysFromCivil_eq`).
-/
import Blasthttp.Cookies.Date
import Blasthttp.Lib.Gregorian

namespace Blasthttp.Cookies

open Blasthttp.Rust Blasthttp.Lib.Gregorian

set_option autoImplicit false

/-! ## The day count -/

/-- The era, the year of the era and their leap days make up the leap days of the year. -/
theorem era_days (y : Nat) :
    Int.tdiv (if 0 ≤ (y : Int) then (y : Int) else y - 399) 400 * 146097 +
        (((y : Int) - Int.tdiv (if 0 ≤ (y : Int) then (y : Int) else y - 399) 400 * 400) * 365 +
          Int.tdiv ((y : Int) - Int.tdiv (if 0 ≤ (y : Int) then (y : Int) else y - 399) 400 * 400) 4 -
          Int.tdiv ((y : Int) - Int.tdiv (if 0 ≤ (y : Int) then (y : Int) else y - 399) 400 * 400)
            100) =
      365 * y + y / 4 - y / 100 + y / 400 := by
  rw [if_pos (Int.natCast_nonneg y), Int.tdiv_eq_ediv_of_nonneg (Int.natCast_nonneg y),
    Int.tdiv_eq_ediv_of_nonneg (by omega), Int.tdiv_eq_ediv_of_nonneg (by omega)]
  omega

/-- `days_from_civil` from the year that began in March and the days of that year. -/
theorem daysFromCivil_closed {m d : Int} (y : Nat) :
    daysFromCivil (if m ≤ 2 then y + 1 else y) m d =
      365 * y + y / 4 - y / 100 + y / 400 +
        (Int.tdiv (153 * (if 2 < m then m - 3 else m + 9) + 2) 5 + d - 1) - 719468 := by
  have year : (if m ≤ 2 then (if m ≤ 2 then (y : Int) + 1 else y) - 1
      else if m ≤ 2 then (y : Int) + 1 else y) = y := by
    split <;> omega
  have era := era_days y
  unfold daysFromCivil
  simp only [year]
  omega

/-- `days_from_civil` counts the days of the calendar. -/
theorem daysFromCivil_eq (date : Date) (late : 1 ≤ date.year) :
    daysFromCivil date.year date.month date.day = (date.dayNumber : Int) - epoch.dayNumber := by
  have months := @daysBeforeMonth_closed date.year date.month date.monthOk
  have january := date.monthOk.1
  have first := date.dayOk.1
  rw [epoch_dayNumber, Date.dayNumber, months]
  by_cases march : 2 < date.month
  · have years := daysBeforeYear_succ date.year
    have whole : daysBeforeYear (date.year + 1) = daysBeforeYear date.year + yearLength date.year :=
      rfl
    have long : 365 ≤ yearLength date.year := by
      unfold yearLength
      split <;> omega
    have past : ¬ (date.month : Int) ≤ 2 := by omega
    have later : (2 : Int) < date.month := by omega
    have closed := @daysFromCivil_closed date.month date.day date.year
    rw [if_neg past, if_pos later, Int.tdiv_eq_ediv_of_nonneg (by omega)] at closed
    rw [closed, if_pos march]
    omega
  · obtain ⟨y, year⟩ : ∃ y, date.year = y + 1 := ⟨date.year - 1, by omega⟩
    have years := daysBeforeYear_succ y
    have early : (date.month : Int) ≤ 2 := by omega
    have before : ¬ (2 : Int) < date.month := by omega
    have closed := @daysFromCivil_closed date.month date.day y
    rw [if_pos early, if_neg before, Int.tdiv_eq_ediv_of_nonneg (by omega)] at closed
    have next : (date.year : Int) = y + 1 := by omega
    rw [next, closed, if_neg march, year]
    omega

/-! ## Digits -/

/-- A number in `width` decimal digits. -/
def padded : Nat → Nat → Str
  | 0, _ => []
  | width + 1, n => padded width (n / 10) ++ [Nat.digitChar (n % 10)]

theorem toDigit_digitChar {d : Nat} (small : d < 10) : toDigit 10 (Nat.digitChar d) = some d := by
  interval_cases d <;> rfl

/-- A digit is no white space, no separator and no sign, and one byte long. -/
theorem digitChar_plain {d : Nat} (small : d < 10) :
    isWhitespace (Nat.digitChar d) = false ∧ Nat.digitChar d ≠ ':' ∧ Nat.digitChar d ≠ '-' ∧
      Nat.digitChar d ≠ ',' ∧ Nat.digitChar d ≠ '+' ∧ (Nat.digitChar d).utf8Size = 1 := by
  interval_cases d <;> decide

theorem mem_padded {c : Char} {width n : Nat} (there : c ∈ padded width n) :
    ∃ d, d < 10 ∧ c = Nat.digitChar d := by
  induction width generalizing n with
  | zero => cases there
  | succ width ih =>
      rw [padded, List.mem_append, List.mem_singleton] at there
      rcases there with front | last
      · exact ih front
      · exact ⟨n % 10, Nat.mod_lt n (by decide), last⟩

theorem byteLen_padded (width n : Nat) : byteLen (padded width n) = width := by
  induction width generalizing n with
  | zero => rfl
  | succ width ih =>
      obtain ⟨-, -, -, -, -, size⟩ := digitChar_plain (Nat.mod_lt n (by decide : 0 < 10))
      rw [padded, byteLen_append, ih, byteLen, size]
      rfl

theorem foldlM_padded (width : Nat) :
    ∀ {n : Nat} (before : Nat), n < 10 ^ width →
      (padded width n).foldlM (fun n c => (toDigit 10 c).map fun v => 10 * n + v) before =
        some (before * 10 ^ width + n) := by
  induction width with
  | zero =>
      intro n before small
      have zero : n = 0 := by omega
      simp [padded, zero]
  | succ width ih =>
      intro n before small
      have front : n / 10 < 10 ^ width := by
        rw [Nat.pow_succ] at small
        omega
      have value : 10 * (before * 10 ^ width + n / 10) + n % 10 = before * 10 ^ (width + 1) + n := by
        rw [Nat.pow_succ, Nat.mul_add, ← Nat.mul_assoc before]
        omega
      rw [padded, List.foldlM_append, ih before front]
      simp [toDigit_digitChar (Nat.mod_lt n (by decide : 0 < 10)), value]

theorem padded_ne_nil (width n : Nat) : padded (width + 1) n ≠ [] := by
  rw [padded]
  simp

theorem decimal_padded {width n : Nat} (small : n < 10 ^ (width + 1)) :
    decimal (padded (width + 1) n) = some n := by
  rw [decimal, if_neg (by simpa using padded_ne_nil width n), foldlM_padded _ 0 small,
    Nat.zero_mul, Nat.zero_add]

theorem parseI64_padded {width n : Nat} (small : n < 10 ^ (width + 1)) (fits : n < 2 ^ 63) :
    parseI64 (padded (width + 1) n) = some (n : Int) := by
  obtain ⟨c, rest, digits⟩ := List.exists_cons_of_ne_nil (padded_ne_nil width n)
  have first : c ∈ padded (width + 1) n := by
    rw [digits]
    exact List.mem_cons_self
  obtain ⟨d, low, same⟩ := mem_padded first
  obtain ⟨-, -, minus, -, plus, -⟩ := digitChar_plain low
  have value := decimal_padded small
  rw [digits] at value ⊢
  unfold parseI64
  split
  · rename_i tail whole
    cases whole
    exact absurd same.symm minus
  · rename_i tail whole
    cases whole
    exact absurd same.symm plus
  · simp only [value, if_pos fits]

/-! ## Words -/

/-- The words the tokenizer sees. -/
def dateWords (s : Str) : List Str :=
  splitWhitespace (s.map fun c => if c = '-' ∨ c = ',' then ' ' else c)

/-- A token that stays as it is. -/
structure Word (token : Str) : Prop where
  some_char : token ≠ []
  solid : ∀ c ∈ token, isWhitespace c = false ∧ c ≠ '-' ∧ c ≠ ','

theorem map_word {token : Str} (word : Word token) :
    (token.map fun c => if c = '-' ∨ c = ',' then ' ' else c) = token := by
  conv_rhs => rw [← List.map_id token]
  refine List.map_congr_left fun c there => ?_
  obtain ⟨-, dash, comma⟩ := word.solid c there
  rw [if_neg (by simp [dash, comma])]
  rfl

theorem dateWords_word {token : Str} (word : Word token) : dateWords token = [token] := by
  unfold dateWords splitWhitespace
  rw [map_word word, List.splitOnP_eq_singleton fun c there => (word.solid c there).1,
    List.filter_cons_of_pos (by simpa using word.some_char), List.filter_nil]

theorem dateWords_separator {c : Char} (sep : c = ' ' ∨ c = '-' ∨ c = ',') (rest : Str) :
    dateWords (c :: rest) = dateWords rest := by
  have blank : isWhitespace (if c = '-' ∨ c = ',' then ' ' else c) = true := by
    rcases sep with rfl | rfl | rfl <;> decide
  unfold dateWords splitWhitespace
  rw [List.map_cons, List.splitOnP_cons_eq_if_modifyHead, if_pos blank,
    List.filter_cons_of_neg (by simp)]

theorem dateWords_append {token : Str} (word : Word token) {c : Char}
    (sep : c = ' ' ∨ c = '-' ∨ c = ',') (rest : Str) :
    dateWords (token ++ c :: rest) = token :: dateWords rest := by
  have blank : isWhitespace (if c = '-' ∨ c = ',' then ' ' else c) = true := by
    rcases sep with rfl | rfl | rfl <;> decide
  unfold dateWords splitWhitespace
  rw [List.map_append, List.map_cons, map_word word,
    List.splitOnP_append_cons_of_forall_mem (fun c there => (word.solid c there).1) _ blank,
    List.filter_cons_of_pos (by simpa using word.some_char)]

theorem word_padded (width n : Nat) : Word (padded (width + 1) n) where
  some_char := padded_ne_nil width n
  solid := by
    intro c there
    obtain ⟨d, small, rfl⟩ := mem_padded there
    obtain ⟨solid, -, dash, comma, -, -⟩ := digitChar_plain small
    exact ⟨solid, dash, comma⟩

/-! ## Names -/

inductive Weekday where
  | monday
  | tuesday
  | wednesday
  | thursday
  | friday
  | saturday
  | sunday

def Weekday.name : Weekday → Str
  | .monday => "Monday".toList
  | .tuesday => "Tuesday".toList
  | .wednesday => "Wednesday".toList
  | .thursday => "Thursday".toList
  | .friday => "Friday".toList
  | .saturday => "Saturday".toList
  | .sunday => "Sunday".toList

/-- `Mon`, `Tue` and so on. -/
def Weekday.short (weekday : Weekday) : Str := weekday.name.take 3

def monthName : Nat → Str
  | 1 => "Jan".toList
  | 2 => "Feb".toList
  | 3 => "Mar".toList
  | 4 => "Apr".toList
  | 5 => "May".toList
  | 6 => "Jun".toList
  | 7 => "Jul".toList
  | 8 => "Aug".toList
  | 9 => "Sep".toList
  | 10 => "Oct".toList
  | 11 => "Nov".toList
  | _ => "Dec".toList

def zone : Str := "GMT".toList

/-- `08:49:37`. -/
def clockText (time : TimeOfDay) : Str :=
  padded 2 time.hour ++ ':' :: (padded 2 time.minute ++ ':' :: padded 2 time.second)

theorem word_of_all {token : Str} (some_char : token ≠ [])
    (plain : (token.all fun c => !isWhitespace c && c ≠ '-' && c ≠ ',') = true) : Word token where
  some_char := some_char
  solid := by
    intro c there
    simpa [and_assoc] using List.all_eq_true.mp plain c there

theorem word_name (weekday : Weekday) : Word weekday.name ∧ Word weekday.short := by
  cases weekday <;>
    exact ⟨word_of_all (by decide) (by decide), word_of_all (by decide) (by decide)⟩

theorem word_monthName {month : Nat} (monthOk : 1 ≤ month ∧ month ≤ 12) :
    Word (monthName month) := by
  obtain ⟨low, high⟩ := monthOk
  interval_cases month <;> exact word_of_all (by decide) (by decide)

theorem word_zone : Word zone := word_of_all (by decide) (by decide)

theorem word_clockText (time : TimeOfDay) : Word (clockText time) where
  some_char := by
    unfold clockText
    simp
  solid := by
    intro c there
    have colon : isWhitespace ':' = false ∧ ':' ≠ '-' ∧ ':' ≠ ',' := by decide
    rcases List.mem_append.mp there with hour | rest
    · exact (word_padded 1 time.hour).solid c hour
    · rcases List.mem_cons.mp rest with rfl | rest
      · exact colon
      · rcases List.mem_append.mp rest with minute | rest
        · exact (word_padded 1 time.minute).solid c minute
        · rcases List.mem_cons.mp rest with rfl | second
          · exact colon
          · exact (word_padded 1 time.second).solid c second

/-! ## What a word settles -/

theorem readTokens_cons {fields next : DateFields} {token : Str}
    (read : fields.readToken token = .ok (some next)) (rest : List Str) :
    fields.readTokens (token :: rest) = next.readTokens rest := by
  rw [DateFields.readTokens, read]

def noFields : DateFields := ⟨none, none, none, none⟩

/-- No weekday begins like a month. -/
theorem readToken_weekday (weekday : Weekday) :
    noFields.readToken weekday.name = .ok (some noFields) ∧
      noFields.readToken weekday.short = .ok (some noFields) := by
  cases weekday <;> exact ⟨rfl, rfl⟩

theorem readToken_month {fields : DateFields} (missing : fields.month = none) {month : Nat}
    (monthOk : 1 ≤ month ∧ month ≤ 12) :
    fields.readToken (monthName month) = .ok (some { fields with month := some (month : Int) }) := by
  obtain ⟨day, _, year, time⟩ := fields
  cases missing
  obtain ⟨low, high⟩ := monthOk
  interval_cases month <;> rfl

/-- The zone comes behind the month and is no number. -/
theorem readToken_zone {fields : DateFields} {month : Int} (found : fields.month = some month) :
    fields.readToken zone = .ok (some fields) := by
  obtain ⟨day, _, year, time⟩ := fields
  cases found
  rfl

theorem colon_not_mem_padded (width n : Nat) : ':' ∉ padded width n := by
  intro there
  obtain ⟨d, small, same⟩ := mem_padded there
  exact (digitChar_plain small).2.1 same.symm

/-- A number of one or two digits, or behind the month, is read as one. -/
theorem readToken_padded {fields : DateFields} {width n : Nat}
    (number : width + 1 < 3 ∨ fields.month.isSome = true) :
    fields.readToken (padded (width + 1) n) =
      .ok (some (fields.readNumber (padded (width + 1) n))) := by
  have noName : ¬ (fields.month.isNone = true ∧ 3 ≤ byteLen (padded (width + 1) n)) := by
    rw [byteLen_padded]
    rintro ⟨missing, long⟩
    rcases number with short | found
    · omega
    · cases here : fields.month <;> simp [here] at missing found
  rw [DateFields.readToken, if_neg fun both => colon_not_mem_padded _ _ both.1, if_neg noName]

theorem readToken_day {fields : DateFields} (missing : fields.day = none) {width day : Nat}
    (short : width + 1 < 3) (small : day < 10 ^ (width + 1)) (low : 1 ≤ day) (high : day ≤ 31) :
    fields.readToken (padded (width + 1) day) = .ok (some { fields with day := some (day : Int) }) := by
  rw [readToken_padded (.inl short), DateFields.readNumber,
    parseI64_padded small (by omega), byteLen_padded]
  simp only
  rw [if_pos ⟨by rw [missing]; rfl, by omega, by omega, by omega⟩]

/-- Behind the day and the month, a number is the year; one of two digits is in the
century that begins in 1970. -/
theorem readToken_year {fields : DateFields} {day month : Int} (dayFound : fields.day = some day)
    (monthFound : fields.month = some month) (missing : fields.year = none) {width year : Nat}
    (small : year < 10 ^ (width + 1)) (fits : year < 2 ^ 63) :
    fields.readToken (padded (width + 1) year) =
      .ok (some { fields with
        year := some (if width + 1 ≤ 2 then (if (year : Int) < 70 then 2000 + (year : Int)
          else 1900 + year) else year) }) := by
  rw [readToken_padded (.inr (by rw [monthFound]; rfl)), DateFields.readNumber,
    parseI64_padded small fits, byteLen_padded]
  simp only
  rw [if_neg (by simp [dayFound]), if_pos (by rw [missing]; rfl)]

theorem readToken_clockText {fields : DateFields} (missing : fields.time = none) (time : TimeOfDay) :
    fields.readToken (clockText time) =
      .ok (some { fields with
        time := some ((time.hour : Int), (time.minute : Int), (time.second : Int)) }) := by
  have hour := time.hourOk
  have minute := time.minuteOk
  have second := time.secondOk
  have parts : (clockText time).splitOn ':' =
      [padded 2 time.hour, padded 2 time.minute, padded 2 time.second] := by
    rw [clockText, List.splitOn_append_cons_self, List.splitOn_append_cons_self,
      List.splitOn_eq_singleton (colon_not_mem_padded _ _),
      List.splitOn_eq_singleton (colon_not_mem_padded _ _),
      List.splitOn_eq_singleton (colon_not_mem_padded _ _)]
    rfl
  have colon : ':' ∈ clockText time := by
    unfold clockText
    simp
  have number : ∀ n, n < 100 → parseI64 (padded 2 n) = some (n : Int) := by
    intro n small
    exact parseI64_padded small (by omega)
  rw [DateFields.readToken, if_pos ⟨colon, by rw [missing]; rfl⟩, DateFields.readTime, parts]
  simp [number time.hour (by omega), number time.minute (by omega), number time.second (by omega)]

/-! ## The three layouts -/

/-- `Sun, 06 Nov 1994 08:49:37 GMT`. -/
def imfFixdate (weekday : Weekday) (date : Date) (time : TimeOfDay) : Str :=
  weekday.short ++ ',' :: (' ' :: (padded 2 date.day ++ ' ' :: (monthName date.month ++
    ' ' :: (padded 4 date.year ++ ' ' :: (clockText time ++ ' ' :: zone)))))

/-- `Sun Nov  6 08:49:37 1994`, the day in two columns. -/
def asctime (weekday : Weekday) (date : Date) (time : TimeOfDay) : Str :=
  weekday.short ++ ' ' :: (monthName date.month ++
    ' ' :: ((if date.day < 10 then ' ' :: padded 1 date.day else padded 2 date.day) ++
      ' ' :: (clockText time ++ ' ' :: padded 4 date.year)))

/-- `Sunday, 06-Nov-94 08:49:37 GMT`. -/
def rfc850 (weekday : Weekday) (date : Date) (time : TimeOfDay) : Str :=
  weekday.name ++ ',' :: (' ' :: (padded 2 date.day ++ '-' :: (monthName date.month ++
    '-' :: (padded 2 (date.year % 100) ++ ' ' :: (clockText time ++ ' ' :: zone)))))

theorem dateWords_imfFixdate (weekday : Weekday) (date : Date) (time : TimeOfDay) :
    dateWords (imfFixdate weekday date time) =
      [weekday.short, padded 2 date.day, monthName date.month, padded 4 date.year, clockText time,
        zone] := by
  rw [imfFixdate, dateWords_append (word_name weekday).2 (by simp), dateWords_separator (by simp),
    dateWords_append (word_padded 1 _) (by simp),
    dateWords_append (word_monthName date.monthOk) (by simp),
    dateWords_append (word_padded 3 _) (by simp), dateWords_append (word_clockText time) (by simp),
    dateWords_word word_zone]

theorem dateWords_asctime (weekday : Weekday) (date : Date) (time : TimeOfDay) :
    dateWords (asctime weekday date time) =
      [weekday.short, monthName date.month,
        padded (if date.day < 10 then 1 else 2) date.day, clockText time, padded 4 date.year] := by
  rw [asctime, dateWords_append (word_name weekday).2 (by simp),
    dateWords_append (word_monthName date.monthOk) (by simp)]
  split
  · rw [List.cons_append, dateWords_separator (by simp), dateWords_append (word_padded 0 _) (by simp),
      dateWords_append (word_clockText time) (by simp), dateWords_word (word_padded 3 _)]
  · rw [dateWords_append (word_padded 1 _) (by simp), dateWords_append (word_clockText time) (by simp),
      dateWords_word (word_padded 3 _)]

theorem dateWords_rfc850 (weekday : Weekday) (date : Date) (time : TimeOfDay) :
    dateWords (rfc850 weekday date time) =
      [weekday.name, padded 2 date.day, monthName date.month, padded 2 (date.year % 100),
        clockText time, zone] := by
  rw [rfc850, dateWords_append (word_name weekday).1 (by simp), dateWords_separator (by simp),
    dateWords_append (word_padded 1 _) (by simp),
    dateWords_append (word_monthName date.monthOk) (by simp),
    dateWords_append (word_padded 1 _) (by simp), dateWords_append (word_clockText time) (by simp),
    dateWords_word word_zone]

/-- What the fields of a date are once every word is read. -/
def dateFields (date : Date) (time : TimeOfDay) : DateFields :=
  ⟨some date.day, some date.month, some date.year,
    some ((time.hour : Int), (time.minute : Int), (time.second : Int))⟩

theorem finish_dateFields {date : Date} (time : TimeOfDay) (low : 1601 ≤ date.year)
    (high : date.year ≤ 9999) : (dateFields date time).finish = some (unixSeconds date time) := by
  have hour := time.hourOk
  have minute := time.minuteOk
  have second := time.secondOk
  have year : min (date.year : Int) 9999 = date.year := by omega
  have days := daysFromCivil_eq date (by omega)
  unfold dateFields DateFields.finish
  simp only [Option.bind_eq_bind, Option.bind_some, Option.getD_some]
  split
  · omega
  · split
    · omega
    · rw [year, days]
      rfl

theorem parseHttpDate_of_words {s : Str} {words : List Str} {fields : DateFields}
    (tokens : dateWords s = words) (read : noFields.readTokens words = .ok (some fields)) :
    parseHttpDate s = .ok fields.finish := by
  unfold dateWords at tokens
  unfold noFields at read
  unfold parseHttpDate
  simp only [tokens, read]

theorem parseHttpDate_imfFixdate (weekday : Weekday) {date : Date} (time : TimeOfDay)
    (low : 1601 ≤ date.year) (high : date.year ≤ 9999) :
    parseHttpDate (imfFixdate weekday date time) = .ok (some (unixSeconds date time)) := by
  have dayHigh := date.day_le
  have read : noFields.readTokens [weekday.short, padded 2 date.day, monthName date.month,
      padded 4 date.year, clockText time, zone] = .ok (some (dateFields date time)) := by
    rw [readTokens_cons (readToken_weekday weekday).2,
      readTokens_cons (readToken_day rfl (by decide) (by omega) date.dayOk.1 dayHigh),
      readTokens_cons (readToken_month rfl date.monthOk),
      readTokens_cons (readToken_year rfl rfl rfl (by omega) (by omega)),
      readTokens_cons (readToken_clockText rfl time), readTokens_cons (readToken_zone rfl)]
    rfl
  rw [parseHttpDate_of_words (dateWords_imfFixdate weekday date time) read,
    finish_dateFields time low high]

theorem parseHttpDate_asctime (weekday : Weekday) {date : Date} (time : TimeOfDay)
    (low : 1601 ≤ date.year) (high : date.year ≤ 9999) :
    parseHttpDate (asctime weekday date time) = .ok (some (unixSeconds date time)) := by
  have dayHigh := date.day_le
  have read : noFields.readTokens [weekday.short, monthName date.month,
      padded (if date.day < 10 then 1 else 2) date.day, clockText time, padded 4 date.year] =
        .ok (some (dateFields date time)) := by
    rw [readTokens_cons (readToken_weekday weekday).2,
      readTokens_cons (readToken_month rfl date.monthOk)]
    split
    · rw [readTokens_cons (readToken_day rfl (by decide) (by omega) date.dayOk.1 dayHigh),
        readTokens_cons (readToken_clockText rfl time),
        readTokens_cons (readToken_year rfl rfl rfl (by omega) (by omega))]
      rfl
    · rw [readTokens_cons (readToken_day rfl (by decide) (by omega) date.dayOk.1 dayHigh),
        readTokens_cons (readToken_clockText rfl time),
        readTokens_cons (readToken_year rfl rfl rfl (by omega) (by omega))]
      rfl
  rw [parseHttpDate_of_words (dateWords_asctime weekday date time) read,
    finish_dateFields time low high]

/-- The two digits of the year are read as the one between 1970 and 2069. -/
theorem parseHttpDate_rfc850 (weekday : Weekday) {date : Date} (time : TimeOfDay)
    (low : 1970 ≤ date.year) (high : date.year ≤ 2069) :
    parseHttpDate (rfc850 weekday date time) = .ok (some (unixSeconds date time)) := by
  have dayHigh := date.day_le
  have century : (if ((date.year % 100 : Nat) : Int) < 70 then 2000 + ((date.year % 100 : Nat) : Int)
      else 1900 + ((date.year % 100 : Nat) : Int)) = date.year := by
    split <;> omega
  have read : noFields.readTokens [weekday.name, padded 2 date.day, monthName date.month,
      padded 2 (date.year % 100), clockText time, zone] = .ok (some (dateFields date time)) := by
    rw [readTokens_cons (readToken_weekday weekday).1,
      readTokens_cons (readToken_day rfl (by decide) (by omega) date.dayOk.1 dayHigh),
      readTokens_cons (readToken_month rfl date.monthOk),
      readTokens_cons (readToken_year rfl rfl rfl (by omega) (by omega)),
      readTokens_cons (readToken_clockText rfl time), readTokens_cons (readToken_zone rfl)]
    simp only [Nat.reduceAdd, Nat.le_refl, if_true, century]
    rfl
  rw [parseHttpDate_of_words (dateWords_rfc850 weekday date time) read,
    finish_dateFields time (by omega) (by omega)]

/-- **HTTP dates are read exactly.** -/
theorem parseHttpDate_exact (weekday : Weekday) (date : Date) (time : TimeOfDay) :
    (1601 ≤ date.year ∧ date.year ≤ 9999 →
      parseHttpDate (imfFixdate weekday date time) = .ok (some (unixSeconds date time)) ∧
      parseHttpDate (asctime weekday date time) = .ok (some (unixSeconds date time))) ∧
    (1970 ≤ date.year ∧ date.year ≤ 2069 →
      parseHttpDate (rfc850 weekday date time) = .ok (some (unixSeconds date time))) := by
  refine ⟨?_, ?_⟩
  · rintro ⟨low, high⟩
    exact ⟨parseHttpDate_imfFixdate weekday time low high,
      parseHttpDate_asctime weekday time low high⟩
  · rintro ⟨low, high⟩
    exact parseHttpDate_rfc850 weekday time low high

def novemberSixth : Date := ⟨1994, 11, 6, by decide, by decide⟩

def earlyMorning : TimeOfDay := ⟨8, 49, 37, by decide, by decide, by decide⟩

theorem parseHttpDate_exact_1994 :
    (parseHttpDate (imfFixdate .sunday novemberSixth earlyMorning) =
        .ok (some (unixSeconds novemberSixth earlyMorning)) ∧
      parseHttpDate (asctime .sunday novemberSixth earlyMorning) =
        .ok (some (unixSeconds novemberSixth earlyMorning))) ∧
    parseHttpDate (rfc850 .sunday novemberSixth earlyMorning) =
      .ok (some (unixSeconds novemberSixth earlyMorning)) :=
  ⟨(parseHttpDate_exact .sunday novemberSixth earlyMorning).1 ⟨by decide, by decide⟩,
    (parseHttpDate_exact .sunday novemberSixth earlyMorning).2 ⟨by decide, by decide⟩⟩

example : asctime .sunday novemberSixth earlyMorning = "Sun Nov  6 08:49:37 1994".toList := by
  decide

end Blasthttp.Cookies
