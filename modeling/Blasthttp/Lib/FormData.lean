/-
# Blasthttp.Lib.FormData -- multipart/form-data, from the reading side

RFC 2046 and RFC 7578.  A body is cut into lines at CRLF.  A line of `--`, the boundary
and blanks delimits the parts, with `--` behind the boundary it ends the last one; in a
part the header lines stand in front of the first empty line, and the content behind it.
-/
import Mathlib.Data.List.Basic
import Mathlib.Data.List.Infix
import Mathlib.Tactic.Common

namespace Blasthttp.Lib.FormData

set_option autoImplicit false

def ascii (s : String) : List UInt8 := s.toList.map fun c => UInt8.ofNat c.toNat

/-! ## Lines -/

def splitLines : List UInt8 → List (List UInt8)
  | [] => [[]]
  | 13 :: 10 :: rest => [] :: splitLines rest
  | b :: rest => (splitLines rest).modifyHead (b :: ·)

def joinLines (lines : List (List UInt8)) : List UInt8 := [13, 10].intercalate lines

theorem splitLines_cons (text : List UInt8) :
    ∃ line lines, splitLines text = line :: lines := by
  fun_induction splitLines text with
  | case1 => exact ⟨[], [], rfl⟩
  | case2 rest ih => exact ⟨[], splitLines rest, rfl⟩
  | case3 b rest notEnd ih =>
      obtain ⟨line, lines, same⟩ := ih
      exact ⟨b :: line, lines, by rw [same]; rfl⟩

/-- A line end separates what is in front of it from what is behind it. -/
theorem splitLines_append (front rest : List UInt8) :
    splitLines (front ++ 13 :: 10 :: rest) = splitLines front ++ splitLines rest := by
  fun_induction splitLines front with
  | case1 => rfl
  | case2 behind ih =>
      show [] :: splitLines (behind ++ 13 :: 10 :: rest) = _
      rw [ih]
      rfl
  | case3 b behind notEnd ih =>
      obtain ⟨line, lines, same⟩ := splitLines_cons behind
      have there : splitLines (b :: (behind ++ 13 :: 10 :: rest)) =
          (splitLines (behind ++ 13 :: 10 :: rest)).modifyHead (b :: ·) := by
        rw [splitLines]
        rintro r rfl starts
        cases behind with
        | nil => cases starts
        | cons c behind =>
            cases starts
            exact notEnd _ rfl rfl
      rw [List.cons_append, there, ih, same]
      rfl

theorem splitLines_single {line : List UInt8} (oneLine : 10 ∉ line) : splitLines line = [line] := by
  fun_induction splitLines line with
  | case1 => rfl
  | case2 rest ih => simp at oneLine
  | case3 b rest notEnd ih =>
      rw [ih fun there => oneLine (List.mem_cons_of_mem _ there)]
      rfl

theorem splitLines_line {line : List UInt8} (oneLine : 10 ∉ line) (rest : List UInt8) :
    splitLines (line ++ 13 :: 10 :: rest) = line :: splitLines rest := by
  rw [splitLines_append, splitLines_single oneLine]
  rfl

theorem joinLines_splitLines (text : List UInt8) : joinLines (splitLines text) = text := by
  fun_induction splitLines text with
  | case1 => rfl
  | case2 rest ih =>
      obtain ⟨line, lines, same⟩ := splitLines_cons rest
      rw [same] at ih ⊢
      show 13 :: 10 :: joinLines (line :: lines) = _
      rw [ih]
  | case3 b rest notEnd ih =>
      obtain ⟨line, lines, same⟩ := splitLines_cons rest
      rw [same] at ih ⊢
      have first : joinLines ((b :: line) :: lines) = b :: joinLines (line :: lines) := by
        cases lines with
        | nil => rfl
        | cons next lines => rfl
      rw [List.modifyHead_cons, first, ih]

theorem infix_joinLines {line : List UInt8} {lines : List (List UInt8)} (there : line ∈ lines) :
    line <:+: joinLines lines := by
  induction lines with
  | nil => cases there
  | cons first lines ih =>
      cases lines with
      | nil =>
          have alone : joinLines [first] = first := by simp [joinLines]
          rw [List.mem_singleton.mp there, alone]
      | cons next lines =>
          have joined : joinLines (first :: next :: lines) =
              first ++ ([13, 10] ++ joinLines (next :: lines)) := rfl
          rw [joined]
          rcases List.mem_cons.mp there with rfl | later
          · exact (List.prefix_append _ _).isInfix
          · exact (ih later).trans ((List.suffix_append _ _).trans (List.suffix_append _ _)).isInfix

theorem infix_of_mem_splitLines {text line : List UInt8} (there : line ∈ splitLines text) :
    line <:+: text := by
  have inside := infix_joinLines there
  rwa [joinLines_splitLines] at inside

/-! ## Parts -/

inductive LineKind where
  | delimiter
  | close
  | text
  deriving DecidableEq

def isBlank (b : UInt8) : Bool := b = 32 || b = 9

/-- A delimiter line consists of nothing else. -/
def lineKind (boundary line : List UInt8) : LineKind :=
  let dash := 45 :: 45 :: boundary
  let behind := line.drop dash.length
  if line.take dash.length ≠ dash then .text
  else if behind.all isBlank then .delimiter
  else if behind.take 2 = [45, 45] ∧ (behind.drop 2).all isBlank then .close
  else .text

/-- The lines between the delimiters up to the last one; those in front of the first one
come first. -/
def sections (boundary : List UInt8) :
    List (List UInt8) → List (List UInt8) → Option (List (List (List UInt8)))
  | _, [] => none
  | read, line :: lines =>
      match lineKind boundary line with
      | .close => some [read]
      | .delimiter => (sections boundary [] lines).map (read :: ·)
      | .text => sections boundary (read ++ [line]) lines

structure Part where
  header : List (List UInt8)
  content : List UInt8
  deriving DecidableEq

def readPart (lines : List (List UInt8)) : Option Part :=
  match lines.dropWhile (· ≠ []) with
  | [] => none
  | _ :: content => some ⟨lines.takeWhile (· ≠ []), joinLines content⟩

def parse (boundary body : List UInt8) : Option (List Part) :=
  (sections boundary [] (splitLines body)).bind fun groups => groups.tail.mapM readPart

theorem lineKind_delimiter (boundary : List UInt8) :
    lineKind boundary (45 :: 45 :: boundary) = .delimiter := by
  simp [lineKind]

theorem lineKind_close (boundary : List UInt8) :
    lineKind boundary (45 :: 45 :: boundary ++ [45, 45]) = .close := by
  have dashes : isBlank 45 = false := by decide
  simp [lineKind, dashes]

/-- A line with something in it that no delimiter has is text. -/
theorem lineKind_text_of_mem {boundary line : List UInt8} {b : UInt8} (there : b ∈ line)
    (odd : b ∉ 45 :: 45 :: boundary) (nonblank : isBlank b = false) (nondash : b ≠ 45) :
    lineKind boundary line = .text := by
  by_cases starts : line.take (45 :: 45 :: boundary).length = 45 :: 45 :: boundary
  · have behind : b ∈ line.drop (45 :: 45 :: boundary).length := by
      rw [← List.take_append_drop (45 :: 45 :: boundary).length line, starts] at there
      exact (List.mem_append.mp there).resolve_left odd
    have notBlank : (line.drop (45 :: 45 :: boundary).length).all isBlank = false :=
      List.all_eq_false.mpr ⟨b, behind, by simp [nonblank]⟩
    have notClose : ¬ ((line.drop (45 :: 45 :: boundary).length).take 2 = [45, 45] ∧
        ((line.drop (45 :: 45 :: boundary).length).drop 2).all isBlank) := by
      rintro ⟨dashes, blank⟩
      rw [← List.take_append_drop 2 (line.drop _), dashes] at behind
      rcases List.mem_append.mp behind with two | later
      · exact nondash (by simpa using two)
      · rw [List.all_eq_true.mp blank b later] at nonblank
        cases nonblank
    rw [lineKind, if_neg (not_not.mpr starts), notBlank, if_neg Bool.false_ne_true,
      if_neg notClose]
  · rw [lineKind, if_pos starts]

theorem lineKind_text_of_other {boundary line : List UInt8}
    (absent : ¬ (45 :: 45 :: boundary) <+: line) : lineKind boundary line = .text := by
  have other : line.take (45 :: 45 :: boundary).length ≠ 45 :: 45 :: boundary := by
    intro same
    apply absent
    rw [← same]
    exact List.take_prefix _ _
  rw [lineKind, if_pos other]

theorem sections_text {boundary : List UInt8} {texts : List (List UInt8)}
    (plain : ∀ line ∈ texts, lineKind boundary line = .text) (read lines : List (List UInt8)) :
    sections boundary read (texts ++ lines) = sections boundary (read ++ texts) lines := by
  induction texts generalizing read with
  | nil => simp
  | cons line texts ih =>
      rw [List.cons_append, sections, plain line List.mem_cons_self]
      simp only
      rw [ih (fun other there => plain other (List.mem_cons_of_mem _ there)), List.append_assoc,
        List.singleton_append]

/-- Parts behind their delimiters, and the last delimiter. -/
theorem sections_parts {boundary : List UInt8} {parts : List (List (List UInt8))}
    (plain : ∀ lines ∈ parts, ∀ line ∈ lines, lineKind boundary line = .text)
    (read behind : List (List UInt8)) :
    sections boundary read (parts.flatMap (fun lines => (45 :: 45 :: boundary) :: lines) ++
      (45 :: 45 :: boundary ++ [45, 45]) :: behind) = some (read :: parts) := by
  induction parts generalizing read with
  | nil =>
      rw [List.flatMap_nil, List.nil_append, sections, lineKind_close]
  | cons lines parts ih =>
      have here := plain lines List.mem_cons_self
      rw [List.flatMap_cons, List.cons_append, List.cons_append, sections, lineKind_delimiter]
      simp only
      rw [List.append_assoc, sections_text here, List.nil_append,
        ih (fun other there => plain other (List.mem_cons_of_mem _ there))]
      rfl

theorem readPart_lines {header content : List (List UInt8)} (nonempty : [] ∉ header) :
    readPart (header ++ [] :: content) = some ⟨header, joinLines content⟩ := by
  have full : ∀ line ∈ header, decide (line ≠ []) = true := by
    intro line there
    exact decide_eq_true fun empty => nonempty (empty ▸ there)
  rw [readPart, List.dropWhile_append_of_pos full, List.takeWhile_append_of_pos full]
  simp

/-! ## Header lines -/

def lower (b : UInt8) : UInt8 := if 65 ≤ b ∧ b ≤ 90 then b + 32 else b

/-- The name in front of the colon, in lower case. -/
def fieldName (line : List UInt8) : List UInt8 := (line.takeWhile (· ≠ 58)).map lower

def fieldValue (line : List UInt8) : List UInt8 :=
  ((line.dropWhile (· ≠ 58)).drop 1).dropWhile isBlank

/-- What stands up to the closing quote, and what is behind it; a backslash takes the next
byte as it is. -/
def quoted : List UInt8 → Option (List UInt8 × List UInt8)
  | [] => none
  | 34 :: rest => some ([], rest)
  | 92 :: b :: rest => (quoted rest).map fun (value, behind) => (b :: value, behind)
  | b :: rest => (quoted rest).map fun (value, behind) => (b :: value, behind)

/-- `; key="value"`, any number of times. -/
def params : Nat → List UInt8 → Option (List (List UInt8 × List UInt8))
  | _, [] => some []
  | more + 1, 59 :: rest =>
      let param := rest.dropWhile isBlank
      match param.dropWhile (· ≠ 61) with
      | 61 :: 34 :: value =>
          (quoted value).bind fun (value, behind) =>
            (params more behind).map ((param.takeWhile (· ≠ 61), value) :: ·)
      | _ => none
  | _, _ => none

/-- The type and the parameters of a `Content-Disposition` line. -/
def disposition (line : List UInt8) :
    Option (List UInt8 × List (List UInt8 × List UInt8)) :=
  if fieldName line = ascii "content-disposition" then
    let value := fieldValue line
    (params value.length (value.dropWhile (· ≠ 59))).map ((value.takeWhile (· ≠ 59)), ·)
  else none

theorem quoted_append {value : List UInt8} (unquoted : 34 ∉ value) (plain : 92 ∉ value)
    (rest : List UInt8) : quoted (value ++ 34 :: rest) = some (value, rest) := by
  induction value with
  | nil => rfl
  | cons b value ih =>
      obtain ⟨noQuote, laterQuote⟩ := List.ne_and_not_mem_of_not_mem_cons unquoted
      obtain ⟨noSlash, laterSlash⟩ := List.ne_and_not_mem_of_not_mem_cons plain
      rw [List.cons_append, quoted, ih laterQuote laterSlash]
      · rfl
      · rintro rfl
        exact noQuote rfl
      · rintro c r rfl
        exact absurd rfl noSlash

/-- How a parameter is written. -/
def param (key value : List UInt8) : List UInt8 := 59 :: 32 :: (key ++ 61 :: 34 :: (value ++ [34]))

structure Written (key value : List UInt8) : Prop where
  keyStarts : ∃ b rest, key = b :: rest ∧ isBlank b = false
  keyEnds : 61 ∉ key
  unquoted : 34 ∉ value
  plain : 92 ∉ value

theorem params_param {key value : List UInt8} (written : Written key value) (more : Nat)
    (rest : List UInt8) :
    params (more + 1) (param key value ++ rest) = (params more rest).map ((key, value) :: ·) := by
  obtain ⟨b, tail, starts, nonblank⟩ := written.keyStarts
  have ends : ∀ c ∈ key, decide (c ≠ 61) = true := by
    intro c there
    exact decide_eq_true fun same => written.keyEnds (same ▸ there)
  have blanks : (32 :: (key ++ 61 :: 34 :: (value ++ 34 :: rest))).dropWhile isBlank =
      key ++ 61 :: 34 :: (value ++ 34 :: rest) := by
    rw [starts]
    simp [nonblank, show isBlank 32 = true from rfl]
  have text : param key value ++ rest = 59 :: 32 :: (key ++ 61 :: 34 :: (value ++ 34 :: rest)) := by
    simp [param]
  rw [text, params]
  simp only [blanks]
  rw [List.dropWhile_append_of_pos ends, List.takeWhile_append_of_pos ends]
  simp only [List.dropWhile_cons, List.takeWhile_cons]
  simp [quoted_append written.unquoted written.plain]

theorem params_written {ps : List (List UInt8 × List UInt8)}
    (written : ∀ p ∈ ps, Written p.1 p.2) {more : Nat} (enough : ps.length ≤ more) :
    params more (ps.flatMap fun p => param p.1 p.2) = some ps := by
  induction ps generalizing more with
  | nil => cases more <;> rfl
  | cons p ps ih =>
      obtain ⟨less, rfl⟩ : ∃ less, more = less + 1 := ⟨more - 1, by simp at enough; omega⟩
      rw [List.flatMap_cons, params_param (written p List.mem_cons_self),
        ih (fun q there => written q (List.mem_cons_of_mem _ there)) (by simpa using enough)]
      rfl

theorem length_le_params (ps : List (List UInt8 × List UInt8)) :
    ps.length ≤ (ps.flatMap fun p => param p.1 p.2).length := by
  induction ps with
  | nil => exact Nat.zero_le _
  | cons p ps ih =>
      rw [List.flatMap_cons, List.length_append, List.length_cons]
      have some_bytes : 1 ≤ (param p.1 p.2).length := Nat.le_add_left _ _
      omega

/-- A line of quoted parameters comes back as it was written. -/
theorem disposition_written {type : List UInt8} {ps : List (List UInt8 × List UInt8)}
    (typeStarts : ∃ b rest, type = b :: rest ∧ isBlank b = false) (typeEnds : 59 ∉ type)
    (written : ∀ p ∈ ps, Written p.1 p.2) :
    disposition (ascii "Content-Disposition: " ++ (type ++ ps.flatMap fun p => param p.1 p.2)) =
      some (type, ps) := by
  obtain ⟨b, tail, starts, nonblank⟩ := typeStarts
  have ends : ∀ c ∈ type, decide (c ≠ 59) = true := by
    intro c there
    exact decide_eq_true fun same => typeEnds (same ▸ there)
  have name : ∀ text, fieldName (ascii "Content-Disposition: " ++ text) =
      ascii "content-disposition" := fun _ => rfl
  have value : ∀ text, fieldValue (ascii "Content-Disposition: " ++ (type ++ text)) =
      type ++ text := by
    intro text
    show (32 :: (type ++ text)).dropWhile isBlank = type ++ text
    rw [starts]
    simp [nonblank, show isBlank 32 = true from rfl]
  -- the parameters start with the semicolon that ends the type
  have semicolon : (ps.flatMap fun p => param p.1 p.2).dropWhile (· ≠ 59) =
      (ps.flatMap fun p => param p.1 p.2) ∧
      (ps.flatMap fun p => param p.1 p.2).takeWhile (· ≠ 59) = [] := by
    cases ps with
    | nil => exact ⟨rfl, rfl⟩
    | cons p ps => exact ⟨rfl, rfl⟩
  have enough : ps.length ≤ (type ++ ps.flatMap fun p => param p.1 p.2).length := by
    have count := length_le_params ps
    rw [List.length_append]
    omega
  rw [disposition, if_pos (name _)]
  simp only [value]
  rw [List.dropWhile_append_of_pos ends, List.takeWhile_append_of_pos ends, semicolon.1,
    semicolon.2, params_written written enough, List.append_nil]
  rfl

end Blasthttp.Lib.FormData
