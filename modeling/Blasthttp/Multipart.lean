/-
# Blasthttp.Multipart -- multipart/form-data bodies

`build_multipart` writes one part for each item of a Python dict, and a parser that reads
the body line by line finds just those parts, whatever the names and the contents
(`buildMultipart_parses`).
-/
import Blasthttp.Rust.Utf8
import Blasthttp.Lib.FormData

namespace Blasthttp.Multipart

open Blasthttp.Rust Blasthttp.Lib.FormData

set_option autoImplicit false

/-! ## Values from Python -/

/-- A Python object, told apart as `parse_value` does it. -/
inductive PyValue where
  | none
  | bytes (b : List UInt8)
  | str (s : Str)
  | tuple (items : List PyValue)
  | list (items : List PyValue)
  | dict (items : List (PyValue × PyValue))
  | other (object : Nat)

/-- `str(value)` or the text of what it raises, and the text of a failed `extract`. -/
structure Python where
  str : PyValue → Except Str Str
  extractError : PyValue → Str

structure ParsedPart where
  filename : Option Str
  contentType : Option Str
  content : List UInt8
  extraHeaders : List (Str × Str)

def coerceContent (python : Python) : PyValue → Except Str (List UInt8)
  | .none => .ok []
  | .bytes b => .ok b
  | .str s => .ok (utf8Bytes s)
  | value => (python.str value).map utf8Bytes

/-- A string or `None`. -/
def optionalText (error : Str) : PyValue → Except Str (Option Str)
  | .none => .ok none
  | .str s => .ok (some s)
  | _ => .error error

def extractText (python : Python) : PyValue → Except Str Str
  | .str s => .ok s
  | value => .error (python.extractError value)

def readHeaders (python : Python) : PyValue → Except Str (List (Str × Str))
  | .none => .ok []
  | .dict items =>
      items.mapM fun (k, v) => do
        let k ← extractText python k
        let v ← extractText python v
        pure (k, v)
  | _ => .error "files tuple headers must be a dict or None".toList

def sequenceError : Str :=
  ("files value tuple must have 2-4 elements: " ++
    "(filename, content[, content_type[, headers]])").toList

def parseSequence (python : Python) : List PyValue → Except Str ParsedPart
  | filename :: content :: rest =>
      if rest.length ≤ 2 then do
        let filename ←
          optionalText "files tuple filename must be a string or None".toList filename
        let content ← coerceContent python content
        let contentType ←
          match rest with
          | [] => pure none
          | contentType :: _ =>
              optionalText "files tuple content_type must be a string or None".toList contentType
        let extraHeaders ←
          match rest with
          | [_, headers] => readHeaders python headers
          | _ => pure []
        pure ⟨filename, contentType, content, extraHeaders⟩
      else .error sequenceError
  | _ => .error sequenceError

def parseValue (python : Python) : PyValue → Except Str ParsedPart
  | .tuple items => parseSequence python items
  | .list items => parseSequence python items
  | value => do
      let content ← coerceContent python value
      pure ⟨none, none, content, []⟩

/-! ## The body -/

def quoteChar (c : Char) : Str :=
  if c = '\\' then "%5C".toList
  else if c = '"' then "%22".toList
  else if c = '\r' then "%0D".toList
  else if c = '\n' then "%0A".toList
  else [c]

def quoteHeader (s : Str) : Str := s.flatMap quoteChar

/-- What `write_part` writes of a part. -/
def partBytes (boundary fieldName : Str) (part : ParsedPart) : List UInt8 :=
  ascii "--" ++ utf8Bytes boundary ++ ascii "\r\n" ++
  ascii "Content-Disposition: form-data; name=\"" ++ utf8Bytes (quoteHeader fieldName) ++
  ascii "\"" ++
  (match part.filename with
    | some filename =>
        ascii "; filename=\"" ++ utf8Bytes (quoteHeader filename) ++ ascii "\""
    | none => []) ++
  ascii "\r\n" ++
  (match part.contentType with
    | some ct => ascii "Content-Type: " ++ utf8Bytes ct ++ ascii "\r\n"
    | none =>
        if part.filename.isSome then ascii "Content-Type: application/octet-stream\r\n" else []) ++
  (part.extraHeaders.flatMap fun (k, v) =>
    utf8Bytes k ++ ascii ": " ++ utf8Bytes v ++ ascii "\r\n") ++
  ascii "\r\n" ++ part.content ++ ascii "\r\n"

def writePart (python : Python) (boundary : Str) (body : List UInt8) (fieldName : Str)
    (value : PyValue) : Except Str (List UInt8) := do
  let part ← parseValue python value
  pure (body ++ partBytes boundary fieldName part)

/-- `{:016x}`. -/
def hex16 (v : UInt64) : Str :=
  (List.range 16).map fun i => Nat.digitChar (v.toNat / 16 ^ (15 - i) % 16)

/-- `random_boundary`, of its two hashes. -/
def randomBoundary (v1 v2 : UInt64) : Str :=
  "blasthttp-boundary-".toList ++ hex16 v1 ++ hex16 v2

/-- The loop body of `build_multipart`. -/
def writeItem (python : Python) (boundary : Str) (body : List UInt8) :
    PyValue × PyValue → Except Str (List UInt8)
  | (.str name, value) => writePart python boundary body name value
  | _ => .error "files dict keys must be strings".toList

def buildMultipart (python : Python) (v1 v2 : UInt64) : PyValue → Except Str (Str × List UInt8)
  | .dict items => do
      let boundary := randomBoundary v1 v2
      let body ← items.foldlM (writeItem python boundary) []
      pure (boundary, body ++ ascii "--" ++ utf8Bytes boundary ++ ascii "--\r\n")
  | _ => .error "files must be a dict mapping field name to content".toList

example : quoteHeader "a\"b\\c".toList = "a%22b%5Cc".toList ∧
    quoteHeader "line1\r\nline2".toList = "line1%0D%0Aline2".toList := by decide

/-! ## Escaping -/

theorem not_mem_quoteHeader {c : Char} (escaped : c = '\\' ∨ c = '"' ∨ c = '\r' ∨ c = '\n')
    (s : Str) : c ∉ quoteHeader s := by
  intro there
  obtain ⟨d, -, inside⟩ := List.mem_flatMap.mp there
  simp only [quoteChar] at inside
  split at inside
  · rcases escaped with rfl | rfl | rfl | rfl <;> revert inside <;> decide
  split at inside
  · rcases escaped with rfl | rfl | rfl | rfl <;> revert inside <;> decide
  split at inside
  · rcases escaped with rfl | rfl | rfl | rfl <;> revert inside <;> decide
  split at inside
  · rcases escaped with rfl | rfl | rfl | rfl <;> revert inside <;> decide
  · rw [List.mem_singleton] at inside
    subst inside
    rcases escaped with slash | quote | cr | lf
    · contradiction
    · contradiction
    · contradiction
    · contradiction

theorem isAlphanum_hex16 {v : UInt64} {c : Char} (there : c ∈ hex16 v) : c.isAlphanum = true := by
  have hex : ∀ n, n < 16 → (Nat.digitChar n).isAlphanum = true := by decide
  rw [hex16, List.mem_map] at there
  obtain ⟨i, -, same⟩ := there
  rw [← same]
  exact hex _ (Nat.mod_lt _ (by omega))

theorem not_mem_boundary {c : Char} (other : c.isAlphanum = false) (nodash : c ≠ '-')
    (v1 v2 : UInt64) : c ∉ randomBoundary v1 v2 := by
  have word : ∀ d ∈ "blasthttp-boundary-".toList, d.isAlphanum = true ∨ d = '-' := by simp
  intro there
  rcases List.mem_append.mp there with front | second
  · rcases List.mem_append.mp front with letters | first
    · rcases word c letters with alnum | dash
      · rw [other] at alnum
        cases alnum
      · exact nodash dash
    · rw [isAlphanum_hex16 first] at other
      cases other
  · rw [isAlphanum_hex16 second] at other
    cases other

/-! ## The lines of a part -/

/-- The content type that is written. -/
def ParsedPart.givenType (part : ParsedPart) : Option (List UInt8) :=
  match part.contentType with
  | some ct => some (utf8Bytes ct)
  | none => if part.filename.isSome then some (ascii "application/octet-stream") else none

/-- The parameters of the `Content-Disposition` line. -/
def dispositionParams (fieldName : Str) (part : ParsedPart) :
    List (List UInt8 × List UInt8) :=
  (ascii "name", utf8Bytes (quoteHeader fieldName)) ::
    (part.filename.map fun filename =>
      (ascii "filename", utf8Bytes (quoteHeader filename))).toList

def dispositionLine (fieldName : Str) (part : ParsedPart) : List UInt8 :=
  ascii "Content-Disposition: " ++
    (ascii "form-data" ++ (dispositionParams fieldName part).flatMap fun p => param p.1 p.2)

def extraLine (header : Str × Str) : List UInt8 :=
  utf8Bytes header.1 ++ ascii ": " ++ utf8Bytes header.2

/-- The header lines behind the `Content-Disposition` line. -/
def furtherLines (part : ParsedPart) : List (List UInt8) :=
  (part.givenType.map (ascii "Content-Type: " ++ ·)).toList ++ part.extraHeaders.map extraLine

def partLines (fieldName : Str) (part : ParsedPart) : List (List UInt8) :=
  dispositionLine fieldName part :: furtherLines part ++ [] :: splitLines part.content

theorem dispositionLine_eq (fieldName : Str) (part : ParsedPart) :
    dispositionLine fieldName part =
      ascii "Content-Disposition: form-data; name=\"" ++ utf8Bytes (quoteHeader fieldName) ++
        ascii "\"" ++
        (match part.filename with
          | some filename =>
              ascii "; filename=\"" ++ utf8Bytes (quoteHeader filename) ++ ascii "\""
          | none => []) := by
  have name : ascii "Content-Disposition: form-data; name=\"" =
      ascii "Content-Disposition: " ++
        (ascii "form-data" ++ 59 :: 32 :: (ascii "name" ++ [61, 34])) := rfl
  have file : ascii "; filename=\"" = 59 :: 32 :: (ascii "filename" ++ [61, 34]) := rfl
  have quote : ascii "\"" = [34] := rfl
  rw [dispositionLine, dispositionParams, name, file, quote]
  cases part.filename with
  | none => simp [param]
  | some filename => simp [param]

theorem furtherLines_eq (part : ParsedPart) :
    (furtherLines part).flatMap (· ++ [13, 10]) =
      (match part.contentType with
        | some ct => ascii "Content-Type: " ++ utf8Bytes ct ++ ascii "\r\n"
        | none =>
            if part.filename.isSome then ascii "Content-Type: application/octet-stream\r\n"
            else []) ++
      (part.extraHeaders.flatMap fun (k, v) =>
        utf8Bytes k ++ ascii ": " ++ utf8Bytes v ++ ascii "\r\n") := by
  have octets : ascii "Content-Type: application/octet-stream\r\n" =
      ascii "Content-Type: " ++ (ascii "application/octet-stream" ++ [13, 10]) := rfl
  have crlf : ascii "\r\n" = [13, 10] := rfl
  rw [furtherLines, ParsedPart.givenType, List.flatMap_append, octets, crlf]
  congr 1
  · cases part.contentType with
    | some ct => simp
    | none => cases part.filename.isSome <;> simp
  · rw [List.flatMap_map]
    rfl

theorem partBytes_eq (boundary fieldName : Str) (part : ParsedPart) :
    partBytes boundary fieldName part =
      45 :: 45 :: utf8Bytes boundary ++ 13 :: 10 ::
        ((dispositionLine fieldName part :: furtherLines part).flatMap (· ++ [13, 10]) ++
          13 :: 10 :: (part.content ++ [13, 10])) := by
  have dashes : ascii "--" = [45, 45] := rfl
  have crlf : ascii "\r\n" = [13, 10] := rfl
  rw [List.flatMap_cons, furtherLines_eq, dispositionLine_eq, partBytes, dashes, crlf]
  simp only [List.append_assoc, List.cons_append, List.nil_append]

/-! ## Lines stay lines -/

def OneLine (s : Str) : Prop := '\r' ∉ s ∧ '\n' ∉ s

instance (s : Str) : Decidable (OneLine s) := inferInstanceAs (Decidable (_ ∧ _))

/-- What a part must keep to: its content does not have the boundary behind `--`, and its
content type and extra headers are lines. -/
structure ParsedPart.Clean (boundary : Str) (part : ParsedPart) : Prop where
  content : ¬ (45 :: 45 :: utf8Bytes boundary) <:+: part.content
  contentType : ∀ ct, part.contentType = some ct → OneLine ct
  extraHeaders : ∀ header ∈ part.extraHeaders, OneLine header.1 ∧ OneLine header.2

theorem lf_not_mem {s : Str} (oneLine : OneLine s) : 10 ∉ utf8Bytes s := by
  intro there
  exact oneLine.2 ((@mem_utf8Bytes '\n' (by decide) s).mp there)

theorem oneLine_quoteHeader (s : Str) : OneLine (quoteHeader s) :=
  ⟨not_mem_quoteHeader (by simp) s, not_mem_quoteHeader (by simp) s⟩

theorem written_quoteHeader {key : List UInt8}
    (starts : ∃ b rest, key = b :: rest ∧ isBlank b = false) (ends : 61 ∉ key) (s : Str) :
    Written key (utf8Bytes (quoteHeader s)) where
  keyStarts := starts
  keyEnds := ends
  unquoted := fun there =>
    not_mem_quoteHeader (by simp) s ((@mem_utf8Bytes '"' (by decide) _).mp there)
  plain := fun there =>
    not_mem_quoteHeader (by simp) s ((@mem_utf8Bytes '\\' (by decide) _).mp there)

theorem dispositionParams_written (fieldName : Str) (part : ParsedPart) :
    ∀ p ∈ dispositionParams fieldName part, Written p.1 p.2 := by
  have name := @written_quoteHeader (ascii "name") ⟨_, _, rfl, rfl⟩ (by decide) fieldName
  intro p there
  rcases List.mem_cons.mp there with rfl | later
  · exact name
  · cases given : part.filename with
    | none => simp [given] at later
    | some filename =>
        have only : p = (ascii "filename", utf8Bytes (quoteHeader filename)) := by
          simpa [given] using later
        rw [only]
        exact written_quoteHeader ⟨_, _, rfl, rfl⟩ (by decide) filename

/-- The name and the filename come back, however hostile they are. -/
theorem disposition_dispositionLine (fieldName : Str) (part : ParsedPart) :
    disposition (dispositionLine fieldName part) =
      some (ascii "form-data", dispositionParams fieldName part) :=
  disposition_written ⟨_, _, rfl, rfl⟩ (by decide) (dispositionParams_written fieldName part)

theorem dispositionLine_lf (fieldName : Str) (part : ParsedPart) :
    10 ∉ dispositionLine fieldName part := by
  have quoted := fun s => lf_not_mem (oneLine_quoteHeader s)
  rw [dispositionLine_eq]
  cases part.filename with
  | none =>
      simp only [List.mem_append, not_or]
      exact ⟨⟨⟨by decide, quoted fieldName⟩, by decide⟩, by decide⟩
  | some filename =>
      simp only [List.mem_append, not_or]
      exact ⟨⟨⟨by decide, quoted fieldName⟩, by decide⟩, ⟨by decide, quoted filename⟩, by decide⟩

/-- A header line behind the first has a name, and no line end. -/
theorem furtherLines_spec {boundary : Str} {part : ParsedPart} (clean : part.Clean boundary) :
    ∀ line ∈ furtherLines part, 10 ∉ line ∧ 58 ∈ line := by
  intro line there
  rcases List.mem_append.mp there with type | extra
  · obtain ⟨given, is, rfl⟩ : ∃ given, part.givenType = some given ∧
        ascii "Content-Type: " ++ given = line := by simpa using type
    have oneLine : 10 ∉ given := by
      rw [ParsedPart.givenType] at is
      split at is
      · rename_i ct isText
        cases is
        exact lf_not_mem (clean.contentType ct isText)
      · split at is
        · cases is
          decide
        · cases is
    refine ⟨?_, List.mem_append_left _ (by decide)⟩
    rw [List.mem_append, not_or]
    exact ⟨by decide, oneLine⟩
  · obtain ⟨header, inside, rfl⟩ := List.mem_map.mp extra
    obtain ⟨key, value⟩ := clean.extraHeaders header inside
    rw [extraLine]
    refine ⟨?_, by simp [show 58 ∈ ascii ": " from by decide]⟩
    simp only [List.mem_append, not_or]
    exact ⟨⟨lf_not_mem key, by decide⟩, lf_not_mem value⟩

/-! ## The lines of the body -/

/-- The body of parts that are read already. -/
def multipartBody (boundary : Str) (parts : List (Str × ParsedPart)) : List UInt8 :=
  (parts.flatMap fun part => partBytes boundary part.1 part.2) ++ ascii "--" ++
    utf8Bytes boundary ++ ascii "--\r\n"

theorem splitLines_flatMap {lines : List (List UInt8)} (oneLine : ∀ line ∈ lines, 10 ∉ line)
    (rest : List UInt8) :
    splitLines (lines.flatMap (· ++ [13, 10]) ++ rest) = lines ++ splitLines rest := by
  induction lines with
  | nil => rfl
  | cons line lines ih =>
      rw [List.flatMap_cons, List.append_assoc, List.append_assoc]
      show splitLines (line ++ 13 :: 10 :: (lines.flatMap (· ++ [13, 10]) ++ rest)) = _
      rw [splitLines_line (oneLine line List.mem_cons_self),
        ih fun other there => oneLine other (List.mem_cons_of_mem _ there)]
      rfl

theorem splitLines_part {boundary : Str} (oneLine : 10 ∉ utf8Bytes boundary) {part : ParsedPart}
    (clean : part.Clean boundary) (fieldName : Str) (rest : List UInt8) :
    splitLines (partBytes boundary fieldName part ++ rest) =
      (45 :: 45 :: utf8Bytes boundary) :: partLines fieldName part ++ splitLines rest := by
  have dash : 10 ∉ 45 :: 45 :: utf8Bytes boundary := by simpa using oneLine
  have header : ∀ line ∈ dispositionLine fieldName part :: furtherLines part, 10 ∉ line := by
    intro line there
    rcases List.mem_cons.mp there with rfl | further
    · exact dispositionLine_lf fieldName part
    · exact (furtherLines_spec clean line further).1
  have text : partBytes boundary fieldName part ++ rest =
      (45 :: 45 :: utf8Bytes boundary) ++ 13 :: 10 ::
        ((dispositionLine fieldName part :: furtherLines part).flatMap (· ++ [13, 10]) ++
          ([] ++ 13 :: 10 :: (part.content ++ 13 :: 10 :: rest))) := by
    rw [partBytes_eq]
    simp
  rw [text, splitLines_line dash, splitLines_flatMap header, splitLines_line (by simp),
    splitLines_append]
  simp [partLines]

theorem splitLines_body {boundary : Str} (oneLine : 10 ∉ utf8Bytes boundary)
    {parts : List (Str × ParsedPart)} (clean : ∀ part ∈ parts, part.2.Clean boundary) :
    splitLines (multipartBody boundary parts) =
      (parts.map fun part => partLines part.1 part.2).flatMap
          (fun lines => (45 :: 45 :: utf8Bytes boundary) :: lines) ++
        (45 :: 45 :: utf8Bytes boundary ++ [45, 45]) :: [[]] := by
  have last : ascii "--\r\n" = [45, 45, 13, 10] := rfl
  induction parts with
  | nil =>
      have text : multipartBody boundary [] =
          (45 :: 45 :: utf8Bytes boundary ++ [45, 45]) ++ 13 :: 10 :: [] := by
        rw [multipartBody, last]
        simp [show ascii "--" = [45, 45] from rfl]
      have dash : 10 ∉ 45 :: 45 :: utf8Bytes boundary ++ [45, 45] := by simpa using oneLine
      rw [text, splitLines_line dash]
      rfl
  | cons part parts ih =>
      have text : multipartBody boundary (part :: parts) =
          partBytes boundary part.1 part.2 ++ multipartBody boundary parts := by
        simp [multipartBody]
      rw [text, splitLines_part oneLine (clean part List.mem_cons_self),
        ih fun other there => clean other (List.mem_cons_of_mem _ there)]
      simp

/-- In a part nothing looks like a delimiter. -/
theorem partLines_text {boundary : Str} (noColon : 58 ∉ utf8Bytes boundary) {part : ParsedPart}
    (clean : part.Clean boundary) (fieldName : Str) :
    ∀ line ∈ partLines fieldName part, lineKind (utf8Bytes boundary) line = .text := by
  have named : ∀ line : List UInt8, 58 ∈ line → lineKind (utf8Bytes boundary) line = .text :=
    fun line there =>
      lineKind_text_of_mem there (by simpa using noColon) (by decide) (by decide)
  intro line there
  rcases List.mem_append.mp there with header | behind
  · rcases List.mem_cons.mp header with rfl | further
    · exact named _ (List.mem_append_left _ (by decide))
    · exact named line (furtherLines_spec clean line further).2
  · apply lineKind_text_of_other
    rintro starts
    rcases List.mem_cons.mp behind with rfl | content
    · exact absurd (List.prefix_nil.mp starts) (by simp)
    · exact clean.content (starts.isInfix.trans (infix_of_mem_splitLines content))

/-- What the parser makes of a part. -/
def partForm (fieldName : Str) (part : ParsedPart) : Part :=
  ⟨dispositionLine fieldName part :: furtherLines part, part.content⟩

theorem readPart_partLines {boundary : Str} {part : ParsedPart} (clean : part.Clean boundary)
    (fieldName : Str) : readPart (partLines fieldName part) = some (partForm fieldName part) := by
  have nonempty : [] ∉ dispositionLine fieldName part :: furtherLines part := by
    intro there
    rcases List.mem_cons.mp there with first | further
    · cases first
    · exact absurd (furtherLines_spec clean [] further).2 (by simp)
  rw [partLines, readPart_lines nonempty, joinLines_splitLines]
  rfl

theorem parse_multipartBody {boundary : Str} (oneLine : 10 ∉ utf8Bytes boundary)
    (noColon : 58 ∉ utf8Bytes boundary) {parts : List (Str × ParsedPart)}
    (clean : ∀ part ∈ parts, part.2.Clean boundary) :
    parse (utf8Bytes boundary) (multipartBody boundary parts) =
      some (parts.map fun part => partForm part.1 part.2) := by
  have plain : ∀ lines ∈ parts.map fun part => partLines part.1 part.2,
      ∀ line ∈ lines, lineKind (utf8Bytes boundary) line = .text := by
    intro lines there
    obtain ⟨part, inside, rfl⟩ := List.mem_map.mp there
    exact partLines_text noColon (clean part inside) part.1
  have each : (parts.map fun part => partLines part.1 part.2).mapM readPart =
      some (parts.map fun part => partForm part.1 part.2) := by
    clear plain
    induction parts with
    | nil => rfl
    | cons part parts ih =>
        rw [List.map_cons, List.mapM_cons, readPart_partLines (clean part List.mem_cons_self),
          ih fun other there => clean other (List.mem_cons_of_mem _ there)]
        rfl
  rw [parse, splitLines_body oneLine clean, sections_parts plain, Option.bind_some, List.tail_cons,
    each]

/-! ## Parts from Python -/

def readItem (python : Python) : PyValue × PyValue → Except Str (Str × ParsedPart)
  | (.str name, value) => (parseValue python value).map (name, ·)
  | _ => .error "files dict keys must be strings".toList

theorem writeItem_eq (python : Python) (boundary : Str) (body : List UInt8)
    (item : PyValue × PyValue) :
    writeItem python boundary body item =
      (readItem python item).map fun part => body ++ partBytes boundary part.1 part.2 := by
  obtain ⟨name, value⟩ := item
  cases name with
  | str name =>
      simp only [writeItem, readItem, writePart]
      cases parseValue python value <;> rfl
  | none => rfl
  | bytes b => rfl
  | tuple items => rfl
  | list items => rfl
  | dict items => rfl
  | other object => rfl

theorem foldlM_writeItem (python : Python) (boundary : Str) (items : List (PyValue × PyValue))
    (body : List UInt8) :
    items.foldlM (writeItem python boundary) body =
      (items.mapM (readItem python)).map fun parts =>
        body ++ parts.flatMap fun part => partBytes boundary part.1 part.2 := by
  induction items generalizing body with
  | nil =>
      show Except.ok body = Except.ok (body ++ [])
      rw [List.append_nil]
  | cons item items ih =>
      rw [List.foldlM_cons, List.mapM_cons, writeItem_eq]
      cases readItem python item with
      | error e => rfl
      | ok part =>
          show items.foldlM (writeItem python boundary)
            (body ++ partBytes boundary part.1 part.2) = _
          rw [ih]
          cases items.mapM (readItem python) with
          | error e => rfl
          | ok parts =>
              simp only [Except.map, List.append_assoc]
              rfl

/-- The body is that of the parts the items stand for. -/
theorem buildMultipart_dict (python : Python) (v1 v2 : UInt64) (items : List (PyValue × PyValue)) :
    buildMultipart python v1 v2 (.dict items) =
      (items.mapM (readItem python)).map fun parts =>
        (randomBoundary v1 v2, multipartBody (randomBoundary v1 v2) parts) := by
  rw [buildMultipart]
  simp only [foldlM_writeItem]
  cases items.mapM (readItem python) with
  | error e => rfl
  | ok parts => rfl

/-! ## Reading back -/

def isDisposition (line : List UInt8) : Bool := fieldName line = ascii "content-disposition"

/-- A part as it comes back: its content, and in front of the lines for its content type
and its extra headers the `Content-Disposition` line with the escaped names. -/
structure Recovered (fieldName : Str) (part : ParsedPart) (form : Part) : Prop where
  content : form.content = part.content
  header : ∃ line, form.header = line :: furtherLines part ∧
    disposition line = some (ascii "form-data", dispositionParams fieldName part)
  /-- There is no other such line but among the extra headers. -/
  once : (form.header.filter isDisposition).length =
    1 + ((part.extraHeaders.map extraLine).filter isDisposition).length

theorem recovered_partForm (fieldName : Str) (part : ParsedPart) :
    Recovered fieldName part (partForm fieldName part) where
  content := rfl
  header := ⟨_, rfl, disposition_dispositionLine fieldName part⟩
  once := by
    have first : isDisposition (dispositionLine fieldName part) = true := rfl
    have typeLine : ∀ given, isDisposition (ascii "Content-Type: " ++ given) = false :=
      fun _ => rfl
    have types : (part.givenType.map (ascii "Content-Type: " ++ ·)).toList.filter isDisposition =
        [] := by
      cases part.givenType with
      | none => rfl
      | some given => simp [typeLine given]
    rw [partForm, List.filter_cons_of_pos first, furtherLines, List.filter_append, types,
      List.nil_append, List.length_cons, Nat.add_comm]

/-- **The parts come back.**  Whatever the names and the contents, as long as no content
has the boundary behind `--` and the other headers are lines, a parser finds the same
parts in the same order, each with its content and its headers. -/
theorem buildMultipart_parses (v1 v2 : UInt64) (parts : List (Str × ParsedPart))
    (clean : ∀ part ∈ parts, part.2.Clean (randomBoundary v1 v2)) :
    (∃ forms, parse (utf8Bytes (randomBoundary v1 v2))
        (multipartBody (randomBoundary v1 v2) parts) = some forms ∧
      List.Forall₂ (fun part form => Recovered part.1 part.2 form) parts forms) ∧
    ∀ python items, items.mapM (readItem python) = .ok parts →
      buildMultipart python v1 v2 (.dict items) =
        .ok (randomBoundary v1 v2, multipartBody (randomBoundary v1 v2) parts) := by
  have oneLine : 10 ∉ utf8Bytes (randomBoundary v1 v2) := fun there =>
    not_mem_boundary (by decide) (by decide) v1 v2 ((@mem_utf8Bytes '\n' (by decide) _).mp there)
  have noColon : 58 ∉ utf8Bytes (randomBoundary v1 v2) := fun there =>
    not_mem_boundary (by decide) (by decide) v1 v2 ((@mem_utf8Bytes ':' (by decide) _).mp there)
  refine ⟨⟨_, parse_multipartBody oneLine noColon clean, ?_⟩, fun python items read => ?_⟩
  · rw [List.forall₂_map_right_iff, List.forall₂_same]
    exact fun part _ => recovered_partForm part.1 part.2
  · rw [buildMultipart_dict, read]
    rfl

/-! A part with a hostile name, and one whose extra header is a second `Content-Disposition`. -/

def hostilePart : Str × ParsedPart :=
  ("a\"\r\nX: y\r\n\r\n--".toList,
    ⟨some "\"; name=\"b".toList, none, [13, 10, 45, 45, 13, 10], [("X-Note".toList, "1".toList)]⟩)

theorem buildMultipart_parses_hostile :
    (∃ forms, parse (utf8Bytes (randomBoundary 0 1))
        (multipartBody (randomBoundary 0 1) [hostilePart]) = some forms ∧
      List.Forall₂ (fun part form => Recovered part.1 part.2 form) [hostilePart] forms) ∧
    ∀ python items, items.mapM (readItem python) = .ok [hostilePart] →
      buildMultipart python 0 1 (.dict items) =
        .ok (randomBoundary 0 1, multipartBody (randomBoundary 0 1) [hostilePart]) := by
  refine buildMultipart_parses 0 1 [hostilePart] fun part there => ?_
  rw [List.mem_singleton.mp there]
  exact
    { content := fun inside => absurd inside.length_le (by decide)
      contentType := fun ct given => by cases given
      extraHeaders := by decide }

def doublePart : Str × ParsedPart :=
  ("a".toList, ⟨none, none, [], [("Content-Disposition".toList, "form-data".toList)]⟩)

theorem multipart_two_dispositions :
    ¬ ∀ (v1 v2 : UInt64) (parts : List (Str × ParsedPart)),
      (∀ part ∈ parts, part.2.Clean (randomBoundary v1 v2)) →
        ∀ forms, parse (utf8Bytes (randomBoundary v1 v2))
            (multipartBody (randomBoundary v1 v2) parts) = some forms →
          ∀ form ∈ forms, (form.header.filter isDisposition).length = 1 := by
  intro once
  have clean : ∀ part ∈ [doublePart], part.2.Clean (randomBoundary 0 1) := by
    intro part there
    rw [List.mem_singleton.mp there]
    exact
      { content := fun inside => absurd inside.length_le (by decide)
        contentType := fun ct given => by cases given
        extraHeaders := by decide }
  have read : parse (utf8Bytes (randomBoundary 0 1))
      (multipartBody (randomBoundary 0 1) [doublePart]) =
      some [partForm doublePart.1 doublePart.2] := by decide +kernel
  have one := once 0 1 [doublePart] clean _ read _ List.mem_cons_self
  have two : ((partForm doublePart.1 doublePart.2).header.filter isDisposition).length = 2 := by
    decide +kernel
  rw [two] at one
  cases one

end Blasthttp.Multipart
