/-
# Blasthttp.Cookies.Pairs -- what a `Cookie` header says

A header value is its `segments`, what stands between its `;`s without the white space
around it.  `cookiePairs` reads them the way servers do, at the first `=`, dropping what
has no `=` or no name.  White space at the ends and stray separators make no difference
(`cookiePairs_trim`, `cookiePairs_trimEndMatches`), two values joined by `; ` say what
each says (`segments_join`, `cookiePairs_join`), and a printed list of cookies reads
back as itself (`cookiePairs_intercalate`).
-/
import Blasthttp.Cookies.Chain

namespace Blasthttp.Cookies

open Blasthttp.Rust Blasthttp.Http

set_option autoImplicit false

/-! ## Segments -/

def segments (value : Str) : List Str := (value.splitOn ';').map trim

@[simp] theorem segments_nil : segments [] = [[]] := rfl

theorem segments_of_absent {part : Str} (absent : ';' ∉ part) : segments part = [trim part] := by
  rw [segments, List.splitOn_eq_singleton absent]
  rfl

theorem segments_append (a b : Str) : segments (a ++ ';' :: b) = segments a ++ segments b := by
  rw [segments, List.splitOn_append_cons_self, List.map_append]
  rfl

/-- A value is what stands before its last separator, and the last part. -/
theorem segments_last {front last : Str} (absent : ';' ∉ last) :
    segments (front ++ ';' :: last) = segments front ++ [trim last] := by
  rw [segments_append, segments_of_absent absent]

theorem segments_concat_blank {c : Char} (blank : isWhitespace c = true) (value : Str) :
    segments (value ++ [c]) = segments value := by
  have clean : ';' ∉ [c] := by
    rw [List.mem_singleton]
    rintro rfl
    exact absurd blank (by decide)
  by_cases there : ';' ∈ value
  · obtain ⟨front, last, rfl, absent⟩ := exists_last there
    have longer : ';' ∉ last ++ [c] := by simp [absent, clean]
    rw [List.append_assoc, List.cons_append, segments_last longer, segments_last absent,
      trim_concat blank]
  · have longer : ';' ∉ value ++ [c] := by simp [there, clean]
    rw [segments_of_absent longer, segments_of_absent there, trim_concat blank]

theorem segments_cons_blank {c : Char} (blank : isWhitespace c = true) (value : Str) :
    segments (c :: value) = segments value := by
  have other : ¬ (c == ';') = true := by
    rw [beq_iff_eq]
    rintro rfl
    exact absurd blank (by decide)
  unfold segments
  rw [List.splitOn_cons_eq_if_modifyHead, if_neg other]
  obtain ⟨part, parts, split⟩ := List.exists_cons_of_ne_nil (List.splitOn_ne_nil ';' value)
  rw [split, List.modifyHead_cons, List.map_cons, List.map_cons, trim_cons blank]

theorem segments_append_blank {after : Str} (blank : ∀ c ∈ after, isWhitespace c = true)
    (value : Str) : segments (value ++ after) = segments value := by
  induction after using List.reverseRecOn with
  | nil => rw [List.append_nil]
  | append_singleton after c ih =>
      rw [← List.append_assoc, segments_concat_blank (blank c (by simp))]
      exact ih fun d there => blank d (by simp [there])

theorem segments_trim (value : Str) : segments (trim value) = segments value := by
  have dropFront : ∀ before : Str, (∀ c ∈ before, isWhitespace c = true) →
      segments (before ++ trim value) = segments (trim value) := by
    intro before
    induction before with
    | nil => intro _; rfl
    | cons c before ih =>
        intro blank
        rw [List.cons_append, segments_cons_blank (blank c List.mem_cons_self)]
        exact ih fun d there => blank d (List.mem_cons_of_mem _ there)
  obtain ⟨before, after, split, front, back⟩ := trim_spec value
  conv_rhs => rw [split]
  rw [segments_append_blank back, dropFront before front]

/-- Two values joined by `; `. -/
theorem segments_join (a b : Str) :
    segments (a ++ "; ".toList ++ b) = segments a ++ segments b := by
  have shape : a ++ "; ".toList ++ b = a ++ ';' :: (' ' :: b) := by simp
  rw [shape, segments_append, segments_cons_blank (by decide)]

/-- The characters `build_request` drops from the end of a caller's header. -/
def isStray (c : Char) : Bool := c = ';' || c = ' '

/-- Dropping trailing separators and blanks drops empty segments at most. -/
theorem segments_trimEndMatches (value : Str) :
    (segments (value.rdropWhile isStray)).rdropWhile List.isEmpty =
      (segments value).rdropWhile List.isEmpty := by
  induction value using List.reverseRecOn with
  | nil => rfl
  | append_singleton value c ih =>
      by_cases stray : isStray c = true
      · rw [List.rdropWhile_concat_pos _ _ _ stray, ih]
        rw [isStray, Bool.or_eq_true, decide_eq_true_eq, decide_eq_true_eq] at stray
        rcases stray with rfl | rfl
        · rw [segments_append, segments_nil, List.rdropWhile_concat_pos _ _ _ rfl]
        · rw [segments_concat_blank (by decide)]
      · rw [List.rdropWhile_concat_neg _ _ _ stray]

/-! ## Pairs -/

/-- One part between separators. -/
def readPair (part : Str) : Option (Str × Str) :=
  match splitOnce '=' part with
  | none => none
  | some (name, value) => if (trim name).isEmpty then none else some (trim name, trim value)

def cookiePairs (value : Str) : List (Str × Str) := (value.splitOn ';').filterMap readPair

/-- The pairs of all `Cookie` headers of a request. -/
def requestPairs (headers : List Line) : List (Str × Str) :=
  (headers.filter fun line => isCookieHeader line.1).flatMap fun line => cookiePairs line.2

theorem readPair_cons {c : Char} (blank : isWhitespace c = true) (part : Str) :
    readPair (c :: part) = readPair part := by
  have other : c ≠ '=' := by
    rintro rfl
    exact absurd blank (by decide)
  unfold readPair
  rw [splitOnce, if_neg other]
  cases splitOnce '=' part with
  | none => rfl
  | some r => simp only [trim_cons blank]

theorem readPair_concat {c : Char} (blank : isWhitespace c = true) (part : Str) :
    readPair (part ++ [c]) = readPair part := by
  have other : c ≠ '=' := by
    rintro rfl
    exact absurd blank (by decide)
  by_cases there : '=' ∈ part
  · obtain ⟨name, value, rfl, absent⟩ := List.eq_append_cons_of_mem there
    unfold readPair
    rw [List.append_assoc, List.cons_append, splitOnce_append absent, splitOnce_append absent]
    simp only [trim_concat blank]
  · unfold readPair
    rw [splitOnce_none there, splitOnce_none]
    rw [List.mem_append, List.mem_singleton]
    rintro (old | new)
    · exact there old
    · exact other new.symm

theorem readPair_trim (part : Str) : readPair (trim part) = readPair part := by
  have dropFront : ∀ before rest : Str, (∀ c ∈ before, isWhitespace c = true) →
      readPair (before ++ rest) = readPair rest := by
    intro before rest
    induction before with
    | nil => intro _; rfl
    | cons c before ih =>
        intro blank
        rw [List.cons_append, readPair_cons (blank c List.mem_cons_self)]
        exact ih fun d there => blank d (List.mem_cons_of_mem _ there)
  have dropBack : ∀ after rest : Str, (∀ c ∈ after, isWhitespace c = true) →
      readPair (rest ++ after) = readPair rest := by
    intro after rest
    induction after using List.reverseRecOn with
    | nil => intro _; rw [List.append_nil]
    | append_singleton after c ih =>
        intro blank
        rw [← List.append_assoc, readPair_concat (blank c (by simp))]
        exact ih fun d there => blank d (by simp [there])
  obtain ⟨before, after, split, front, back⟩ := trim_spec part
  conv_rhs => rw [split]
  rw [dropBack after _ back, dropFront before _ front]

/-- The pairs are read off the segments. -/
theorem cookiePairs_eq (value : Str) : cookiePairs value = (segments value).filterMap readPair := by
  rw [cookiePairs, segments, List.filterMap_map]
  exact List.filterMap_congr fun part _ => (readPair_trim part).symm

@[simp] theorem cookiePairs_nil : cookiePairs [] = [] := rfl

theorem cookiePairs_trim (value : Str) : cookiePairs (trim value) = cookiePairs value := by
  rw [cookiePairs_eq, segments_trim, ← cookiePairs_eq]

/-- Empty segments say nothing. -/
theorem filterMap_readPair_rdropWhile (parts : List Str) :
    (parts.rdropWhile List.isEmpty).filterMap readPair = parts.filterMap readPair := by
  induction parts using List.reverseRecOn with
  | nil => rfl
  | append_singleton parts part ih =>
      cases part with
      | nil =>
          rw [List.rdropWhile_concat_pos _ _ _ rfl, ih, List.filterMap_append]
          exact (List.append_nil _).symm
      | cons c part => rw [List.rdropWhile_concat_neg _ _ _ (by simp)]

/-- Trailing separators and blanks say nothing. -/
theorem cookiePairs_trimEndMatches (value : Str) :
    cookiePairs (value.rdropWhile isStray) = cookiePairs value := by
  rw [cookiePairs_eq, ← filterMap_readPair_rdropWhile, segments_trimEndMatches,
    filterMap_readPair_rdropWhile, ← cookiePairs_eq]

/-- Two values joined by `; `. -/
theorem cookiePairs_join (a b : Str) :
    cookiePairs (a ++ "; ".toList ++ b) = cookiePairs a ++ cookiePairs b := by
  rw [cookiePairs_eq, segments_join, List.filterMap_append, ← cookiePairs_eq, ← cookiePairs_eq]

/-! ## Printing -/

/-- A cookie whose printed form cannot be misread. -/
structure Cookie.Clean (cookie : Cookie) : Prop where
  named : cookie.name ≠ []
  nameTrim : trim cookie.name = cookie.name
  nameEq : '=' ∉ cookie.name
  nameSep : ';' ∉ cookie.name
  valueTrim : trim cookie.value = cookie.value
  valueSep : ';' ∉ cookie.value

theorem Cookie.Clean.cookiePairs {cookie : Cookie} (clean : cookie.Clean) :
    cookiePairs cookie.text = [(cookie.name, cookie.value)] := by
  have whole : ';' ∉ cookie.text := by
    unfold Cookie.text
    rw [List.mem_append, List.mem_cons]
    rintro (inName | bad | inValue)
    · exact clean.nameSep inName
    · exact absurd bad (by decide)
    · exact clean.valueSep inValue
  have read : readPair cookie.text = some (cookie.name, cookie.value) := by
    unfold readPair Cookie.text
    rw [splitOnce_append clean.nameEq]
    simp [clean.nameTrim, clean.valueTrim, clean.named]
  unfold Cookies.cookiePairs
  rw [List.splitOn_eq_singleton whole, List.filterMap_cons, read]
  rfl

/-- **A printed list reads back.** -/
theorem cookiePairs_intercalate :
    ∀ {cookies : List Cookie}, (∀ c ∈ cookies, c.Clean) →
      cookiePairs ("; ".toList.intercalate (cookies.map Cookie.text)) =
        cookies.map fun c => (c.name, c.value)
  | [], _ => rfl
  | [cookie], clean => by
      rw [List.map_singleton, List.intercalate_singleton,
        (clean cookie List.mem_cons_self).cookiePairs]
      rfl
  | cookie :: next :: rest, clean => by
      have others : ∀ c ∈ next :: rest, c.Clean := fun c there =>
        clean c (List.mem_cons_of_mem _ there)
      have later := cookiePairs_intercalate others
      rw [List.map_cons, List.map_cons, List.intercalate_cons_cons, ← List.map_cons,
        cookiePairs_join, (clean cookie List.mem_cons_self).cookiePairs, later]
      rfl

end Blasthttp.Cookies
