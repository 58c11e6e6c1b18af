/-
# Blasthttp.Client.MergeCookies -- the seam of a merged `Cookie` header

`build_request` trims the caller's header of white space, then of `;` and blanks, and
joins the chain's cookies on.  A tab stops the second trimming without being a cookie,
so behind a separator it leaves an empty segment at the seam; `mergedHeader_iff` says
exactly when there is none.
-/
import Blasthttp.Client.CallerCookies

namespace Blasthttp.Client

open Blasthttp.Rust Blasthttp.Http Blasthttp.Cookies

set_option autoImplicit false

/-! ## The header that takes the chain's cookies -/

theorem emitHeaders_first (extra : Str) {name value : Str} (cookie : isCookieHeader name = true)
    (back : List Line) :
    ∀ (front : List Line), (∀ line ∈ front, isCookieHeader line.1 = false) →
      emitHeaders (some extra) false (front ++ (name, value) :: back) =
        (front ++ (name, mergeCookies value extra) :: back, true)
  | [], _ => by
      rw [List.nil_append, emitHeaders]
      simp only [cookie, Bool.not_false, Bool.and_self, if_true, emitHeaders_merged]
      rfl
  | (other, text) :: front, others => by
      have here : isCookieHeader other = false := others (other, text) List.mem_cons_self
      have later := @emitHeaders_first extra name value cookie back front fun line there =>
        others line (List.mem_cons_of_mem _ there)
      rw [List.cons_append, emitHeaders]
      simp only [here, Bool.and_false, Bool.false_eq_true, if_false, later]
      rfl

/-! ## The seam -/

/-- The caller's segments without the empty ones at the end, then the chain's. -/
def JoinsCleanly (value extra merged : Str) : Prop :=
  segments merged = (segments value).rdropWhile List.isEmpty ++ segments extra

/-- Behind the first `;` of the separators and white space that end the trimmed value,
there is nothing but `;` and blanks. -/
def StrayEnd (value : Str) : Prop :=
  ∀ front tail, trim value = front ++ ';' :: tail →
    (∀ c ∈ tail, c = ';' ∨ isWhitespace c = true) → ∀ c ∈ tail, isStray c = true

theorem trim_eq_nil_iff {s : Str} : trim s = [] ↔ ∀ c ∈ s, isWhitespace c = true := by
  constructor
  · intro nothing c there
    obtain ⟨before, after, split, front, back⟩ := trim_spec s
    rw [nothing, List.append_nil] at split
    rw [split] at there
    rcases List.mem_append.mp there with early | late
    · exact front c early
    · exact back c late
  · intro blank
    obtain ⟨before, after, split, front, back⟩ := trim_spec s
    have whole := @trim_append s [] blank (fun c there => by cases there) []
    rw [List.append_nil, List.append_nil] at whole
    exact whole

theorem head_trim {s rest : Str} {c : Char} (whole : trim s = c :: rest) :
    isWhitespace c = false := by
  by_contra blank
  rw [Bool.not_eq_false] at blank
  have again := trim_trim s
  rw [whole, trim_cons blank] at again
  obtain ⟨before, after, split, -, -⟩ := trim_spec rest
  have longer := congrArg List.length split
  rw [again] at longer
  simp only [List.length_append, List.length_cons] at longer
  omega

/-- What is left of the caller's value does not end in a separator or a blank. -/
theorem last_of_caller {value front tail : Str}
    (split : (trim value).rdropWhile isStray = front ++ ';' :: tail) :
    ∃ (more : tail ≠ []), isStray (tail.getLast more) = false := by
  have whole : (trim value).rdropWhile isStray ≠ [] := by
    rw [split]
    simp
  have last := List.rdropWhile_last_not isStray (trim value) whole
  simp only [split] at last
  have more : tail ≠ [] := by
    rintro rfl
    rw [List.getLast_append_of_ne_nil _ (by simp)] at last
    exact last rfl
  refine ⟨more, ?_⟩
  rw [List.getLast_append_of_ne_nil _ (by simp), List.getLast_cons more] at last
  simpa using last

/-- Dropping a trailing run that stops behind a given place leaves that place alone. -/
theorem rdropWhile_append_of_mem {c : Char} {tail : Str} (there : c ∈ tail)
    (keeps : isStray c = false) (front : Str) :
    (front ++ tail).rdropWhile isStray = front ++ tail.rdropWhile isStray := by
  induction tail using List.reverseRecOn with
  | nil => cases there
  | append_singleton tail d ih =>
      rw [← List.append_assoc]
      by_cases stray : isStray d = true
      · rw [List.rdropWhile_concat_pos _ _ _ stray, List.rdropWhile_concat_pos _ _ _ stray]
        rcases List.mem_append.mp there with earlier | last
        · exact ih earlier
        · rw [List.mem_singleton.mp last, stray] at keeps
          cases keeps
      · rw [List.rdropWhile_concat_neg _ _ _ stray, List.rdropWhile_concat_neg _ _ _ stray,
          List.append_assoc]

theorem segments_ne_nil (value : Str) : segments value ≠ [] := by
  unfold segments
  simp

/-- A value that ends in a separator, other separators and white space has an empty last
segment. -/
theorem last_segment_empty {front tail : Str} (only : ∀ c ∈ tail, c = ';' ∨ isWhitespace c = true) :
    (segments (front ++ ';' :: tail)).getLast (segments_ne_nil _) = [] := by
  by_cases again : ';' ∈ tail
  · obtain ⟨middle, last, rfl, absent⟩ := exists_last again
    have blank : ∀ c ∈ last, isWhitespace c = true := by
      intro c here
      rcases only c (by simp [here]) with rfl | blank
      · exact absurd here absent
      · exact blank
    have shape : front ++ ';' :: (middle ++ ';' :: last) = (front ++ ';' :: middle) ++ ';' :: last := by
      simp
    simp only [shape, segments_last absent, List.getLast_concat]
    exact trim_eq_nil_iff.mpr blank
  · simp only [segments_last again, List.getLast_concat]
    refine trim_eq_nil_iff.mpr fun c here => (only c here).resolve_left ?_
    rintro rfl
    exact again here

/-- With nothing but strays at the end, what is left behind the last separator is no
white space. -/
theorem last_part_not_blank {value front last : Str} (strays : StrayEnd value)
    (split : (trim value).rdropWhile isStray = front ++ ';' :: last) : trim last ≠ [] := by
  intro empty
  have blank := trim_eq_nil_iff.mp empty
  obtain ⟨more, ends⟩ := last_of_caller split
  have whole : trim value = front ++ ';' :: (last ++ (trim value).rtakeWhile isStray) := by
    have parts := @List.rdropWhile_append_rtakeWhile Char isStray (trim value)
    rw [split, List.append_assoc, List.cons_append] at parts
    exact parts.symm
  have only : ∀ c ∈ last ++ (trim value).rtakeWhile isStray, c = ';' ∨ isWhitespace c = true := by
    intro c here
    rcases List.mem_append.mp here with inLast | inRun
    · exact .inr (blank c inLast)
    · have dropped := List.mem_rtakeWhile_imp inRun
      rw [isStray, Bool.or_eq_true, decide_eq_true_eq, decide_eq_true_eq] at dropped
      rcases dropped with sep | rfl
      · exact .inl sep
      · exact .inr (by decide)
  have stray := strays front _ whole only
  rw [stray _ (List.mem_append_left _ (List.getLast_mem more))] at ends
  cases ends

/-- A trimmed value does not begin with white space, whatever is dropped at its end. -/
theorem trim_caller_ne_nil {value : Str} (kept : (trim value).rdropWhile isStray ≠ []) :
    trim ((trim value).rdropWhile isStray) ≠ [] := by
  intro empty
  obtain ⟨c, rest, begins⟩ := List.exists_cons_of_ne_nil kept
  have parts := @List.rdropWhile_append_rtakeWhile Char isStray (trim value)
  rw [begins, List.cons_append] at parts
  have dark := head_trim parts.symm
  rw [trim_eq_nil_iff.mp empty c (by rw [begins]; exact List.mem_cons_self)] at dark
  cases dark

/-- The last segment of what is left of the caller's value is empty exactly when a white
space that is no blank stands behind a trailing separator. -/
theorem segments_caller_iff {value : Str} (kept : (trim value).rdropWhile isStray ≠ []) :
    (segments ((trim value).rdropWhile isStray)).rdropWhile List.isEmpty =
        segments ((trim value).rdropWhile isStray) ↔ StrayEnd value := by
  rw [List.rdropWhile_eq_self_iff]
  constructor
  · intro last front tail split only c there
    by_contra keeps
    rw [Bool.not_eq_true] at keeps
    -- the run of strays ends inside the tail
    have stops := rdropWhile_append_of_mem there keeps (front ++ [';'])
    rw [List.append_assoc, List.singleton_append, ← split, List.append_assoc,
      List.singleton_append] at stops
    have inside : ∀ d ∈ tail.rdropWhile isStray, d = ';' ∨ isWhitespace d = true := fun d here =>
      only d ((List.rdropWhile_prefix isStray tail).subset here)
    refine last (segments_ne_nil _) ?_
    simp only [stops, last_segment_empty inside, List.isEmpty_nil]
  · intro strays _
    rw [List.isEmpty_iff]
    by_cases there : ';' ∈ (trim value).rdropWhile isStray
    · obtain ⟨front, last, split, absent⟩ := exists_last there
      simp only [split, segments_last absent, List.getLast_concat]
      exact last_part_not_blank strays split
    · simp only [segments_of_absent there, List.getLast_singleton]
      exact trim_caller_ne_nil kept

/-- **When the join is clean.** -/
theorem mergeCookies_iff (value extra : Str) :
    JoinsCleanly value extra (mergeCookies value extra) ↔ StrayEnd value := by
  have caller : (segments value).rdropWhile List.isEmpty =
      (segments ((trim value).rdropWhile isStray)).rdropWhile List.isEmpty := by
    rw [segments_trimEndMatches, segments_trim]
  unfold JoinsCleanly mergeCookies
  rw [caller]
  by_cases nothing : (trim value).rdropWhile isStray = []
  · rw [nothing]
    refine iff_of_true rfl ?_
    intro front tail split _ c there
    refine List.rdropWhile_eq_nil_iff.mp nothing c ?_
    rw [split]
    simp [there]
  · simp only [List.isEmpty_iff, nothing, if_false]
    rw [segments_join, List.append_cancel_right_eq, eq_comm, segments_caller_iff nothing]

/-- The first `Cookie` header of the caller takes the chain's cookies, and the seam is
clean exactly when that header ends in nothing but separators and blanks. -/
theorem mergedHeader_iff {http : HttpCrate} {uri : Uri} {config : RequestConfig}
    {originForm manualHostHeader : Bool} {extra name value : Str} {front back : List Line}
    {request : Request} (supplied : config.headerList = front ++ (name, value) :: back)
    (others : ∀ line ∈ front, isCookieHeader line.1 = false)
    (cookie : isCookieHeader name = true)
    (built : buildRequest http uri config originForm manualHostHeader (some extra) =
      .ok request) :
    ∃ merged,
      request.headers = defaultHeaders uri config.headerList manualHostHeader ++
        (front ++ (name, merged) :: back) ∧
      (JoinsCleanly value extra merged ↔ StrayEnd value) := by
  refine ⟨mergeCookies value extra, ?_, mergeCookies_iff value extra⟩
  rw [buildRequest_headers built, requestHeaders, supplied,
    emitHeaders_first extra cookie back front others]
  simp

/-- A crate that builds every request and parses no text. -/
def lenientCrate : HttpCrate where
  parse := fun _ => .error "empty string".toList
  build := fun _ _ => .ok ()

def mergedRequest : Request where
  method := "GET".toList
  uri := exampleHost "example.com" "/home"
  headers :=
    [("User-Agent".toList, "blasthttp/0.1.0".toList),
      ("Accept-Encoding".toList, "gzip, deflate, br".toList),
      ("Cookie".toList, "sid=mine; lb=7".toList)]
  body := []

theorem mergedHeader_iff_reset :
    ∃ merged,
      mergedRequest.headers =
        defaultHeaders (exampleHost "example.com" "/home") callerConfig.headerList false ++
          ([] ++ ("Cookie".toList, merged) :: []) ∧
      (JoinsCleanly "sid=mine; ".toList "lb=7".toList merged ↔ StrayEnd "sid=mine; ".toList) :=
  @mergedHeader_iff lenientCrate (exampleHost "example.com" "/home") callerConfig false false
    "lb=7".toList "Cookie".toList "sid=mine; ".toList [] [] mergedRequest rfl
    (fun line there => by cases there) (by decide) rfl

/-! A tab between two separators. -/

def tabConfig : RequestConfig :=
  { RequestConfig.new "http://example.com/".toList with
    headers := some [("Cookie".toList, "a=1;	;".toList)] }

def chainOfOne : ChainCookies where
  cookies :=
    [{ name := "chain".toList
       value := "9".toList
       domain := "example.com".toList
       hostOnly := true
       path := "/".toList
       secure := false }]
  callerNames := ["a".toList]

/-- The tab is left as a segment of its own, and an empty one stands at the seam. -/
theorem mergedHeader_tab :
    chainOfOne.headerFor (exampleHost "example.com" "/") = some "chain=9".toList ∧
    (buildRequest lenientCrate (exampleHost "example.com" "/") tabConfig false false
        (some "chain=9".toList)).toOption.map (·.headers) =
      some [("User-Agent".toList, "blasthttp/0.1.0".toList),
        ("Accept-Encoding".toList, "gzip, deflate, br".toList),
        ("Cookie".toList, "a=1;	; chain=9".toList)] ∧
    segments "a=1;	; chain=9".toList = ["a=1".toList, [], "chain=9".toList] ∧
    ¬ JoinsCleanly "a=1;	;".toList "chain=9".toList "a=1;	; chain=9".toList := by
  refine ⟨by decide +kernel, by decide +kernel, by decide +kernel, ?_⟩
  unfold JoinsCleanly
  decide +kernel

end Blasthttp.Client
