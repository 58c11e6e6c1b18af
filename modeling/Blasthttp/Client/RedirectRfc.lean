/-
# Blasthttp.Client.RedirectRfc -- redirect targets and RFC 3986

`resolvesTo_iff` compares `resolve_redirect` with RFC 3986 §5.2 for every form of
reference: with a scheme, with an authority, rooted, relative, query only and empty.
Of the `http` crate's parser only `UriContract` is used: what a parsed URI with a
scheme shows of its text, and that `scheme://` is never dropped.
-/
import Blasthttp.Client.Redirect
import Blasthttp.Http.PlainParse

namespace Blasthttp.Client

open Blasthttp.Rust Blasthttp.Http Blasthttp.Lib.Rfc3986

set_option autoImplicit false

/-! ## What parsing shows -/

/-- A URI shows the parts of the text behind its `scheme://`. -/
def Shows (uri : Uri) (rest : Str) : Prop :=
  ∃ authority, uri.authority = some authority ∧ authority.text ≠ [] ∧
    authority.text = rest.takeWhile inAuthority ∧
    uri.path = pathOrRoot ((rest.dropWhile inAuthority).takeWhile inPath) ∧
    uri.query = queryOf ((rest.dropWhile inAuthority).dropWhile inPath)

/-- What is used of the `http` crate's parser. -/
structure UriContract (parse : Parser) : Prop where
  /-- A URI with a scheme was written as one, in any letter case, and shows its parts. -/
  shows : ∀ {s : Str} {uri : Uri} {scheme : Str}, parse s = .ok uri → uri.scheme = some scheme →
    ∃ written rest, s = written ++ "://".toList ++ rest ∧ (∀ c ∈ written, inScheme c = true) ∧
      (∀ c ∈ scheme, inScheme c = true) ∧
      toAsciiLowercase scheme = toAsciiLowercase written ∧ Shows uri rest
  /-- A text that starts like one with a scheme parses as such or not at all. -/
  keepsScheme : ∀ {scheme rest : Str} {uri : Uri}, scheme ≠ [] →
    (∀ c ∈ scheme, inScheme c = true) → parse (scheme ++ "://".toList ++ rest) = .ok uri →
      uri.scheme.isSome = true

/-- The parts of an absolute URI that resolution uses. -/
structure AbsoluteUri (uri : Uri) (scheme : Str) (authority : Authority) : Prop where
  hasScheme : uri.scheme = some scheme
  named : scheme ≠ []
  schemeChars : ∀ c ∈ scheme, inScheme c = true
  hasAuthority : uri.authority = some authority
  authorityChars : ∀ c ∈ authority.text, inAuthority c = true
  rooted : uri.path ≠ []

theorem absoluteUri_of_parse {parse : Parser} (contract : UriContract parse) {s scheme : Str}
    {uri : Uri} (parsed : parse s = .ok uri) (absolute : uri.scheme = some scheme)
    (named : scheme ≠ []) : ∃ authority, AbsoluteUri uri scheme authority := by
  obtain ⟨written, rest, -, -, schemeChars, -, authority, shown, -, text, path, -⟩ :=
    contract.shows parsed absolute
  refine ⟨authority, absolute, named, schemeChars, shown, ?_, ?_⟩
  · intro c there
    rw [text] at there
    exact List.mem_takeWhile_imp there
  · rw [path]
    exact pathOrRoot_ne_nil _

/-- The scheme of a text is what stands before its first delimiter. -/
theorem scheme_unique {a b x y : Str} (left : ∀ c ∈ a, inScheme c = true)
    (right : ∀ c ∈ b, inScheme c = true)
    (same : a ++ "://".toList ++ x = b ++ "://".toList ++ y) : a = b ∧ x = y := by
  have head : ∀ (s z : Str), (∀ c ∈ s, inScheme c = true) →
      (s ++ "://".toList ++ z).takeWhile inScheme = s := by
    intro s z inside
    rw [List.append_assoc, List.takeWhile_append_of_pos inside]
    change s ++ (':' :: '/' :: '/' :: z).takeWhile inScheme = s
    rw [List.takeWhile_cons_of_neg (by decide), List.append_nil]
  have front := congrArg (List.takeWhile inScheme) same
  rw [head a x left, head b y right] at front
  subst front
  exact ⟨rfl, List.append_cancel_left same⟩

/-! ## The comparison with RFC 3986 -/

/-- The current URI as the base of a resolution. -/
def Uri.reference (uri : Uri) : Reference where
  scheme := uri.scheme
  authority := uri.authority.map Authority.text
  path := uri.path
  query := uri.query
  fragment := none

/-- A URI is the target of a resolution: the same parts, the scheme in any letter
case, an empty path shown as `/`, and no fragment kept. -/
def IsTarget (uri : Uri) (target : Reference) : Prop :=
  uri.scheme.map toAsciiLowercase = target.scheme.map toAsciiLowercase ∧
    uri.authority.map Authority.text = target.authority ∧
    uri.path = pathOrRoot target.path ∧ uri.query = target.query

/-- `resolve_redirect` yields the standard resolution. -/
def ResolvesTo (parse : Parser) (current : Uri) (location : Str) : Prop :=
  ∃ uri, resolveRedirect parse current location = .ok uri ∧
    IsTarget uri (resolve (Uri.reference current) (split location))

/-- The `Location` parses by itself as a URI with a scheme. -/
def Standalone (parse : Parser) (location : Str) : Prop :=
  ∃ uri, parse location = .ok uri ∧ uri.scheme.isSome = true

/-- The `Location` pasted behind the current authority parses. -/
def Pastes (parse : Parser) (current : Uri) (location : Str) : Prop :=
  ∃ scheme authority uri, current.scheme = some scheme ∧ current.authority = some authority ∧
    parse (pasted scheme authority location) = .ok uri

/-- The references, by form, that come out right. -/
def ResolvesWhen (parse : Parser) (current : Uri) (location : Str) : Prop :=
  let ref := split location
  match ref.scheme, ref.authority with
  | some _, _ => Standalone parse location ∧ removeDotSegments ref.path = ref.path
  | none, some _ => False
  | none, none =>
      Pastes parse current location ∧
        match ref.path with
        | [] => current.path = ['/'] ∧ (ref.query = none → current.query = none)
        | '/' :: _ => removeDotSegments ref.path = ref.path
        | _ => False

/-- Showing the root for an empty path hides no removed segment. -/
theorem pathOrRoot_removeDotSegments (path : Str) :
    pathOrRoot path = pathOrRoot (removeDotSegments path) ↔ removeDotSegments path = path := by
  constructor
  · intro same
    cases path with
    | nil => rfl
    | cons c rest =>
        have whole : pathOrRoot (c :: rest) = c :: rest := rfl
        rw [whole] at same
        by_cases gone : removeDotSegments (c :: rest) = []
        · rw [gone] at same
          rw [same] at gone
          exact absurd gone (by decide)
        · have shown : pathOrRoot (removeDotSegments (c :: rest)) = removeDotSegments (c :: rest) :=
            if_neg (by simpa using gone)
          exact (same.trans shown).symm
  · intro same
    rw [same]

/-! ## The two branches -/

theorem resolveRedirect_standalone {parse : Parser} {current uri : Uri} {location : Str}
    (chars : ∀ c ∈ location, isUriChar c = true) (parsed : parse location = .ok uri)
    (absolute : uri.scheme.isSome = true) :
    resolveRedirect parse current location = .ok uri := by
  unfold resolveRedirect
  simp only [sanitizeUri_uriChars chars, parsed, absolute, if_true]

theorem resolveRedirect_pasted {parse : Parser} {current : Uri} {scheme : Str}
    {authority : Authority} (base : AbsoluteUri current scheme authority) {location : Str}
    (chars : ∀ c ∈ location, isUriChar c = true) (apart : ¬ Standalone parse location) {uri : Uri} :
    resolveRedirect parse current location = .ok uri ↔
      parse (pasted scheme authority location) = .ok uri := by
  have branch : resolveRedirect parse current location =
      resolveRelative parse current location location := by
    unfold resolveRedirect
    simp only [sanitizeUri_uriChars chars]
    cases parsed : parse location with
    | error e => rfl
    | ok u =>
        have relative : ¬ u.scheme.isSome = true := fun absolute => apart ⟨u, parsed, absolute⟩
        simp only
        rw [if_neg relative]
  rw [branch, resolveRelative, base.hasAuthority, base.hasScheme]
  simp only [Option.getD_some]
  cases parse (pasted scheme authority location) <;> simp

/-- A `Location` that stands alone has a scheme of its own, or an empty one. -/
theorem standalone_shows {parse : Parser} (contract : UriContract parse) {location : Str}
    {uri : Uri} (parsed : parse location = .ok uri) (absolute : uri.scheme.isSome = true) :
    (∃ written rest, written ≠ [] ∧
      split location = splitHierarchy (some written) ('/' :: '/' :: rest) ∧
      uri.scheme.map toAsciiLowercase = some (toAsciiLowercase written) ∧ Shows uri rest) ∨
    (uri.scheme = some [] ∧ location.head? = some ':') := by
  obtain ⟨scheme, some'⟩ := Option.isSome_iff_exists.mp absolute
  obtain ⟨written, rest, text, inside, -, same, shown⟩ := contract.shows parsed some'
  by_cases named : written = []
  · subst named
    have empty : scheme = [] := List.map_eq_nil_iff.mp same
    exact .inr ⟨by rw [some', empty], by rw [text]; rfl⟩
  · refine .inl ⟨written, rest, named, ?_, by rw [some', Option.map_some, same], shown⟩
    have form : location = written ++ ':' :: ('/' :: '/' :: rest) := by simp [text]
    rw [form, split_scheme named inside]

/-- What a pasted `Location` shows. -/
theorem pasted_shows {parse : Parser} (contract : UriContract parse) {current : Uri} {scheme : Str}
    {authority : Authority} (base : AbsoluteUri current scheme authority) {location : Str}
    {uri : Uri} (parsed : parse (pasted scheme authority location) = .ok uri) :
    uri.scheme.map toAsciiLowercase = some (toAsciiLowercase scheme) ∧
      uri.authority.map Authority.text =
        some (authority.text ++ location.takeWhile inAuthority) ∧
      uri.path = pathOrRoot ((location.dropWhile inAuthority).takeWhile inPath) ∧
      uri.query = queryOf ((location.dropWhile inAuthority).dropWhile inPath) := by
  unfold pasted at parsed
  rw [List.append_assoc] at parsed
  have absolute := contract.keepsScheme base.named base.schemeChars parsed
  obtain ⟨shown, some'⟩ := Option.isSome_iff_exists.mp absolute
  obtain ⟨written, rest, text, inside, -, same, part, has, -, textPart, path, query⟩ :=
    contract.shows parsed some'
  obtain ⟨rfl, rfl⟩ := scheme_unique base.schemeChars inside text
  rw [List.takeWhile_append_of_pos base.authorityChars] at textPart
  rw [List.dropWhile_append_of_pos base.authorityChars] at path query
  refine ⟨by rw [some', Option.map_some, same], ?_, path, query⟩
  rw [has, Option.map_some, textPart]

/-! ## The forms of reference -/

/-- Only a URI with the current scheme can be the target of a reference without one. -/
theorem not_target_of_empty_scheme {current uri : Uri} {scheme : Str} {authority : Authority}
    (base : AbsoluteUri current scheme authority) (empty : uri.scheme = some [])
    {target : Reference} (inherits : target.scheme = current.scheme) : ¬ IsTarget uri target := by
  rintro ⟨same, -⟩
  rw [empty, inherits, base.hasScheme] at same
  have nothing : toAsciiLowercase scheme = [] := (Option.some.inj same).symm
  exact base.named (List.map_eq_nil_iff.mp nothing)

/-- A pasted `//` ends up in the path, which then is too long for the target. -/
theorem not_target_of_slashes {uri : Uri} {rest : Str} {target : Reference}
    (shown : uri.path = pathOrRoot (('/' :: '/' :: rest).takeWhile inPath))
    (path : target.path = removeDotSegments ((rest.dropWhile inAuthority).takeWhile inPath)) :
    ¬ IsTarget uri target := by
  rintro ⟨-, -, same, -⟩
  have whole : ('/' :: '/' :: rest).takeWhile inPath = '/' :: '/' :: rest.takeWhile inPath := by
    rw [List.takeWhile_cons_of_pos (by decide), List.takeWhile_cons_of_pos (by decide)]
  have here : uri.path = '/' :: '/' :: rest.takeWhile inPath := by
    rw [shown, whole]
    rfl
  have long := congrArg List.length (here.symm.trans same)
  have dots := removeDotSegments_length ((rest.dropWhile inAuthority).takeWhile inPath)
  have behind := path_behind_authority_length rest
  rw [path] at long
  unfold pathOrRoot at long
  split at long
  · simp at long
  · rw [List.length_cons, List.length_cons] at long
    omega

section

variable {parse : Parser} (contract : UriContract parse) {current : Uri} {scheme : Str}
  {authority : Authority} (base : AbsoluteUri current scheme authority) {location : Str}
  (chars : ∀ c ∈ location, isUriChar c = true)

include contract base chars

/-- A reference with a scheme that the parser does not take alone lands in the host. -/
theorem not_resolvesTo_scheme_pasted {written rest : Str}
    (inside : ∀ c ∈ written, inScheme c = true) (text : location = written ++ ':' :: rest)
    (parts : split location = splitHierarchy (some written) rest)
    (alone : ¬ Standalone parse location) : ¬ ResolvesTo parse current location := by
  have target := resolve_splitHierarchy (Uri.reference current) parts
  rintro ⟨uri, found, isTarget⟩
  rw [resolveRedirect_pasted base chars alone] at found
  obtain ⟨-, shownAuthority, shownPath, -⟩ := pasted_shows contract base found
  have cut : location.dropWhile inAuthority = rest.dropWhile inAuthority := by
    have front : ∀ c ∈ written ++ [':'], inAuthority c = true := by
      intro c there
      rcases List.mem_append.mp there with old | colon
      · exact inAuthority_of_inScheme (inside c old)
      · rw [List.mem_singleton.mp colon]
        decide
    have form : location = written ++ [':'] ++ rest := by simp [text]
    rw [form, List.dropWhile_append_of_pos front]
  rcases splitHierarchy_cases (some written) rest with ⟨tail, rfl, form⟩ | form
  · rw [cut] at shownPath
    refine not_target_of_slashes shownPath ?_ isTarget
    rw [target, parts, form]
    rfl
  · have none' := isTarget.2.1
    rw [target, parts, form, shownAuthority] at none'
    cases none'

/-- References with a scheme. -/
theorem resolvesTo_scheme {written rest : Str} (named : written ≠ [])
    (inside : ∀ c ∈ written, inScheme c = true) (text : location = written ++ ':' :: rest)
    (parts : split location = splitHierarchy (some written) rest) :
    ResolvesTo parse current location ↔
      Standalone parse location ∧
        removeDotSegments (split location).path = (split location).path := by
  have target := resolve_splitHierarchy (Uri.reference current) parts
  by_cases alone : Standalone parse location
  · obtain ⟨uri, parsed, absolute⟩ := alone
    have result : resolveRedirect parse current location = .ok uri :=
      resolveRedirect_standalone chars parsed absolute
    rcases standalone_shows contract parsed absolute with
      ⟨written', rest', -, form, same, part, has, -, textPart, path, query⟩ | ⟨-, first⟩
    · have shape : split location =
          splitPath (some written') (some (rest'.takeWhile inAuthority))
            (rest'.dropWhile inAuthority) := form
      unfold ResolvesTo
      rw [result, target]
      constructor
      · rintro ⟨u, found, -, -, samePath, -⟩
        cases found
        refine ⟨⟨uri, parsed, absolute⟩, (pathOrRoot_removeDotSegments _).mp ?_⟩
        rw [← samePath, path, shape]
        rfl
      · rintro ⟨-, clean⟩
        refine ⟨uri, rfl, ?_⟩
        unfold IsTarget
        simp only
        rw [clean, shape]
        exact ⟨same, by rw [has, Option.map_some, textPart]; rfl, path, query⟩
    · obtain ⟨c, tail, rfl⟩ := List.exists_cons_of_ne_nil named
      rw [text, List.cons_append, List.head?_cons, Option.some.injEq] at first
      exact absurd (inside c List.mem_cons_self) (by rw [first]; decide)
  · have never := not_resolvesTo_scheme_pasted contract base chars inside text parts alone
    exact iff_of_false never fun both => alone both.1

/-- References with an authority and no scheme never come out right. -/
theorem resolvesTo_authority {rest : Str} (text : location = '/' :: '/' :: rest)
    (parts : split location = splitPath none (some (rest.takeWhile inAuthority))
      (rest.dropWhile inAuthority)) : ¬ ResolvesTo parse current location := by
  have target : resolve (Uri.reference current) (split location) =
      { split location with
        scheme := current.scheme
        path := removeDotSegments (split location).path } := by
    rw [parts]
    rfl
  rintro ⟨uri, found, isTarget⟩
  rw [target] at isTarget
  by_cases alone : Standalone parse location
  · obtain ⟨u, parsed, absolute⟩ := alone
    rw [resolveRedirect_standalone chars parsed absolute] at found
    cases found
    rcases standalone_shows contract parsed absolute with ⟨_, _, -, form, -⟩ | ⟨-, first⟩
    · have clash := congrArg Reference.scheme (parts.symm.trans form)
      rw [splitHierarchy_scheme] at clash
      cases clash
    · rw [text] at first
      cases first
  · rw [resolveRedirect_pasted base chars alone] at found
    obtain ⟨-, -, shownPath, -⟩ := pasted_shows contract base found
    rw [text, List.dropWhile_cons_of_neg (by decide)] at shownPath
    refine not_target_of_slashes shownPath ?_ isTarget
    rw [parts]
    rfl

omit base chars in
/-- Only a `Location` that starts with a colon can stand alone without a scheme. -/
theorem not_standalone (noScheme : (split location).scheme = none)
    (first : location.head? ≠ some ':') : ¬ Standalone parse location := by
  rintro ⟨u, parsed, absolute⟩
  rcases standalone_shows contract parsed absolute with ⟨written, rest, -, form, -⟩ | ⟨-, colon⟩
  · rw [form, splitHierarchy_scheme] at noScheme
    cases noScheme
  · exact first colon

/-- References with neither, when nothing of them runs into the authority. -/
theorem resolvesTo_behind (parts : split location = splitPath none none location)
    (behind : location.takeWhile inAuthority = []) (first : location.head? ≠ some ':') :
    ResolvesTo parse current location ↔
      Pastes parse current location ∧
        pathOrRoot (split location).path =
          pathOrRoot (resolve (Uri.reference current) (split location)).path ∧
        (split location).query = (resolve (Uri.reference current) (split location)).query := by
  have noScheme : (split location).scheme = none := by rw [parts]; rfl
  have noAuthority : (split location).authority = none := by rw [parts]; rfl
  have path : (split location).path = location.takeWhile inPath := by rw [parts]; rfl
  have query : (split location).query = queryOf (location.dropWhile inPath) := by rw [parts]; rfl
  have whole : location.dropWhile inAuthority = location := by
    have both := List.takeWhile_append_dropWhile (p := inAuthority) (l := location)
    rwa [behind, List.nil_append] at both
  have alone : ¬ Standalone parse location := not_standalone contract noScheme first
  obtain ⟨sameScheme, sameAuthority⟩ :=
    @resolve_inherits (Uri.reference current) _ noScheme noAuthority
  unfold ResolvesTo
  constructor
  · rintro ⟨uri, found, -, -, samePath, sameQuery⟩
    rw [resolveRedirect_pasted base chars alone] at found
    obtain ⟨-, -, shownPath, shownQuery⟩ := pasted_shows contract base found
    rw [whole] at shownPath shownQuery
    refine ⟨⟨scheme, authority, uri, base.hasScheme, base.hasAuthority, found⟩, ?_, ?_⟩
    · rw [path, ← shownPath, samePath]
    · rw [query, ← shownQuery, sameQuery]
  · rintro ⟨⟨s, a, uri, hasScheme, hasAuthority, parsed⟩, samePath, sameQuery⟩
    rw [base.hasScheme, Option.some.injEq] at hasScheme
    rw [base.hasAuthority, Option.some.injEq] at hasAuthority
    subst hasScheme hasAuthority
    obtain ⟨shownScheme, shownAuthority, shownPath, shownQuery⟩ := pasted_shows contract base parsed
    rw [whole, ← path] at shownPath
    rw [whole, ← query] at shownQuery
    refine ⟨uri, (resolveRedirect_pasted base chars alone).mpr parsed, ?_, ?_, ?_, ?_⟩
    · rw [shownScheme, sameScheme, Uri.reference, base.hasScheme, Option.map_some]
    · rw [shownAuthority, sameAuthority, Uri.reference, base.hasAuthority, Option.map_some, behind,
        List.append_nil]
    · rw [shownPath, samePath]
    · rw [shownQuery, sameQuery]

/-- An empty path inherits the current one, which must be the root the paste shows. -/
theorem resolvesTo_empty (parts : split location = splitPath none none location)
    (behind : location.takeWhile inAuthority = []) (first : location.head? ≠ some ':')
    (empty : (split location).path = []) :
    ResolvesTo parse current location ↔
      Pastes parse current location ∧ current.path = ['/'] ∧
        ((split location).query = none → current.query = none) := by
  have noScheme : (split location).scheme = none := by rw [parts]; rfl
  have noAuthority : (split location).authority = none := by rw [parts]; rfl
  have root : pathOrRoot current.path = current.path := if_neg (by simpa using base.rooted)
  obtain ⟨path, query⟩ := @resolve_of_empty (Uri.reference current) _ noScheme noAuthority empty
  rw [resolvesTo_behind contract base chars parts behind first, path, query, empty]
  change _ ∧ ['/'] = pathOrRoot current.path ∧ _ = (if _ then current.query else _) ↔ _
  rw [root]
  refine and_congr_right fun _ => and_congr eq_comm ?_
  cases (split location).query with
  | none => simp [eq_comm]
  | some q => simp

/-- A rooted path keeps the authority; its dot segments stay. -/
theorem resolvesTo_rooted (parts : split location = splitPath none none location) {tail : Str}
    (text : location = '/' :: tail) :
    ResolvesTo parse current location ↔
      Pastes parse current location ∧
        removeDotSegments (split location).path = (split location).path := by
  have noScheme : (split location).scheme = none := by rw [parts]; rfl
  have noAuthority : (split location).authority = none := by rw [parts]; rfl
  have behind : location.takeWhile inAuthority = [] := by
    rw [text]
    exact List.takeWhile_cons_of_neg (by decide)
  have first : location.head? ≠ some ':' := by
    rw [text]
    simp
  have rooted : (split location).path = '/' :: tail.takeWhile inPath := by
    have inside : inPath '/' = true := by decide
    rw [parts, text]
    exact List.takeWhile_cons_of_pos inside
  obtain ⟨path, query⟩ := @resolve_of_rooted (Uri.reference current) _ noScheme noAuthority _ rooted
  rw [resolvesTo_behind contract base chars parts behind first, path, query,
    pathOrRoot_removeDotSegments]
  simp

/-- The first characters of a relative path become part of the host. -/
theorem not_resolvesTo_relative (parts : split location = splitPath none none location) {c : Char}
    {tail : Str} (text : location = c :: tail) (inside : inAuthority c = true) :
    ¬ ResolvesTo parse current location := by
  have noScheme : (split location).scheme = none := by rw [parts]; rfl
  have noAuthority : (split location).authority = none := by rw [parts]; rfl
  obtain ⟨sameScheme, sameAuthority⟩ :=
    @resolve_inherits (Uri.reference current) _ noScheme noAuthority
  rintro ⟨uri, found, isTarget⟩
  by_cases alone : Standalone parse location
  · obtain ⟨u, parsed, absolute⟩ := alone
    rw [resolveRedirect_standalone chars parsed absolute] at found
    cases found
    rcases standalone_shows contract parsed absolute with ⟨written, rest, -, form, -⟩ | ⟨empty, -⟩
    · rw [form, splitHierarchy_scheme] at noScheme
      cases noScheme
    · exact not_target_of_empty_scheme base empty sameScheme isTarget
  · rw [resolveRedirect_pasted base chars alone] at found
    obtain ⟨-, shownAuthority, -, -⟩ := pasted_shows contract base found
    have same := isTarget.2.1
    rw [shownAuthority, sameAuthority, Uri.reference, base.hasAuthority, Option.map_some,
      Option.some.injEq] at same
    have nothing : location.takeWhile inAuthority = [] := List.append_right_eq_self.mp same
    rw [text, List.takeWhile_cons_of_pos inside] at nothing
    cases nothing

/-- References with neither, by their path. -/
theorem resolvesTo_plain (parts : split location = splitPath none none location) :
    ResolvesTo parse current location ↔
      Pastes parse current location ∧
        match (split location).path with
        | [] => current.path = ['/'] ∧ ((split location).query = none → current.query = none)
        | '/' :: _ => removeDotSegments (split location).path = (split location).path
        | _ => False := by
  have path : (split location).path = location.takeWhile inPath := by rw [parts]; rfl
  by_cases nothing : location = []
  · have empty : (split location).path = [] := by rw [path, nothing]; rfl
    rw [resolvesTo_empty contract base chars parts (by rw [nothing]; rfl) (by rw [nothing]; simp)
      empty, empty]
  · obtain ⟨c, tail, text⟩ := List.exists_cons_of_ne_nil nothing
    by_cases inside : inAuthority c = true
    · have never := not_resolvesTo_relative contract base chars parts text inside
      have shape : (split location).path = c :: tail.takeWhile inPath := by
        rw [path, text]
        exact List.takeWhile_cons_of_pos (inPath_of_inAuthority inside)
      refine iff_of_false never ?_
      rintro ⟨-, bad⟩
      rw [shape] at bad
      split at bad
      · rename_i clash
        cases clash
      · rename_i clash
        cases clash
        exact absurd inside (by decide)
      · exact bad
    · by_cases slash : c = '/'
      · subst slash
        have rooted : (split location).path = '/' :: tail.takeWhile inPath := by
          rw [path, text]
          exact List.takeWhile_cons_of_pos (by decide)
        rw [resolvesTo_rooted contract base chars parts text, rooted]
        rfl
      · have behind : location.takeWhile inAuthority = [] := by
          rw [text]
          exact List.takeWhile_cons_of_neg inside
        have first : location.head? ≠ some ':' := by
          rw [text, List.head?_cons, Ne, Option.some.injEq]
          rintro rfl
          exact inside (by decide)
        have empty : (split location).path = [] := by
          rw [path, text]
          refine List.takeWhile_cons_of_neg fun inside' => inside ?_
          unfold inPath at inside'
          unfold inAuthority
          simpa [slash] using inside'
        rw [resolvesTo_empty contract base chars parts behind first empty, empty]

end

/-- **When a redirect resolves as RFC 3986 says.** For a current absolute URI and any
`Location` of URI characters, the target is the standard resolution exactly for the
references `ResolvesWhen` lists. -/
theorem resolvesTo_iff {parse : Parser} (contract : UriContract parse) {s scheme : Str}
    {current : Uri} (parsed : parse s = .ok current) (absolute : current.scheme = some scheme)
    (named : scheme ≠ []) {location : Str} (chars : ∀ c ∈ location, isUriChar c = true) :
    ResolvesTo parse current location ↔ ResolvesWhen parse current location := by
  obtain ⟨authority, base⟩ := absoluteUri_of_parse contract parsed absolute named
  unfold ResolvesWhen
  simp only
  rcases split_cases location with ⟨written, rest, ownName, inside, text, parts⟩ | parts
  · have has : (split location).scheme = some written := by rw [parts, splitHierarchy_scheme]
    rw [resolvesTo_scheme contract base chars ownName inside text parts, has]
  · rcases splitHierarchy_cases none location with ⟨rest, text, form⟩ | form
    · have never := resolvesTo_authority contract base chars text (parts.trans form)
      rw [parts, form]
      exact iff_of_false never id
    · have plain := resolvesTo_plain contract base chars (parts.trans form)
      rw [plain, parts, form]
      rfl

/-! ## A redirect on `example.com` -/

theorem plainParse_contract : UriContract plainParse where
  shows := by
    intro s uri scheme parsed absolute
    obtain ⟨rest, text, inside, nonempty, shown, path, query⟩ := plainParse_written parsed absolute
    refine ⟨scheme, rest, text, inside, inside, rfl, _, shown, ?_, ?_, path, query⟩
    · rw [plainAuthority_text]
      exact nonempty
    · rw [plainAuthority_text]
  keepsScheme := by
    intro scheme rest uri named inside parsed
    have text : scheme ++ "://".toList ++ rest = scheme ++ ':' :: '/' :: '/' :: rest := by simp
    rw [text] at parsed
    unfold plainParse at parsed
    simp only [split_scheme named inside] at parsed
    change (if (rest.takeWhile inAuthority).isEmpty then _ else _) = _ at parsed
    split at parsed
    · cases parsed
    · cases parsed
      rfl

theorem resolvesTo_iff_rooted :
    ResolvesTo plainParse exampleRoot "/next?page=2".toList ↔
      ResolvesWhen plainParse exampleRoot "/next?page=2".toList :=
  @resolvesTo_iff plainParse plainParse_contract "https://example.com/".toList "https".toList
    exampleRoot (by decide) rfl (by decide) "/next?page=2".toList
    (List.all_eq_true.mp (by decide))

/-- A relative `Location` becomes part of the host: the next hop goes elsewhere. -/
theorem resolveRedirect_extends_host :
    UriContract plainParse ∧ plainParse "https://example.com/".toList = .ok exampleRoot ∧
      (∀ c ∈ ".evil.com/".toList, isUriChar c = true) ∧
      (∃ uri, resolveRedirect plainParse exampleRoot ".evil.com/".toList = .ok uri ∧
        uri.host = some "example.com.evil.com".toList) ∧
      ¬ ResolvesTo plainParse exampleRoot ".evil.com/".toList := by
  refine ⟨plainParse_contract, by decide, List.all_eq_true.mp (by decide), ?_, ?_⟩
  · refine ⟨{ exampleRoot with
      authority := some (plainAuthority "example.com.evil.com".toList) },
      ?_, rfl⟩
    decide +kernel
  · rintro ⟨uri, found, -, other, -⟩
    have here : resolveRedirect plainParse exampleRoot ".evil.com/".toList =
        .ok { exampleRoot with
          authority := some (plainAuthority "example.com.evil.com".toList) } := by
      decide +kernel
    rw [here] at found
    cases found
    exact absurd other (by decide +kernel)

end Blasthttp.Client
